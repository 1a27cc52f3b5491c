import GdRpc.Util.TimingWheelDue
import Mathlib.Data.List.GetD
import Mathlib.Data.List.Perm.Basic

/-!
# Where a task waits

All slots together hold a task at most once while nothing repeats, and the slot
says in which tick the wheel comes to it next.
-/

namespace GdRpc.Util

open GdRpc.Library

universe u

variable {Callback : Type u}

namespace TimeWheel

/-- The references the slots hold, slot after slot. -/
def held (wheel : TimeWheel Callback) : List Nat :=
  wheel.slots_.flatten

theorem mem_held (wheel : TimeWheel Callback) {task : Nat} :
    task ∈ wheel.held ↔ ∃ index, task ∈ wheel.slot index := by
  unfold held slot
  rw [List.mem_flatten]
  constructor
  · rintro ⟨tasks, isSlot, membership⟩
    obtain ⟨index, inside, rfl⟩ := List.mem_iff_getElem.mp isSlot
    exact ⟨index, by simpa [List.getD_eq_getElem?_getD, inside] using membership⟩
  · rintro ⟨index, membership⟩
    by_cases inside : index < wheel.slots_.length
    · rw [List.getD_eq_getElem _ _ inside] at membership
      exact ⟨_, List.getElem_mem inside, membership⟩
    · rw [List.getD_eq_default _ _ (Nat.le_of_not_lt inside)] at membership
      cases membership

/-- A `weak_ptr` can be locked as long as some slot holds the task. -/
theorem alive_iff (wheel : TimeWheel Callback) {task : Nat} :
    wheel.Alive task ↔ task ∈ wheel.held := by
  rw [mem_held]
  constructor
  · rintro ⟨index, _, membership⟩
    exact ⟨index, membership⟩
  · rintro ⟨index, membership⟩
    refine ⟨index, ?_, membership⟩
    by_contra outside
    rw [slot, List.getD_eq_default _ _ (Nat.le_of_not_lt outside)] at membership
    cases membership

theorem held_pushBack (wheel : TimeWheel Callback) {index : Nat} (task : Nat)
    (inside : index < wheel.slots_.length) :
    (wheel.pushBack index task).held.Perm (task :: wheel.held) := by
  unfold held pushBack
  dsimp only
  generalize wheel.slots_ = slots at inside ⊢
  induction slots generalizing index with
  | nil => cases inside
  | cons first slots inductionHypothesis =>
      cases index with
      | zero =>
          simp only [List.modify_zero_cons, List.flatten_cons, List.append_assoc,
            List.singleton_append]
          exact List.perm_middle
      | succ index =>
          have rest := inductionHypothesis (Nat.lt_of_succ_lt_succ inside)
          simp only [List.modify_succ_cons, List.flatten_cons]
          exact (rest.append_left first).trans List.perm_middle

theorem held_erase (wheel : TimeWheel Callback) {it task : Nat}
    (here : (wheel.slot wheel.currentSlot_)[it]? = some task) :
    wheel.held.Perm (task :: (wheel.erase it).held) := by
  unfold slot at here
  unfold held erase
  dsimp only
  generalize wheel.slots_ = slots, wheel.currentSlot_ = index at here ⊢
  induction slots generalizing index with
  | nil => cases here
  | cons first slots inductionHypothesis =>
      cases index with
      | zero =>
          obtain ⟨inside, rfl⟩ := List.getElem?_eq_some_iff.mp here
          simp only [List.modify_zero_cons, List.flatten_cons]
          exact (List.getElem_cons_eraseIdx_perm inside).symm.append_right _
      | succ index =>
          have rest := inductionHypothesis index here
          simp only [List.modify_succ_cons, List.flatten_cons]
          exact (rest.append_left first).trans List.perm_middle

end TimeWheel

namespace WheelRun

variable {run after : WheelRun Callback}

/-- The next tick in which the wheel comes to the task is number `tick`. -/
inductive Reaches (run : WheelRun Callback) (task : Nat) : Nat → Prop where
  | coming : task ∈ run.coming → Reaches run task run.ticks
  | visited : task ∈ run.visited → Reaches run task (run.ticks + run.wheel.slotLen)
  | other (index : Nat) :
      index < run.wheel.slotLen → index ≠ run.wheel.currentSlot_ →
      task ∈ run.wheel.slot index →
      Reaches run task (run.ticks +
        (index + run.wheel.slotLen - run.wheel.currentSlot_) % run.wheel.slotLen)

theorem Reaches.ticks_le {task tick : Nat} (reaches : run.Reaches task tick) :
    run.ticks ≤ tick := by
  cases reaches with
  | coming => exact Nat.le_refl _
  | visited => exact Nat.le_add_right _ _
  | other => exact Nat.le_add_right _ _

theorem Reaches.mono {task tick : Nat} (reaches : run.Reaches task tick)
    (ticks : after.ticks = run.ticks)
    (slotLen : after.wheel.slotLen = run.wheel.slotLen)
    (current : after.wheel.currentSlot_ = run.wheel.currentSlot_)
    (others : ∀ index, index ≠ run.wheel.currentSlot_ → task ∈ run.wheel.slot index →
      task ∈ after.wheel.slot index)
    (visited : task ∈ run.visited → task ∈ after.visited)
    (coming : task ∈ run.coming → task ∈ after.coming) : after.Reaches task tick := by
  cases reaches with
  | coming membership =>
      rw [← ticks]
      exact .coming (coming membership)
  | visited membership =>
      rw [← ticks, ← slotLen]
      exact .visited (visited membership)
  | other index inside differs membership =>
      rw [← ticks, ← slotLen, ← current]
      apply Reaches.other index
      · rwa [slotLen]
      · rwa [current]
      · exact others index differs membership

theorem Reaches.turn {task tick it : Nat} (reaches : run.Reaches task tick)
    (current : run.wheel.currentSlot_ < run.wheel.slotLen)
    (phase : run.phase = .ticking it)
    (exhausted : (run.wheel.slot run.wheel.currentSlot_).length ≤ it) :
    Reaches { run with
      wheel := { run.wheel with
        currentSlot_ := (run.wheel.currentSlot_ + 1) % run.wheel.slotLen }
      phase := .idle
      ticks := run.ticks + 1 } task tick := by
  have closer : ∀ index < run.wheel.slotLen, task ∈ run.wheel.slot index →
      Reaches { run with
        wheel := { run.wheel with
          currentSlot_ := (run.wheel.currentSlot_ + 1) % run.wheel.slotLen }
        phase := .idle
        ticks := run.ticks + 1 } task (run.ticks + 1 + (index + run.wheel.slotLen -
          (run.wheel.currentSlot_ + 1) % run.wheel.slotLen) % run.wheel.slotLen) := by
    intro index inside membership
    by_cases next : index = (run.wheel.currentSlot_ + 1) % run.wheel.slotLen
    · rw [← next, Nat.add_sub_cancel_left, Nat.mod_self]
      exact .coming membership
    · exact .other index inside next membership
  cases reaches with
  | coming membership =>
      unfold WheelRun.coming at membership
      rw [phase] at membership
      rw [WheelPhase.coming, List.drop_eq_nil_of_le exhausted] at membership
      cases membership
  | visited membership =>
      have round := closer _ current (List.mem_of_mem_take membership)
      rwa [Nat.add_assoc run.ticks, Nat.add_comm 1, distance_succ current current,
        if_pos rfl] at round
  | other index inside differs membership =>
      have later := closer index inside membership
      rwa [Nat.add_assoc run.ticks, Nat.add_comm 1, distance_succ inside current,
        if_neg differs] at later

theorem coming_eq_cons {it task : Nat} (phase : run.phase = .ticking it)
    (here : (run.wheel.slot run.wheel.currentSlot_)[it]? = some task) :
    run.coming = task :: (run.wheel.slot run.wheel.currentSlot_).drop (it + 1) := by
  obtain ⟨inside, rfl⟩ := List.getElem?_eq_some_iff.mp here
  unfold coming
  rw [phase]
  exact List.drop_eq_getElem_cons inside

theorem Reaches.beginTick {task tick : Nat} (reaches : run.Reaches task tick)
    (idle : run.phase = .idle) : Reaches { run with phase := .ticking 0 } task tick := by
  refine reaches.mono rfl rfl rfl (fun _ _ => id) ?_ ?_
  · unfold WheelRun.visited
    rw [idle]
    exact id
  · unfold WheelRun.coming
    rw [idle]
    exact id

theorem Reaches.enter {task other tick it : Nat} (reaches : run.Reaches other tick)
    (phase : run.phase = .ticking it)
    (here : (run.wheel.slot run.wheel.currentSlot_)[it]? = some task)
    (differs : other ≠ task) : Reaches { run with phase := .running it task } other tick := by
  refine reaches.mono rfl rfl rfl (fun _ _ => id) ?_ ?_
  · unfold WheelRun.visited
    rw [phase]
    exact id
  · rw [coming_eq_cons phase here, List.mem_cons]
    intro membership
    exact membership.resolve_left differs

theorem Reaches.passOver {task other tick it : Nat} (reaches : run.Reaches other tick)
    (phase : run.phase = .ticking it)
    (here : (run.wheel.slot run.wheel.currentSlot_)[it]? = some task)
    (differs : other ≠ task) (change : Task Callback → Task Callback) :
    Reaches { run with
      wheel := run.wheel.modifyTask task change
      phase := .ticking (it + 1) } other tick := by
  refine reaches.mono rfl rfl rfl (fun _ _ => id) ?_ ?_
  · unfold WheelRun.visited
    rw [phase]
    intro membership
    exact List.take_subset_take_left _ (Nat.le_succ it) membership
  · rw [coming_eq_cons phase here, List.mem_cons]
    intro membership
    exact membership.resolve_left differs

/-- The task passed over is met again one round later. -/
theorem reaches_passedOver {task it : Nat}
    (here : (run.wheel.slot run.wheel.currentSlot_)[it]? = some task)
    (change : Task Callback → Task Callback) :
    Reaches { run with
      wheel := run.wheel.modifyTask task change
      phase := .ticking (it + 1) } task (run.ticks + run.wheel.slotLen) := by
  apply Reaches.visited
  change task ∈ (run.wheel.slot run.wheel.currentSlot_).take (it + 1)
  rw [List.take_add_one, here, List.mem_append]
  exact Or.inr (List.mem_singleton_self task)

theorem Reaches.erase {task other tick it : Nat} (reaches : run.Reaches other tick)
    (phase : run.phase = .running it task)
    (here : (run.wheel.slot run.wheel.currentSlot_)[it]? = some task) :
    Reaches { run with
      wheel := run.wheel.erase it
      phase := .ticking it } other tick := by
  have inside := (List.getElem?_eq_some_iff.mp here).1
  refine reaches.mono rfl rfl rfl ?_ ?_ ?_
  · intro index differs membership
    change other ∈ (run.wheel.erase it).slot index
    rwa [run.wheel.slot_erase, if_neg differs]
  · rw [visited_erase phase inside]
    exact id
  · rw [coming_erase phase inside]
    exact id

/-- What comes to the ends of the slots moves nothing that is there. -/
theorem Reaches.grown {task tick : Nat} (reaches : run.Reaches task tick)
    (iterator : run.phase.coming ≤ (run.wheel.slot run.wheel.currentSlot_).length)
    {wheel : TimeWheel Callback} {more : Nat → List Nat}
    (slots : ∀ index, wheel.slot index = run.wheel.slot index ++ more index)
    (slotLen : wheel.slotLen = run.wheel.slotLen)
    (current : wheel.currentSlot_ = run.wheel.currentSlot_) :
    Reaches { run with wheel := wheel } task tick := by
  refine reaches.mono rfl slotLen current ?_ ?_ ?_
  · intro index _ membership
    change task ∈ wheel.slot index
    rw [slots]
    exact List.mem_append_left _ membership
  · rw [visited_append (slots _) current iterator]
    exact id
  · rw [coming_append (slots _) current iterator]
    exact List.mem_append_left _

/-- The wheel comes to what is put into a slot ahead when it comes to the slot,
in the tick under way if that is the current one. -/
theorem reaches_ahead
    (iterator : run.phase.coming ≤ (run.wheel.slot run.wheel.currentSlot_).length)
    {wheel : TimeWheel Callback} {task distance : Nat}
    (slots : ∀ index, wheel.slot index = run.wheel.slot index ++
      if index = (run.wheel.currentSlot_ + distance) % run.wheel.slotLen then [task] else [])
    (slotLen : wheel.slotLen = run.wheel.slotLen)
    (inside : run.wheel.currentSlot_ < run.wheel.slotLen)
    (current : wheel.currentSlot_ = run.wheel.currentSlot_)
    (short : distance < run.wheel.slotLen) :
    Reaches { run with wheel := wheel } task (run.ticks + distance) := by
  have ahead := @distance_ahead _ _ distance inside
  rw [Nat.mod_eq_of_lt short] at ahead
  by_cases here : run.wheel.currentSlot_ =
      (run.wheel.currentSlot_ + distance) % run.wheel.slotLen
  · rw [← here, Nat.add_sub_cancel_left, Nat.mod_self] at ahead
    rw [← ahead]
    apply Reaches.coming
    rw [coming_append (slots _) current iterator, if_pos here]
    exact List.mem_append_right _ (List.mem_singleton_self _)
  · rw [← ahead, ← slotLen, ← current]
    apply Reaches.other
    · rw [slotLen]
      exact Nat.mod_lt _ (Nat.zero_lt_of_lt inside)
    · rw [slotLen]
      change _ ≠ wheel.currentSlot_
      rw [current]
      exact Ne.symm here
    · change task ∈ wheel.slot _
      rw [slots, slotLen, current, if_pos rfl]
      exact List.mem_append_right _ (List.mem_singleton_self _)

section Schedule

variable {due : Callback → Nat} (shape : NotBefore due run) {timeout : Int}
  (nonneg : 0 ≤ timeout) (callback : Callback) (times : Int)
include shape nonneg

theorem Reaches.schedule {task tick : Nat} (reaches : run.Reaches task tick) :
    Reaches { run with wheel := run.wheel.schedule timeout callback times } task tick :=
  reaches.grown shape.iterator
    (run.wheel.slot_schedule shape.positive shape.slots nonneg callback times) rfl rfl

theorem reaches_scheduled :
    Reaches { run with wheel := run.wheel.schedule timeout callback times }
      run.wheel.tasks.length (run.ticks + (timeout.tmod run.wheel.slotLen).toNat) := by
  have slots := run.wheel.slot_schedule shape.positive shape.slots nonneg callback times
  have short := TimeWheel.toNat_tmod_lt shape.positive timeout
  rw [Nat.mod_eq_of_lt short] at slots
  exact reaches_ahead shape.iterator slots rfl shape.current rfl short

end Schedule

end WheelRun

end GdRpc.Util
