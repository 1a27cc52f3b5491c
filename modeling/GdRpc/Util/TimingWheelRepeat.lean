import GdRpc.Util.TimingWheelVisits
import Mathlib.Data.List.Nodup

/-!
# A task that comes back

`tick` puts a repeating task into a slot before it erases the node it was found
in, so that no slot ever keeps two references to one task. Where the task goes
to the end of the current slot the wheel meets it once more in the same tick.
-/

namespace GdRpc.Util

open GdRpc.Library

universe u

variable {Callback : Type u}

namespace TimeWheel

theorem slotAhead_eq (wheel : TimeWheel Callback) (positive : 0 < wheel.slotLen)
    {timeout : Int} (nonneg : 0 ≤ timeout) :
    wheel.slotAhead timeout =
      (wheel.currentSlot_ + (timeout.tmod wheel.slotLen).toNat) % wheel.slotLen := by
  have ahead := wheel.schedule_slot nonneg
  rwa [Nat.mod_eq_of_lt (toNat_tmod_lt positive timeout)] at ahead

theorem one_le_rounds (wheel : TimeWheel Callback) (current : wheel.currentSlot_ < wheel.slotLen)
    {timeout : Int} (positive : 1 ≤ timeout)
    (here : wheel.currentSlot_ = wheel.slotAhead timeout) :
    1 ≤ timeout.tdiv wheel.slotLen := by
  have some : 0 < wheel.slotLen := Nat.zero_lt_of_lt current
  have nonneg : 0 ≤ timeout := Int.le_trans (by decide) positive
  have short := toNat_tmod_lt some timeout
  have ahead := @distance_ahead _ _ (timeout.tmod wheel.slotLen).toNat current
  rw [Nat.mod_eq_of_lt short, ← wheel.slotAhead_eq some nonneg, ← here,
    Nat.add_sub_cancel_left, Nat.mod_self] at ahead
  have rest := Int.tmod_nonneg wheel.slotLen nonneg
  have rounds := Int.tdiv_nonneg nonneg (Int.natCast_nonneg wheel.slotLen)
  have whole := Int.tmod_add_tdiv_mul timeout wheel.slotLen
  by_contra none
  have zero : timeout.tdiv wheel.slotLen = 0 := by omega
  rw [zero, Int.zero_mul] at whole
  omega

theorem held_schedule (wheel : TimeWheel Callback) (positive : 0 < wheel.slotLen)
    (slots : wheel.slots_.length = wheel.slotLen) {timeout : Int} (nonneg : 0 ≤ timeout)
    (callback : Callback) (times : Int) :
    (wheel.schedule timeout callback times).held.Perm
      (wheel.tasks.length :: wheel.held) :=
  held_pushBack _ _ (wheel.schedule_slot_lt positive slots nonneg)

@[simp]
theorem held_delTask (wheel : TimeWheel Callback) (task : Nat) :
    (wheel.delTask task).held = wheel.held := by
  rw [wheel.delTask_eq task]
  rfl

theorem not_mem_of_nodup {wheel : TimeWheel Callback} (nodup : wheel.held.Nodup)
    {index other task : Nat} (differs : index ≠ other) (here : task ∈ wheel.slot index) :
    task ∉ wheel.slot other := by
  intro there
  have insideOf : ∀ {place}, task ∈ wheel.slot place → place < wheel.slots_.length := by
    intro place membership
    by_contra outside
    rw [slot, List.getD_eq_default _ _ (Nat.le_of_not_lt outside)] at membership
    cases membership
  have first := insideOf here
  have second := insideOf there
  rw [slot, List.getD_eq_getElem _ _ first] at here
  rw [slot, List.getD_eq_getElem _ _ second] at there
  have apart := (List.nodup_flatten.mp nodup).2
  rcases Nat.lt_or_gt_of_ne differs with before | behind
  · exact List.pairwise_iff_getElem.mp apart index other first second before here there
  · exact List.pairwise_iff_getElem.mp apart other index second first behind there here

theorem slot_nodup {wheel : TimeWheel Callback} (nodup : wheel.held.Nodup) (index : Nat) :
    (wheel.slot index).Nodup := by
  unfold slot
  by_cases inside : index < wheel.slots_.length
  · rw [List.getD_eq_getElem _ _ inside]
    exact (List.nodup_flatten.mp nodup).1 _ (List.getElem_mem inside)
  · rw [List.getD_eq_default _ _ (Nat.le_of_not_lt inside)]
    exact List.nodup_nil

end TimeWheel

namespace WheelRun

/-- The wheel has its shape, and its slots together hold no task twice. -/
structure Sound (run : WheelRun Callback) : Prop where
  shape : NotBefore (fun _ => 0) run
  nodup : run.wheel.held.Nodup

namespace Sound

variable {run : WheelRun Callback}

theorem start (msLen : Nat) (positive : 0 < msLen) :
    Sound (WheelRun.start msLen : WheelRun Callback) := by
  constructor
  · exact .start msLen positive
  · have empty : (WheelRun.start msLen : WheelRun Callback).wheel.held = [] := by
      simp [WheelRun.start, TimeWheel.new, TimeWheel.held]
    rw [empty]
    exact List.nodup_nil

theorem lt_of_held (sound : Sound run) {task : Nat} (held : task ∈ run.wheel.held) :
    task < run.wheel.tasks.length := by
  obtain ⟨index, membership⟩ := run.wheel.mem_held.mp held
  exact sound.shape.bounded index task membership

theorem not_held_new (sound : Sound run) : run.wheel.tasks.length ∉ run.wheel.held :=
  fun held => Nat.lt_irrefl _ (sound.lt_of_held held)

theorem not_running_new (sound : Sound run) (it : Nat) :
    run.phase ≠ .running it run.wheel.tasks.length := by
  intro runs
  have here := (sound.shape.executing it _ runs).1
  exact sound.not_held_new (run.wheel.mem_held.mpr ⟨_, List.mem_of_getElem? here⟩)

/-- The task under the iterator is in no other place, so that the wheel comes
to it now. -/
theorem eq_ticks_of_here (sound : Sound run) {it task tick : Nat}
    (phase : run.phase = .ticking it)
    (here : (run.wheel.slot run.wheel.currentSlot_)[it]? = some task)
    (reaches : run.Reaches task tick) : tick = run.ticks := by
  cases reaches with
  | coming => rfl
  | visited membership =>
      exfalso
      unfold visited at membership
      rw [phase] at membership
      have nodup := TimeWheel.slot_nodup sound.nodup run.wheel.currentSlot_
      obtain ⟨inside, rfl⟩ := List.getElem?_eq_some_iff.mp here
      rw [← List.take_append_drop it (run.wheel.slot run.wheel.currentSlot_),
        List.drop_eq_getElem_cons inside] at nodup
      exact List.disjoint_of_nodup_append nodup membership List.mem_cons_self
  | other index inside differs membership =>
      exact absurd (List.mem_of_getElem? here)
        (TimeWheel.not_mem_of_nodup sound.nodup differs membership)

/-! ## When `exec` has returned -/

theorem slot_reschedule (sound : Sound run) (task : Nat) (content : Task Callback)
    (index : Nat) :
    (run.wheel.reschedule task content).slot index = run.wheel.slot index ++
      if index = run.wheel.slotAhead content.timeout_ then [task] else [] := by
  apply TimeWheel.slot_pushBack
  change _ < run.wheel.slots_.length
  rw [sound.shape.slots]
  exact run.wheel.slotAhead_lt sound.shape.positive content.timeout_

section AfterExec

variable (sound : Sound run) {it task : Nat} (phase : run.phase = .running it task)
include sound phase

theorem found : ∃ content, run.wheel.tasks[task]? = some content := by
  have here := (sound.shape.executing it task phase).1
  have known := sound.shape.bounded _ task (List.mem_of_getElem? here)
  exact ⟨_, List.getElem?_eq_getElem known⟩

theorem here_reschedule (content : Task Callback) :
    ((run.wheel.reschedule task content).slot run.wheel.currentSlot_)[it]? = some task := by
  have here := (sound.shape.executing it task phase).1
  rw [sound.slot_reschedule, List.getElem?_append_left]
  · exact here
  · exact (List.getElem?_eq_some_iff.mp here).1

variable {content : Task Callback}
  (isTask : run.wheel.tasks[task]? = some content)
include isTask

/-- A task that repeats stays where it is as far as all slots together go. -/
theorem held_afterExec_of_repeats (repeats : content.Repeats) :
    (run.wheel.afterExec it task).held.Perm run.wheel.held := by
  rw [TimeWheel.afterExec_of_repeats isTask it repeats]
  have inside : run.wheel.slotAhead content.timeout_ < run.wheel.slots_.length := by
    rw [sound.shape.slots]
    exact run.wheel.slotAhead_lt sound.shape.positive content.timeout_
  have pushed : (run.wheel.reschedule task content).held.Perm (task :: run.wheel.held) :=
    TimeWheel.held_pushBack _ task inside
  have erased := TimeWheel.held_erase _ (sound.here_reschedule phase content)
  exact (erased.symm.trans pushed).cons_inv

theorem held_afterExec_of_not_repeats (single : ¬ content.Repeats) :
    run.wheel.held.Perm (task :: (run.wheel.afterExec it task).held) := by
  rw [TimeWheel.afterExec_of_not_repeats isTask it single]
  exact run.wheel.held_erase (sound.shape.executing it task phase).1

theorem mem_held_afterExec {other : Nat} (differs : other ≠ task) :
    other ∈ (run.wheel.afterExec it task).held ↔ other ∈ run.wheel.held := by
  by_cases repeats : content.Repeats
  · exact (sound.held_afterExec_of_repeats phase isTask repeats).mem_iff
  · rw [(sound.held_afterExec_of_not_repeats phase isTask repeats).mem_iff, List.mem_cons]
    exact (or_iff_right differs).symm

theorem reaches_afterExec {other tick : Nat} (reaches : run.Reaches other tick) :
    Reaches { run with
      wheel := run.wheel.afterExec it task
      phase := .ticking it } other tick := by
  by_cases repeats : content.Repeats
  · rw [TimeWheel.afterExec_of_repeats isTask it repeats]
    have grown := reaches.grown sound.shape.iterator (sound.slot_reschedule task content) rfl rfl
    exact grown.erase phase (sound.here_reschedule phase content)
  · rw [TimeWheel.afterExec_of_not_repeats isTask it repeats]
    exact reaches.erase phase (sound.shape.executing it task phase).1

/-- The task itself is met again after the rest of its timeout by rounds. -/
theorem reaches_again (repeats : content.Repeats) (nonneg : 0 ≤ content.timeout_) :
    Reaches { run with
      wheel := run.wheel.afterExec it task
      phase := .ticking it } task
      (run.ticks + (content.timeout_.tmod run.wheel.slotLen).toNat) := by
  rw [TimeWheel.afterExec_of_repeats isTask it repeats]
  have short := TimeWheel.toNat_tmod_lt sound.shape.positive content.timeout_
  have slots := sound.slot_reschedule task content
  rw [run.wheel.slotAhead_eq sound.shape.positive nonneg] at slots
  have reached := reaches_ahead sound.shape.iterator slots rfl sound.shape.current rfl short
  exact reached.erase phase (sound.here_reschedule phase content)

end AfterExec

theorem afterExec (sound : Sound run) {it task : Nat} (phase : run.phase = .running it task) :
    Sound { run with
      wheel := run.wheel.afterExec it task
      phase := .ticking it } := by
  constructor
  · exact sound.shape.afterExec phase
  · obtain ⟨content, isTask⟩ := sound.found phase
    have nodup := sound.nodup
    by_cases repeats : content.Repeats
    · rwa [(sound.held_afterExec_of_repeats phase isTask repeats).nodup_iff]
    · rw [(sound.held_afterExec_of_not_repeats phase isTask repeats).nodup_iff,
        List.nodup_cons] at nodup
      exact nodup.2

/-! ## The steps -/

theorem schedule (sound : Sound run) {timeout : Int} (nonneg : 0 ≤ timeout)
    (callback : Callback) (times : Int) :
    Sound { run with wheel := run.wheel.schedule timeout callback times } := by
  constructor
  · exact sound.shape.addTask nonneg times (Nat.zero_le _)
  · rw [(run.wheel.held_schedule sound.shape.positive sound.shape.slots nonneg callback
      times).nodup_iff, List.nodup_cons]
    exact ⟨sound.not_held_new, sound.nodup⟩

theorem delTask (sound : Sound run) (task : Nat) :
    Sound { run with wheel := run.wheel.delTask task } := by
  constructor
  · exact sound.shape.delTask task
  · rw [TimeWheel.held_delTask]
    exact sound.nodup

theorem record (sound : Sound run) (ran : List (Ran Callback)) :
    Sound { run with ran := ran } :=
  ⟨sound.shape.record ran, sound.nodup⟩

theorem beginTick (sound : Sound run) (idle : run.phase = .idle) :
    Sound { run with phase := .ticking 0 } :=
  ⟨sound.shape.beginTick idle, sound.nodup⟩

theorem enter (sound : Sound run) {it task : Nat} (phase : run.phase = .ticking it)
    (here : (run.wheel.slot run.wheel.currentSlot_)[it]? = some task) :
    Sound { run with phase := .running it task } := by
  constructor
  · apply sound.shape.enter phase here
    exact fun _ _ _ _ => Nat.zero_le _
  · exact sound.nodup

theorem decreaseRotations (sound : Sound run) {it task : Nat} {content : Task Callback}
    (phase : run.phase = .ticking it)
    (here : (run.wheel.slot run.wheel.currentSlot_)[it]? = some task)
    (found : run.wheel.tasks[task]? = some content) (rotates : 0 < content.rotations_) :
    Sound { run with
      wheel := run.wheel.modifyTask task fun content =>
        { content with rotations_ := content.rotations_ - 1 }
      phase := .ticking (it + 1) } :=
  ⟨sound.shape.decreaseRotations phase here found rotates, sound.nodup⟩

theorem turn (sound : Sound run) {it : Nat} (phase : run.phase = .ticking it)
    (exhausted : (run.wheel.slot run.wheel.currentSlot_).length ≤ it) :
    Sound { run with
      wheel := { run.wheel with
        currentSlot_ := (run.wheel.currentSlot_ + 1) % run.wheel.slotLen }
      phase := .idle
      ticks := run.ticks + 1 } :=
  ⟨sound.shape.turn phase exhausted, sound.nodup⟩

theorem at_iterator (sound : Sound run) {it : Nat}
    (inside : it < (run.wheel.slot run.wheel.currentSlot_).length) :
    ∃ task content, (run.wheel.slot run.wheel.currentSlot_)[it]? = some task ∧
      run.wheel.tasks[task]? = some content := by
  have known := sound.shape.bounded _ _ (List.getElem_mem inside)
  exact ⟨_, _, List.getElem?_eq_getElem inside, List.getElem?_eq_getElem known⟩

theorem visit (sound : Sound run) {it : Nat} (phase : run.phase = .ticking it)
    (inside : it < (run.wheel.slot run.wheel.currentSlot_).length) :
    Sound (run.visit it) := by
  obtain ⟨task, content, here, found⟩ := sound.at_iterator inside
  by_cases rotates : 0 < content.rotations_
  · rw [visit_of_rotates here found rotates]
    exact sound.decreaseRotations phase here found rotates
  · have entered := sound.enter phase here
    cases callable : content.fun_ with
    | some callback =>
        rw [visit_of_callback here found rotates callable]
        exact entered.record _
    | none =>
        rw [visit_of_removed here found rotates callable]
        have finished := entered.afterExec rfl
        rwa [← phase] at finished

/-- The step lemma. -/
theorem next (sound : Sound run) {event : Event Callback} (enabled : run.Enabled event) :
    Sound (run.next event) := by
  cases event with
  | addTask timeout callback times =>
      change Sound (run.addTask timeout callback times)
      unfold WheelRun.addTask
      split
      next => exact sound.record _
      next notNegative => exact sound.schedule (Int.not_lt.mp notNegative) callback times
  | delTask task => exact sound.delTask task
  | beginTick => exact sound.beginTick enabled
  | visit =>
      obtain ⟨it, phase, inside⟩ := enabled.exists
      simpa [WheelRun.next, phase] using sound.visit phase inside
  | finish =>
      obtain ⟨it, task, phase⟩ := enabled.exists
      simpa [WheelRun.next, phase] using sound.afterExec phase
  | endTick =>
      obtain ⟨it, phase, exhausted⟩ := enabled.exists
      exact sound.turn phase exhausted

end Sound

/-! ## The other tasks -/

/-- What a step leaves to a task that it does not deal with. -/
structure Frame (run after : WheelRun Callback) (task : Nat) : Prop where
  slotLen : after.wheel.slotLen = run.wheel.slotLen
  held : task ∈ after.wheel.held → task ∈ run.wheel.held
  phase : ∀ it, after.phase = .running it task ↔ run.phase = .running it task
  ticks : ∀ it, run.phase = .running it task → after.ticks = run.ticks
  reaches : ∀ tick, run.Reaches task tick → after.Reaches task tick

section Frame

variable {run : WheelRun Callback}

theorem frame_record (run : WheelRun Callback) (ran : List (Ran Callback)) (task : Nat) :
    Frame run { run with ran := ran } task := by
  refine ⟨rfl, id, fun _ => Iff.rfl, fun _ _ => rfl, ?_⟩
  intro tick reaches
  exact reaches.mono rfl rfl rfl (fun _ _ => id) id id

theorem frame_delTask (run : WheelRun Callback) (removed task : Nat) :
    Frame run { run with wheel := run.wheel.delTask removed } task := by
  refine ⟨?_, ?_, fun _ => Iff.rfl, fun _ _ => rfl, ?_⟩
  · change (run.wheel.delTask removed).slotLen = _
    rw [run.wheel.delTask_eq removed]
  · change task ∈ (run.wheel.delTask removed).held → _
    rw [TimeWheel.held_delTask]
    exact id
  · intro tick reaches
    rw [run.wheel.delTask_eq removed]
    exact reaches.mono rfl rfl rfl (fun _ _ => id) id id

theorem frame_beginTick (idle : run.phase = .idle) (task : Nat) :
    Frame run { run with phase := .ticking 0 } task := by
  refine ⟨rfl, id, ?_, fun _ _ => rfl, ?_⟩
  · simp [idle]
  · intro tick reaches
    exact reaches.beginTick idle

theorem Sound.frame_schedule (sound : run.Sound) {timeout : Int} (nonneg : 0 ≤ timeout)
    (callback : Callback) (times : Int) {task : Nat} (old : task < run.wheel.tasks.length) :
    Frame run { run with wheel := run.wheel.schedule timeout callback times } task := by
  have held := run.wheel.held_schedule sound.shape.positive sound.shape.slots nonneg callback
    times
  refine ⟨rfl, ?_, fun _ => Iff.rfl, fun _ _ => rfl, ?_⟩
  · intro isHeld
    rcases List.mem_cons.mp (held.mem_iff.mp isHeld) with rfl | before
    · exact absurd old (Nat.lt_irrefl _)
    · exact before
  · intro tick reaches
    exact reaches.schedule sound.shape nonneg callback times

section Iterator

variable {it : Nat} (phase : run.phase = .ticking it)
include phase

theorem Sound.frame_turn (sound : run.Sound)
    (exhausted : (run.wheel.slot run.wheel.currentSlot_).length ≤ it) (task : Nat) :
    Frame run { run with
      wheel := { run.wheel with
        currentSlot_ := (run.wheel.currentSlot_ + 1) % run.wheel.slotLen }
      phase := .idle
      ticks := run.ticks + 1 } task := by
  refine ⟨rfl, id, ?_, ?_, ?_⟩
  · simp [phase]
  · intro position runs
    rw [phase] at runs
    cases runs
  · intro tick reaches
    exact reaches.turn sound.shape.current phase exhausted

variable {task other : Nat} (here : (run.wheel.slot run.wheel.currentSlot_)[it]? = some task)
  (differs : other ≠ task)
include here differs

theorem frame_passOver (change : Task Callback → Task Callback) :
    Frame run { run with
      wheel := run.wheel.modifyTask task change
      phase := .ticking (it + 1) } other := by
  refine ⟨rfl, id, ?_, fun _ _ => rfl, ?_⟩
  · simp [phase]
  · intro tick reaches
    exact reaches.passOver phase here differs change

theorem frame_enter : Frame run { run with phase := .running it task } other := by
  refine ⟨rfl, id, ?_, fun _ _ => rfl, ?_⟩
  · simp [phase, Ne.symm differs]
  · intro tick reaches
    exact reaches.enter phase here differs

end Iterator

theorem Sound.frame_afterExec (sound : run.Sound) {it task other : Nat}
    (phase : run.phase = .running it task) {content : Task Callback}
    (isTask : run.wheel.tasks[task]? = some content) (differs : other ≠ task) :
    Frame run { run with
      wheel := run.wheel.afterExec it task
      phase := .ticking it } other := by
  refine ⟨?_, (sound.mem_held_afterExec phase isTask differs).mp, ?_, fun _ _ => rfl, ?_⟩
  · exact TimeWheel.afterExec_slotLen isTask it
  · simp [phase, Ne.symm differs]
  · intro tick reaches
    exact sound.reaches_afterExec phase isTask reaches

end Frame

/-- The runs in which anything is added, with any memory for `times_`. -/
def freeSystem (slotLen : Nat) : System (WheelRun Callback) (Event Callback) where
  initial run := run = start slotLen
  step run event after := run.Enabled event ∧ after = run.next event

theorem Sound.of_execution {slotLen : Nat} (positive : 0 < slotLen)
    {events : List (Event Callback)} {run : WheelRun Callback}
    (execution : (freeSystem slotLen).Execution events run) : run.Sound := by
  apply execution.invariant Sound
  · rintro _ rfl
    exact .start slotLen positive
  · rintro run event _ sound ⟨enabled, rfl⟩
    exact sound.next enabled

end WheelRun

end GdRpc.Util
