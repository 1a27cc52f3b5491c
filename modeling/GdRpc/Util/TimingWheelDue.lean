import GdRpc.Util.TimingWheelAlignment

/-!
# No task before its tick

For any contents of the uninitialised `times_` a task may come back into the
wheel, several times over. Until it has run once, though, a single slot refers
to it, and the slot, the rotations left and the current slot put a lower bound
on the tick in which it runs first.
-/

namespace GdRpc.Util

open GdRpc.Library

universe u

variable {Callback : Type u}

namespace TimeWheel

/-- How many ticks the wheel keeps a task with this timeout back. -/
def delay (slotLen : Nat) (timeout : Int) : Nat :=
  (timeout.tmod slotLen).toNat + (toInt (timeout.tdiv slotLen)).toNat * slotLen

theorem toNat_tmod_lt {slotLen : Nat} (positive : 0 < slotLen) (timeout : Int) :
    (timeout.tmod slotLen).toNat < slotLen := by
  have below := Int.tmod_lt_of_pos timeout (Int.natCast_pos.mpr positive)
  omega

theorem schedule_slot (wheel : TimeWheel Callback) {timeout : Int}
    (nonneg : 0 ≤ timeout) :
    ((wheel.currentSlot_ + timeout.tmod wheel.slotLen).tmod wheel.slotLen).toNat =
      (wheel.currentSlot_ + (timeout.tmod wheel.slotLen).toNat % wheel.slotLen) %
        wheel.slotLen := by
  lift timeout to Nat using nonneg
  rw [Int.tmod_eq_emod_of_nonneg (Int.natCast_nonneg _), ← Int.natCast_emod,
    ← Int.natCast_add, Int.tmod_eq_emod_of_nonneg (Int.natCast_nonneg _),
    ← Int.natCast_emod, Int.toNat_natCast, Int.toNat_natCast, Nat.mod_mod]

theorem schedule_slot_lt (wheel : TimeWheel Callback) (positive : 0 < wheel.slotLen)
    (slots : wheel.slots_.length = wheel.slotLen) {timeout : Int} (nonneg : 0 ≤ timeout) :
    ((wheel.currentSlot_ + timeout.tmod wheel.slotLen).tmod wheel.slotLen).toNat <
      wheel.slots_.length := by
  rw [slots, wheel.schedule_slot nonneg]
  exact Nat.mod_lt _ positive

theorem slot_schedule (wheel : TimeWheel Callback) (positive : 0 < wheel.slotLen)
    (slots : wheel.slots_.length = wheel.slotLen) {timeout : Int} (nonneg : 0 ≤ timeout)
    (callback : Callback) (times : Int) (index : Nat) :
    (wheel.schedule timeout callback times).slot index =
      wheel.slot index ++ if index = (wheel.currentSlot_ +
        (timeout.tmod wheel.slotLen).toNat % wheel.slotLen) % wheel.slotLen
        then [wheel.tasks.length] else [] := by
  rw [← wheel.schedule_slot nonneg]
  exact slot_pushBack _ (wheel.schedule_slot_lt positive slots nonneg)

theorem delay_le (slotLen : Nat) {timeout : Int} (nonneg : 0 ≤ timeout) :
    (delay slotLen timeout : Int) ≤ timeout := by
  have rounds : ((toInt (timeout.tdiv slotLen)).toNat : Int) ≤ timeout.tdiv slotLen := by
    have quotient := Int.tdiv_nonneg nonneg (Int.natCast_nonneg slotLen)
    have kept := toInt_le_self quotient
    omega
  have product := Int.mul_le_mul_of_nonneg_right rounds (Int.natCast_nonneg slotLen)
  have whole := Int.tmod_add_tdiv_mul timeout slotLen
  have rest := Int.tmod_nonneg slotLen nonneg
  unfold delay
  push_cast
  rw [Int.toNat_of_nonneg rest]
  omega

/-- The callbacks of the tasks made so far that have not been removed. -/
def callbacks (wheel : TimeWheel Callback) : List Callback :=
  wheel.tasks.filterMap Task.fun_

theorem mem_callbacks_modifyTask (wheel : TimeWheel Callback) {task : Nat}
    {change : Task Callback → Task Callback} {callback : Callback}
    (keeps : ∀ content, wheel.tasks[task]? = some content →
      (change content).fun_ = some callback → content.fun_ = some callback)
    (membership : callback ∈ (wheel.modifyTask task change).callbacks) :
    callback ∈ wheel.callbacks := by
  obtain ⟨content, isTask, callable⟩ := List.mem_filterMap.mp membership
  obtain ⟨index, found⟩ := List.mem_iff_getElem?.mp isTask
  unfold modifyTask at found
  rw [List.getElem?_modify] at found
  obtain ⟨before, wasFound, rfl⟩ := Option.map_eq_some_iff.mp found
  refine List.mem_filterMap.mpr ⟨before, List.mem_of_getElem? wasFound, ?_⟩
  split at callable
  next same =>
    subst same
    exact keeps before wasFound callable
  next => exact callable

theorem mem_callbacks_delTask (wheel : TimeWheel Callback) {task : Nat}
    {callback : Callback} (membership : callback ∈ (wheel.delTask task).callbacks) :
    callback ∈ wheel.callbacks := by
  unfold delTask at membership
  split at membership
  next =>
    refine wheel.mem_callbacks_modifyTask ?_ membership
    intro content _ callable
    cases callable
  next => exact membership

theorem mem_callbacks_afterExec (wheel : TimeWheel Callback) {it task : Nat}
    {callback : Callback} (membership : callback ∈ (wheel.afterExec it task).callbacks) :
    callback ∈ wheel.callbacks := by
  unfold afterExec at membership
  split at membership
  next => exact membership
  next content found =>
    split at membership
    next =>
      refine wheel.mem_callbacks_modifyTask ?_ membership
      intro before wasFound callable
      rw [found] at wasFound
      cases wasFound
      exact callable
    next => exact membership

end TimeWheel

namespace WheelRun

/-- Callbacks enter the wheel through `addTask` only. -/
theorem mem_callbacks_next (run : WheelRun Callback) {event : Event Callback}
    {callback : Callback} (membership : callback ∈ (run.next event).wheel.callbacks) :
    callback ∈ run.wheel.callbacks ∨
      ∃ timeout times, event = .addTask timeout callback times ∧ 0 ≤ timeout := by
  cases event with
  | addTask timeout added times =>
      change callback ∈ (run.addTask timeout added times).wheel.callbacks at membership
      unfold WheelRun.addTask at membership
      split at membership
      next => exact .inl membership
      next notNegative =>
        obtain ⟨content, isTask, callable⟩ := List.mem_filterMap.mp membership
        rcases List.mem_append.mp isTask with before | new
        · exact .inl (List.mem_filterMap.mpr ⟨content, before, callable⟩)
        · rw [List.mem_singleton.mp new] at callable
          cases callable
          exact .inr ⟨timeout, times, rfl, Int.not_lt.mp notNegative⟩
  | delTask task => exact .inl (run.wheel.mem_callbacks_delTask membership)
  | beginTick => exact .inl membership
  | visit =>
      left
      simp only [next] at membership
      split at membership
      next it _ =>
        unfold WheelRun.visit at membership
        dsimp only at membership
        split at membership
        · exact membership
        · split at membership
          · exact membership
          · split at membership
            · refine run.wheel.mem_callbacks_modifyTask ?_ membership
              intro _ _ callable
              exact callable
            · split at membership
              · exact membership
              · exact run.wheel.mem_callbacks_afterExec membership
      next => exact membership
  | finish =>
      left
      simp only [next] at membership
      split at membership
      · exact run.wheel.mem_callbacks_afterExec membership
      · exact membership
  | endTick => exact .inl membership

@[simp]
theorem slotLen_visit (run : WheelRun Callback) (it : Nat) :
    (run.visit it).wheel.slotLen = run.wheel.slotLen := by
  unfold visit TimeWheel.afterExec
  dsimp only
  repeat' split
  all_goals rfl

@[simp]
theorem ticks_visit (run : WheelRun Callback) (it : Nat) :
    (run.visit it).ticks = run.ticks := by
  unfold visit
  dsimp only
  repeat' split
  all_goals rfl

theorem slotLen_next (run : WheelRun Callback) (event : Event Callback) :
    (run.next event).wheel.slotLen = run.wheel.slotLen := by
  cases event with
  | addTask timeout callback times =>
      simp only [next, addTask]
      split <;> rfl
  | delTask task =>
      simp only [next, TimeWheel.delTask]
      split <;> rfl
  | beginTick | endTick => rfl
  | visit =>
      simp only [next]
      split <;> simp
  | finish =>
      simp only [next, TimeWheel.afterExec]
      repeat' split
      all_goals rfl

theorem ticks_next (run : WheelRun Callback) {event : Event Callback}
    (running : event ≠ .endTick) : (run.next event).ticks = run.ticks := by
  cases event with
  | addTask timeout callback times =>
      simp only [next, addTask]
      split <;> rfl
  | delTask | beginTick => rfl
  | visit =>
      simp only [next]
      split <;> simp
  | finish =>
      simp only [next]
      split <;> rfl
  | endTick => exact absurd rfl running

/-- The part of the current slot visited in the tick under way. -/
def visited (run : WheelRun Callback) : List Nat :=
  (run.wheel.slot run.wheel.currentSlot_).take run.phase.visited

/-- The part of the current slot still to be visited. -/
def coming (run : WheelRun Callback) : List Nat :=
  (run.wheel.slot run.wheel.currentSlot_).drop run.phase.coming

theorem visited_le_coming (phase : WheelPhase) : phase.visited ≤ phase.coming := by
  cases phase with
  | idle | ticking => exact Nat.le_refl _
  | running it task => exact Nat.le_succ it

theorem coming_append {run : WheelRun Callback} {wheel : TimeWheel Callback}
    {more : List Nat}
    (appended : wheel.slot run.wheel.currentSlot_ =
      run.wheel.slot run.wheel.currentSlot_ ++ more)
    (current : wheel.currentSlot_ = run.wheel.currentSlot_)
    (iterator : run.phase.coming ≤ (run.wheel.slot run.wheel.currentSlot_).length) :
    coming { run with wheel := wheel } = run.coming ++ more := by
  unfold coming
  rw [current, appended, List.drop_append_of_le_length iterator]

theorem visited_append {run : WheelRun Callback} {wheel : TimeWheel Callback}
    {more : List Nat}
    (appended : wheel.slot run.wheel.currentSlot_ =
      run.wheel.slot run.wheel.currentSlot_ ++ more)
    (current : wheel.currentSlot_ = run.wheel.currentSlot_)
    (iterator : run.phase.coming ≤ (run.wheel.slot run.wheel.currentSlot_).length) :
    visited { run with wheel := wheel } = run.visited := by
  unfold visited
  rw [current, appended, List.take_append_of_le_length
    (Nat.le_trans (visited_le_coming run.phase) iterator)]

theorem coming_erase {run : WheelRun Callback} {it task : Nat}
    (phase : run.phase = .running it task)
    (inside : it < (run.wheel.slot run.wheel.currentSlot_).length) :
    coming { run with wheel := run.wheel.erase it, phase := .ticking it } = run.coming := by
  unfold coming
  rw [phase]
  exact TimeWheel.drop_slot_erase inside

theorem visited_erase {run : WheelRun Callback} {it task : Nat}
    (phase : run.phase = .running it task)
    (inside : it < (run.wheel.slot run.wheel.currentSlot_).length) :
    visited { run with wheel := run.wheel.erase it, phase := .ticking it } =
      run.visited := by
  unfold visited
  rw [phase]
  exact TimeWheel.take_slot_erase inside

/-- One slot at most refers to the task, once, and the next visit of the slot
is so late that with the rotations left the task does not run before `due`. -/
structure Waits (run : WheelRun Callback) (task : Nat) (rotations : Int)
    (due : Nat) : Prop where
  once : ∀ index, (run.wheel.slot index).count task ≤ 1
  single : ∀ index other, task ∈ run.wheel.slot index →
    task ∈ run.wheel.slot other → index = other
  others : ∀ index < run.wheel.slotLen, index ≠ run.wheel.currentSlot_ →
    task ∈ run.wheel.slot index →
    due ≤ run.ticks +
      (index + run.wheel.slotLen - run.wheel.currentSlot_) % run.wheel.slotLen +
      rotations.toNat * run.wheel.slotLen
  visited : task ∈ run.visited →
    due ≤ run.ticks + run.wheel.slotLen + rotations.toNat * run.wheel.slotLen
  coming : task ∈ run.coming →
    due ≤ run.ticks + rotations.toNat * run.wheel.slotLen

theorem Waits.mono {run after : WheelRun Callback} {task due : Nat} {rotations : Int}
    (waits : run.Waits task rotations due) (ticks : after.ticks = run.ticks)
    (slotLen : after.wheel.slotLen = run.wheel.slotLen)
    (current : after.wheel.currentSlot_ = run.wheel.currentSlot_)
    (fewer : ∀ index, (after.wheel.slot index).count task ≤
      (run.wheel.slot index).count task)
    (visited : task ∈ after.visited → task ∈ run.visited)
    (coming : task ∈ after.coming → task ∈ run.coming) :
    after.Waits task rotations due := by
  have present : ∀ index, task ∈ after.wheel.slot index →
      task ∈ run.wheel.slot index := by
    intro index membership
    rw [← List.count_pos_iff] at membership ⊢
    exact Nat.lt_of_lt_of_le membership (fewer index)
  constructor
  · intro index
    exact Nat.le_trans (fewer index) (waits.once index)
  · intro index other first second
    exact waits.single index other (present index first) (present other second)
  · rw [ticks, slotLen, current]
    intro index inside differs membership
    exact waits.others index inside differs (present index membership)
  · rw [ticks, slotLen]
    intro membership
    exact waits.visited (visited membership)
  · rw [ticks, slotLen]
    intro membership
    exact waits.coming (coming membership)

/-- The task has reached its tick, or it has no callback any more. -/
def Settled (due : Callback → Nat) (run : WheelRun Callback) (task : Nat) : Prop :=
  ∀ content callback, run.wheel.tasks[task]? = some content →
    content.fun_ = some callback → due callback ≤ run.ticks

/-- No callback of a task still in the wheel runs before its `due` tick. -/
structure NotBefore (due : Callback → Nat) (run : WheelRun Callback) : Prop where
  positive : 0 < run.wheel.slotLen
  slots : run.wheel.slots_.length = run.wheel.slotLen
  current : run.wheel.currentSlot_ < run.wheel.slotLen
  iterator : run.phase.coming ≤ (run.wheel.slot run.wheel.currentSlot_).length
  bounded : ∀ index, ∀ task ∈ run.wheel.slot index, task < run.wheel.tasks.length
  waits : ∀ task content callback, run.wheel.tasks[task]? = some content →
    content.fun_ = some callback → run.ticks < due callback →
    run.Waits task content.rotations_ (due callback)
  executing : ∀ it task, run.phase = .running it task →
    (run.wheel.slot run.wheel.currentSlot_)[it]? = some task ∧
    run.Settled due task

namespace NotBefore

variable {due : Callback → Nat} {run : WheelRun Callback}

theorem start (slotLen : Nat) (positive : 0 < slotLen) :
    NotBefore due (WheelRun.start slotLen : WheelRun Callback) := by
  constructor
  · exact positive
  · exact List.length_replicate
  · exact positive
  · exact Nat.zero_le _
  · intro index task membership
    simp [WheelRun.start] at membership
  · intro task content callback found
    simp [WheelRun.start, TimeWheel.new] at found
  · intro it task runs
    cases runs

theorem waits_scheduled (invariant : NotBefore due run) {wheel : TimeWheel Callback}
    {timeout : Int} {limit : Nat}
    (bound : limit ≤ run.ticks + TimeWheel.delay run.wheel.slotLen timeout)
    (slotLen : wheel.slotLen = run.wheel.slotLen)
    (current : wheel.currentSlot_ = run.wheel.currentSlot_)
    (slots : ∀ index, wheel.slot index = run.wheel.slot index ++
      if index = (run.wheel.currentSlot_ +
        (timeout.tmod run.wheel.slotLen).toNat % run.wheel.slotLen) %
          run.wheel.slotLen then [run.wheel.tasks.length] else []) :
    Waits { run with wheel := wheel } run.wheel.tasks.length
      (toInt (timeout.tdiv run.wheel.slotLen)) limit := by
  have absent : ∀ index, run.wheel.tasks.length ∉ run.wheel.slot index := by
    intro index membership
    exact Nat.lt_irrefl _ (invariant.bounded index _ membership)
  have located : ∀ index, run.wheel.tasks.length ∈ wheel.slot index →
      index = (run.wheel.currentSlot_ +
        (timeout.tmod run.wheel.slotLen).toNat % run.wheel.slotLen) %
          run.wheel.slotLen := by
    intro index membership
    rw [slots, List.mem_append] at membership
    rcases membership with before | new
    · exact absurd before (absent index)
    · by_contra elsewhere
      rw [if_neg elsewhere] at new
      cases new
  have short := TimeWheel.toNat_tmod_lt invariant.positive timeout
  have ahead := @distance_ahead _ _ (timeout.tmod run.wheel.slotLen).toNat invariant.current
  rw [Nat.mod_eq_of_lt short] at ahead located
  unfold TimeWheel.delay at bound
  constructor
  · intro index
    rw [slots, List.count_append, List.count_eq_zero.mpr (absent index)]
    split <;> simp
  · intro index other first second
    rw [located index first, located other second]
  · dsimp only
    rw [slotLen, current]
    intro index _ _ membership
    rw [located index membership, ahead]
    omega
  · rw [visited_append (slots _) current invariant.iterator]
    intro membership
    exact absurd (List.mem_of_mem_take membership) (absent _)
  · intro membership
    have here := located _ (List.mem_of_mem_drop membership)
    dsimp only at here ⊢
    rw [← here, current, Nat.add_sub_cancel_left, Nat.mod_self] at ahead
    rw [slotLen]
    omega

theorem addTask (invariant : NotBefore due run) {timeout : Int} (nonneg : 0 ≤ timeout)
    {callback : Callback} (times : Int)
    (bound : due callback ≤ run.ticks + TimeWheel.delay run.wheel.slotLen timeout) :
    NotBefore due { run with wheel := run.wheel.schedule timeout callback times } := by
  have inside := run.wheel.schedule_slot_lt invariant.positive invariant.slots nonneg
  have slots := run.wheel.slot_schedule invariant.positive invariant.slots nonneg
    callback times
  have size : (run.wheel.schedule timeout callback times).tasks =
      run.wheel.tasks ++ [{
        rotations_ := toInt (timeout.tdiv run.wheel.slotLen)
        timeout_ := toInt timeout
        times_ := times
        fun_ := some callback }] := rfl
  constructor
  · exact invariant.positive
  · simpa [TimeWheel.schedule, TimeWheel.pushBack] using invariant.slots
  · exact invariant.current
  · change run.phase.coming ≤ (TimeWheel.slot _ run.wheel.currentSlot_).length
    rw [slots, List.length_append]
    exact Nat.le_add_right_of_le invariant.iterator
  · intro index task membership
    exact run.wheel.lt_of_mem_pushBack _ inside invariant.bounded membership
  · intro task content other found callable later
    rw [size] at found
    rcases Nat.lt_or_ge task run.wheel.tasks.length with old | new
    · rw [List.getElem?_append_left old] at found
      have differs := Nat.ne_of_lt old
      have absent : ∀ index, task ∉ (if index = (run.wheel.currentSlot_ +
          (timeout.tmod run.wheel.slotLen).toNat % run.wheel.slotLen) %
            run.wheel.slotLen then [run.wheel.tasks.length] else []) := by
        intro index
        split <;> simp [differs]
      refine (invariant.waits task content other found callable later).mono
        rfl rfl rfl ?_ ?_ ?_
      · intro index
        rw [slots, List.count_append, List.count_eq_zero.mpr (absent index)]
        exact Nat.le_refl _
      · rw [visited_append (slots _) rfl invariant.iterator]
        exact id
      · rw [coming_append (slots _) rfl invariant.iterator, List.mem_append]
        intro membership
        exact membership.resolve_right (absent _)
    · have bounded := (List.getElem?_eq_some_iff.mp found).1
      rw [List.length_append, List.length_singleton] at bounded
      obtain rfl : task = run.wheel.tasks.length := by omega
      rw [List.getElem?_concat_length] at found
      cases found
      cases callable
      exact invariant.waits_scheduled bound rfl rfl slots
  · intro it task runs
    obtain ⟨here, past⟩ := invariant.executing it task runs
    have inside := (List.getElem?_eq_some_iff.mp here).1
    refine ⟨?_, ?_⟩
    · change (TimeWheel.slot _ run.wheel.currentSlot_)[it]? = some task
      rwa [slots, List.getElem?_append_left inside]
    · intro content other found
      rw [size, List.getElem?_append_left
        (invariant.bounded _ task (List.mem_of_getElem? here))] at found
      exact past content other found

theorem edit (invariant : NotBefore due run) {tasks : List (Task Callback)}
    (size : tasks.length = run.wheel.tasks.length)
    (kept : ∀ (task : Nat) (content : Task Callback) (callback : Callback),
      tasks[task]? = some content → content.fun_ = some callback →
      run.ticks < due callback →
      ∃ before, run.wheel.tasks[task]? = some before ∧
        before.fun_ = some callback ∧ before.rotations_ = content.rotations_) :
    NotBefore due { run with wheel := { run.wheel with tasks := tasks } } := by
  constructor
  · exact invariant.positive
  · exact invariant.slots
  · exact invariant.current
  · exact invariant.iterator
  · intro index task membership
    exact Nat.lt_of_lt_of_eq (invariant.bounded index task membership) size.symm
  · intro task content callback found callable later
    obtain ⟨before, wasFound, wasCallable, same⟩ :=
      kept task content callback found callable later
    rw [← same]
    exact (invariant.waits task before callback wasFound wasCallable later).mono
      rfl rfl rfl (fun _ => Nat.le_refl _) id id
  · intro it task runs
    obtain ⟨here, settled⟩ := invariant.executing it task runs
    refine ⟨here, ?_⟩
    intro content callback found callable
    by_contra late
    obtain ⟨before, wasFound, wasCallable, _⟩ :=
      kept task content callback found callable (Nat.lt_of_not_le late)
    exact late (settled before callback wasFound wasCallable)

theorem record (invariant : NotBefore due run) (ran : List (Ran Callback)) :
    NotBefore due { run with ran := ran } := by
  constructor
  · exact invariant.positive
  · exact invariant.slots
  · exact invariant.current
  · exact invariant.iterator
  · exact invariant.bounded
  · intro task content callback found callable later
    exact (invariant.waits task content callback found callable later).mono
      rfl rfl rfl (fun _ => Nat.le_refl _) id id
  · exact invariant.executing

theorem delTask (invariant : NotBefore due run) (task : Nat) :
    NotBefore due { run with wheel := run.wheel.delTask task } := by
  unfold TimeWheel.delTask
  split
  next alive =>
    apply invariant.edit
    · exact List.length_modify ..
    · intro other content callback found callable _
      rw [List.getElem?_modify] at found
      split at found
      next =>
        obtain ⟨before, _, rfl⟩ := Option.map_eq_some_iff.mp found
        cases callable
      next => exact ⟨content, by simpa using found, callable, rfl⟩
  next expired => exact invariant

theorem beginTick (invariant : NotBefore due run) (idle : run.phase = .idle) :
    NotBefore due { run with phase := .ticking 0 } := by
  constructor
  · exact invariant.positive
  · exact invariant.slots
  · exact invariant.current
  · exact Nat.zero_le _
  · exact invariant.bounded
  · intro task content callback found callable later
    refine (invariant.waits task content callback found callable later).mono
      rfl rfl rfl (fun _ => Nat.le_refl _) ?_ ?_
    · unfold visited
      rw [idle]
      exact id
    · unfold coming
      rw [idle]
      exact id
  · intro it task runs
    cases runs

/-- The task under the iterator has reached its tick, or it waits for the next
round at least. -/
theorem settled_of_reached (invariant : NotBefore due run) {it task : Nat}
    {content : Task Callback} (phase : run.phase = .ticking it)
    (here : (run.wheel.slot run.wheel.currentSlot_)[it]? = some task)
    (found : run.wheel.tasks[task]? = some content)
    (reached : ¬ 0 < content.rotations_) : run.Settled due task := by
  intro content' callback found' callable
  obtain rfl : content = content' := Option.some.inj (found.symm.trans found')
  by_contra late
  have waits := invariant.waits task content callback found callable
    (Nat.lt_of_not_le late)
  have isComing : task ∈ run.coming := by
    unfold coming
    rw [phase]
    obtain ⟨inside, rfl⟩ := List.getElem?_eq_some_iff.mp here
    exact List.mem_drop_iff_getElem.mpr ⟨0, by simpa [WheelPhase.coming] using inside,
      by simp [WheelPhase.coming]⟩
  have limit := waits.coming isComing
  have none : content.rotations_.toNat = 0 := by omega
  rw [none, Nat.zero_mul] at limit
  exact late limit

theorem enter (invariant : NotBefore due run) {it task : Nat}
    (phase : run.phase = .ticking it)
    (here : (run.wheel.slot run.wheel.currentSlot_)[it]? = some task)
    (settled : run.Settled due task) :
    NotBefore due { run with phase := .running it task } := by
  constructor
  · exact invariant.positive
  · exact invariant.slots
  · exact invariant.current
  · exact (List.getElem?_eq_some_iff.mp here).1
  · exact invariant.bounded
  · intro other content callback found callable later
    refine (invariant.waits other content callback found callable later).mono
      rfl rfl rfl (fun _ => Nat.le_refl _) ?_ ?_
    · unfold visited
      rw [phase]
      exact id
    · unfold coming
      rw [phase]
      intro membership
      exact List.drop_subset_drop_left _ (Nat.le_succ it) membership
  · intro it' task' runs
    cases runs
    exact ⟨here, settled⟩

theorem pushBack (invariant : NotBefore due run) {index task : Nat}
    (inside : index < run.wheel.slotLen) (known : task < run.wheel.tasks.length)
    (settled : run.Settled due task) :
    NotBefore due { run with wheel := run.wheel.pushBack index task } := by
  have slots : ∀ other, (run.wheel.pushBack index task).slot other =
      run.wheel.slot other ++ if other = index then [task] else [] := by
    intro other
    apply TimeWheel.slot_pushBack
    rwa [invariant.slots]
  constructor
  · exact invariant.positive
  · simpa [TimeWheel.pushBack] using invariant.slots
  · exact invariant.current
  · change run.phase.coming ≤ (TimeWheel.slot _ run.wheel.currentSlot_).length
    rw [slots, List.length_append]
    exact Nat.le_add_right_of_le invariant.iterator
  · intro other member membership
    rw [slots, List.mem_append] at membership
    rcases membership with before | again
    · exact invariant.bounded other member before
    · split at again
      · rw [List.mem_singleton.mp again]
        exact known
      · cases again
  · intro other content callback found callable later
    have differs : other ≠ task := by
      rintro rfl
      exact Nat.not_le_of_lt later (settled content callback found callable)
    have absent : ∀ slot, other ∉ (if slot = index then [task] else []) := by
      intro slot
      split <;> simp [differs]
    refine (invariant.waits other content callback found callable later).mono
      rfl rfl rfl ?_ ?_ ?_
    · intro slot
      rw [slots, List.count_append, List.count_eq_zero.mpr (absent slot)]
      exact Nat.le_refl _
    · rw [visited_append (slots _) rfl invariant.iterator]
      exact id
    · rw [coming_append (slots _) rfl invariant.iterator, List.mem_append]
      intro membership
      exact membership.resolve_right (absent _)
  · intro it other runs
    obtain ⟨here, past⟩ := invariant.executing it other runs
    refine ⟨?_, past⟩
    change (TimeWheel.slot _ run.wheel.currentSlot_)[it]? = some other
    rwa [slots, List.getElem?_append_left (List.getElem?_eq_some_iff.mp here).1]

theorem erase (invariant : NotBefore due run) {it task : Nat}
    (phase : run.phase = .running it task) :
    NotBefore due { run with
      wheel := run.wheel.erase it
      phase := .ticking it } := by
  obtain ⟨here, settled⟩ := invariant.executing it task phase
  have inside := (List.getElem?_eq_some_iff.mp here).1
  have sublist := run.wheel.slot_erase_sublist it
  constructor
  · exact invariant.positive
  · simpa [TimeWheel.erase] using invariant.slots
  · exact invariant.current
  · exact TimeWheel.le_length_slot_erase inside
  · intro index other membership
    exact invariant.bounded index other ((sublist index).subset membership)
  · intro other content callback found callable later
    refine (invariant.waits other content callback found callable later).mono
      rfl rfl rfl ?_ ?_ ?_
    · intro index
      exact (sublist index).count_le _
    · rw [visited_erase phase inside]
      exact id
    · rw [coming_erase phase inside]
      exact id
  · intro it' task' runs
    cases runs

/-- A task with rotations left is passed over, one round closer. -/
theorem decreaseRotations (invariant : NotBefore due run) {it task : Nat}
    {content : Task Callback} (phase : run.phase = .ticking it)
    (here : (run.wheel.slot run.wheel.currentSlot_)[it]? = some task)
    (found : run.wheel.tasks[task]? = some content)
    (rotates : 0 < content.rotations_) :
    NotBefore due { run with
      wheel := run.wheel.modifyTask task fun content =>
        { content with rotations_ := content.rotations_ - 1 }
      phase := .ticking (it + 1) } := by
  obtain ⟨inside, isHere⟩ := List.getElem?_eq_some_iff.mp here
  have split : run.wheel.slot run.wheel.currentSlot_ =
      (run.wheel.slot run.wheel.currentSlot_).take it ++
        task :: (run.wheel.slot run.wheel.currentSlot_).drop (it + 1) := by
    rw [← isHere, ← List.drop_eq_getElem_cons inside, List.take_append_drop]
  constructor
  · exact invariant.positive
  · exact invariant.slots
  · exact invariant.current
  · exact inside
  · intro index other membership
    simpa [TimeWheel.modifyTask] using invariant.bounded index other membership
  · intro other content' callback found' callable later
    simp only [TimeWheel.modifyTask, List.getElem?_modify] at found'
    by_cases same : task = other
    · subst same
      simp only [if_true, found, Option.map_eq_map, Option.map_some,
        Option.some.injEq] at found'
      subst found'
      have waits := invariant.waits task content callback found callable later
      have once := waits.once run.wheel.currentSlot_
      rw [split, List.count_append, List.count_cons_self] at once
      have limit := waits.coming (by
        unfold coming
        rw [phase]
        change task ∈ (run.wheel.slot run.wheel.currentSlot_).drop it
        rw [List.drop_eq_getElem_cons inside, isHere]
        exact List.mem_cons_self)
      have fewer : content.rotations_.toNat = (content.rotations_ - 1).toNat + 1 := by
        omega
      constructor
      · exact waits.once
      · exact waits.single
      · intro index _ differs membership
        have present : task ∈ run.wheel.slot run.wheel.currentSlot_ :=
          List.mem_of_getElem? here
        exact absurd (waits.single index _ membership present) differs
      · intro _
        rw [fewer, Nat.add_mul, Nat.one_mul] at limit
        change _ ≤ run.ticks + run.wheel.slotLen + _ * run.wheel.slotLen
        dsimp only
        omega
      · intro membership
        have again : 0 < ((run.wheel.slot run.wheel.currentSlot_).drop
            (it + 1)).count task :=
          List.count_pos_iff.mpr membership
        omega
    · simp only [if_neg same, Option.map_eq_map, Option.map_id'] at found'
      refine (invariant.waits other content' callback found' callable
        later).mono rfl rfl rfl (fun _ => Nat.le_refl _) ?_ ?_
      · intro membership
        unfold visited
        rw [phase]
        change other ∈ (run.wheel.slot run.wheel.currentSlot_).take (it + 1) at membership
        rw [List.take_add_one, here, List.mem_append] at membership
        rcases membership with before | last
        · exact before
        · exact absurd (List.mem_singleton.mp last).symm same
      · intro membership
        unfold coming
        rw [phase]
        exact List.drop_subset_drop_left _ (Nat.le_succ it) membership
  · intro it' task' runs
    cases runs

theorem afterExec (invariant : NotBefore due run) {it task : Nat}
    (phase : run.phase = .running it task) :
    NotBefore due { run with
      wheel := run.wheel.afterExec it task
      phase := .ticking it } := by
  obtain ⟨here, settled⟩ := invariant.executing it task phase
  have known := invariant.bounded _ task (List.mem_of_getElem? here)
  have found := List.getElem?_eq_getElem known
  let content := run.wheel.tasks[task]
  change _ = some content at found
  by_cases repeats : content.Repeats
  · rw [TimeWheel.afterExec_of_repeats found it repeats]
    let again := content.again run.wheel.slotLen
    have edited : NotBefore due { run with
        wheel := run.wheel.modifyTask task fun _ => again } := by
      apply invariant.edit
      · exact List.length_modify ..
      · intro other changed callback found' callable later
        rw [List.getElem?_modify] at found'
        split at found'
        next same =>
          subst same
          rw [found] at found'
          cases found'
          exact absurd (settled content callback found callable)
            (Nat.not_le_of_lt later)
        next => exact ⟨changed, by simpa using found', callable, rfl⟩
    have inside := run.wheel.slotAhead_lt invariant.positive content.timeout_
    have stillKnown : task < (run.wheel.modifyTask task fun _ => again).tasks.length := by
      simpa [TimeWheel.modifyTask] using known
    have stillSettled := (edited.executing it task phase).2
    exact (edited.pushBack inside stillKnown stillSettled).erase phase
  · rw [TimeWheel.afterExec_of_not_repeats found it repeats]
    exact invariant.erase phase

theorem turn (invariant : NotBefore due run) {it : Nat}
    (phase : run.phase = .ticking it)
    (exhausted : (run.wheel.slot run.wheel.currentSlot_).length ≤ it) :
    NotBefore due { run with
      wheel := { run.wheel with
        currentSlot_ := (run.wheel.currentSlot_ + 1) % run.wheel.slotLen }
      phase := .idle
      ticks := run.ticks + 1 } := by
  have closer : ∀ index < run.wheel.slotLen, ∀ task content callback,
      run.wheel.tasks[task]? = some content → content.fun_ = some callback →
      run.ticks + 1 < due callback → task ∈ run.wheel.slot index →
      due callback ≤ run.ticks + 1 +
        (index + run.wheel.slotLen - (run.wheel.currentSlot_ + 1) % run.wheel.slotLen)
          % run.wheel.slotLen + content.rotations_.toNat * run.wheel.slotLen := by
    intro index inside task content callback found callable later membership
    have waits := invariant.waits task content callback found callable
      (Nat.lt_of_succ_lt later)
    rw [Nat.add_assoc run.ticks, Nat.add_comm 1, distance_succ inside invariant.current]
    split
    next same =>
      apply waits.visited
      unfold visited
      rw [phase]
      change task ∈ List.take it _
      rwa [List.take_of_length_le exhausted, ← same]
    next differs => exact waits.others index inside differs membership
  have nextInside := Nat.mod_lt (run.wheel.currentSlot_ + 1) invariant.positive
  constructor
  · exact invariant.positive
  · exact invariant.slots
  · exact nextInside
  · exact Nat.zero_le _
  · exact invariant.bounded
  · intro task content callback found callable later
    have waits := invariant.waits task content callback found callable
      (Nat.lt_of_succ_lt later)
    constructor
    · exact waits.once
    · exact waits.single
    · intro index inside _ membership
      exact closer index inside task content callback found callable later membership
    · intro membership
      change task ∈ List.take 0 _ at membership
      cases membership
    · intro membership
      have limit := closer _ nextInside task content callback found callable later
        membership
      rwa [Nat.add_sub_cancel_left, Nat.mod_self] at limit
  · intro it' task' runs
    cases runs

/-- One turn of the loop of `tick`; a callback it starts to run is due. -/
theorem visit (invariant : NotBefore due run) {it : Nat}
    (phase : run.phase = .ticking it)
    (inside : it < (run.wheel.slot run.wheel.currentSlot_).length) :
    NotBefore due (run.visit it) ∧
      ∀ ran ∈ (run.visit it).ran.drop run.ran.length,
        due ran.callback ≤ run.ticks ∧
          ∃ content, run.wheel.tasks[ran.task]? = some content ∧
            content.fun_ = some ran.callback := by
  have here := List.getElem?_eq_getElem inside
  let task := (run.wheel.slot run.wheel.currentSlot_)[it]
  change _ = some task at here
  obtain ⟨content, found⟩ : ∃ content, run.wheel.tasks[task]? = some content :=
    ⟨_, List.getElem?_eq_getElem (invariant.bounded _ task (List.getElem_mem inside))⟩
  by_cases rotates : 0 < content.rotations_
  · rw [visit_of_rotates here found rotates]
    refine ⟨invariant.decreaseRotations phase here found rotates, ?_⟩
    simp
  · have settled := invariant.settled_of_reached phase here found rotates
    have entered := invariant.enter phase here settled
    cases callable : content.fun_ with
    | some callback =>
        rw [visit_of_callback here found rotates callable]
        refine ⟨entered.record _, ?_⟩
        intro ran membership
        obtain rfl : ran = ⟨run.ticks, task, callback⟩ := by simpa using membership
        exact ⟨settled content callback found callable, content, found, callable⟩
    | none =>
        rw [visit_of_removed here found rotates callable]
        refine ⟨?_, by simp⟩
        have finished := entered.afterExec rfl
        rwa [← phase] at finished

/-- The step lemma: a new task must not be due before the tick it is given. -/
theorem next (invariant : NotBefore due run) {event : Event Callback}
    (enabled : run.Enabled event)
    (added : ∀ timeout callback times, event = .addTask timeout callback times →
      0 ≤ timeout →
      due callback ≤ run.ticks + TimeWheel.delay run.wheel.slotLen timeout) :
    NotBefore due (run.next event) := by
  cases event with
  | addTask timeout callback times =>
      change NotBefore due (run.addTask timeout callback times)
      unfold WheelRun.addTask
      split
      next => exact invariant.record _
      next notNegative =>
        have nonneg := Int.not_lt.mp notNegative
        exact invariant.addTask nonneg times (added timeout callback times rfl nonneg)
  | delTask task => exact invariant.delTask task
  | beginTick => exact invariant.beginTick enabled
  | visit =>
      obtain ⟨it, phase, inside⟩ := enabled.exists
      simpa [WheelRun.next, phase] using (invariant.visit phase inside).1
  | finish =>
      obtain ⟨it, task, phase⟩ := enabled.exists
      simpa [WheelRun.next, phase] using invariant.afterExec phase
  | endTick =>
      obtain ⟨it, phase, exhausted⟩ := enabled.exists
      exact invariant.turn phase exhausted

end NotBefore

end WheelRun

end GdRpc.Util
