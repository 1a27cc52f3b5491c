import GdRpc.Util.TimingWheelAlignment

/-!
# The loop of `tick`

Every turn of the loop keeps the alignment of wheel and queue, and the sorted
slots make the task at the iterator the first that is due.
-/

namespace GdRpc.Util

open GdRpc.Library

universe u

variable {Callback : Type u}

namespace Aligned

variable {run : WheelRun Callback} {queue : DeadlineQueue Callback}

theorem current_sorted (aligned : Aligned run queue) {it task : Nat}
    (here : (run.wheel.slot run.wheel.currentSlot_)[it]? = some task) :
    (∀ earlier ∈ (run.wheel.slot run.wheel.currentSlot_).take it, earlier < task) ∧
    ∀ later ∈ (run.wheel.slot run.wheel.currentSlot_).drop (it + 1), task < later := by
  obtain ⟨inside, rfl⟩ := List.getElem?_eq_some_iff.mp here
  have sorted := aligned.sorted run.wheel.currentSlot_
  rw [← List.take_append_drop it (run.wheel.slot run.wheel.currentSlot_),
    List.drop_eq_getElem_cons inside, List.pairwise_append, List.pairwise_cons] at sorted
  obtain ⟨_, ⟨later, _⟩, earlier⟩ := sorted
  exact ⟨fun other membership => earlier other membership _ List.mem_cons_self, later⟩

/-- The tasks in front of the iterator wait for the next round. -/
theorem front_encodes (aligned : Aligned run queue) {it other : Nat}
    (phase : run.phase = .ticking it)
    (membership : other ∈ (run.wheel.slot run.wheel.currentSlot_).take it) :
    Encodes run.wheel.tasks queue.entries run.wheel.slotLen other
      (queue.ticks + run.wheel.slotLen) := by
  apply aligned.visited
  rwa [phase]

theorem behind_encodes (aligned : Aligned run queue) {it other : Nat}
    (phase : run.phase = .ticking it)
    (membership : other ∈ (run.wheel.slot run.wheel.currentSlot_).drop (it + 1)) :
    Encodes run.wheel.tasks queue.entries run.wheel.slotLen other queue.ticks := by
  apply aligned.coming
  rw [phase]
  exact (List.drop_subset_drop_left _ (Nat.le_succ it)) membership

theorem here_encodes (aligned : Aligned run queue) {it task : Nat}
    (phase : run.phase = .ticking it)
    (here : (run.wheel.slot run.wheel.currentSlot_)[it]? = some task) :
    Encodes run.wheel.tasks queue.entries run.wheel.slotLen task queue.ticks := by
  apply aligned.coming
  obtain ⟨inside, rfl⟩ := List.getElem?_eq_some_iff.mp here
  rw [phase]
  exact List.mem_drop_iff_getElem.mpr ⟨0, by simpa [WheelPhase.coming] using inside, by
    simp [WheelPhase.coming]⟩

theorem not_mem_other (aligned : Aligned run queue) {index task visit other : Nat}
    (encodes : Encodes run.wheel.tasks queue.entries run.wheel.slotLen task visit)
    (visits : visit % run.wheel.slotLen = run.wheel.currentSlot_)
    (inside : index < run.wheel.slotLen) (differs : index ≠ run.wheel.currentSlot_)
    (membership : other ∈ run.wheel.slot index) : other ≠ task := by
  rintro rfl
  have known := encodes
  obtain ⟨_, entry, _, found, _⟩ := known
  have elsewhere := aligned.slot_encodes inside differs membership found
  rw [encodes.deadline_mod found, visits] at elsewhere
  exact differs elsewhere.symm

theorem decreaseRotations (aligned : Aligned run queue) {it task : Nat}
    {content : Task Callback} (phase : run.phase = .ticking it)
    (here : (run.wheel.slot run.wheel.currentSlot_)[it]? = some task)
    (found : run.wheel.tasks[task]? = some content)
    (waits : 0 < content.rotations_) :
    Aligned { run with
      wheel := run.wheel.modifyTask task fun content =>
        { content with rotations_ := content.rotations_ - 1 }
      phase := .ticking (it + 1) } queue := by
  obtain ⟨earlier, later⟩ := aligned.current_sorted here
  have encodes := aligned.here_encodes phase here
  have inside := (List.getElem?_eq_some_iff.mp here).1
  let tasks := (run.wheel.modifyTask task fun content =>
    { content with rotations_ := content.rotations_ - 1 }).tasks
  have frame : ∀ {other visit}, other ≠ task →
      Encodes run.wheel.tasks queue.entries run.wheel.slotLen other visit →
      Encodes tasks queue.entries run.wheel.slotLen other visit := by
    intro other visit differs encodesOther
    apply encodesOther.congr
    · simp [tasks, TimeWheel.modifyTask, Ne.symm differs]
    · rfl
  have closer : Encodes tasks queue.entries run.wheel.slotLen task
      (queue.ticks + run.wheel.slotLen) := encodes.decreaseRotations found waits
  exact {
    positive := aligned.positive
    slots := aligned.slots
    current := aligned.current
    ticks := aligned.ticks
    ran := aligned.ran
    iterator := inside
    size := by simpa [TimeWheel.modifyTask] using aligned.size
    single := by
      intro changed membership
      obtain ⟨before, isBefore, times⟩ :=
        run.wheel.mem_modifyTask_tasks membership fun _ => rfl
      exact times ▸ aligned.single before isBefore
    bounded := by
      intro index other membership
      simpa [TimeWheel.modifyTask] using aligned.bounded index other membership
    sorted := aligned.sorted
    others := by
      intro index bound differs other membership
      apply frame
      · exact aligned.not_mem_other encodes aligned.current.symm bound differs membership
      · exact aligned.others index bound differs other membership
    visited := by
      intro other membership
      change other ∈ (run.wheel.slot run.wheel.currentSlot_).take (it + 1) at membership
      rw [List.take_add_one, here, List.mem_append] at membership
      rcases membership with before | last
      · exact frame (Nat.ne_of_lt (earlier other before))
          (aligned.front_encodes phase before)
      · obtain rfl : other = task := by simpa using last
        exact closer
    coming := by
      intro other membership
      exact frame (Nat.ne_of_gt (later other membership))
        (aligned.behind_encodes phase membership)
    present := aligned.present
    executing := by
      intro _ _ runs
      cases runs }

theorem enter (aligned : Aligned run queue) {it task : Nat}
    (phase : run.phase = .ticking it)
    (here : (run.wheel.slot run.wheel.currentSlot_)[it]? = some task)
    (deleted : ∃ entry, queue.entries[task]? = some entry ∧ entry.deleted = true) :
    Aligned { run with phase := .running it task } queue where
  positive := aligned.positive
  slots := aligned.slots
  current := aligned.current
  ticks := aligned.ticks
  ran := aligned.ran
  iterator := (List.getElem?_eq_some_iff.mp here).1
  size := aligned.size
  single := aligned.single
  bounded := aligned.bounded
  sorted := aligned.sorted
  others := aligned.others
  visited := fun other => aligned.front_encodes phase
  coming := fun other => aligned.behind_encodes phase
  present := aligned.present
  executing := by
    intro it' task' runs
    cases runs
    obtain ⟨entry, found, isDeleted⟩ := deleted
    exact ⟨here, entry, found, .inl isDeleted⟩

theorem erase (aligned : Aligned run queue) {it task : Nat}
    (phase : run.phase = .running it task) :
    Aligned { run with
      wheel := run.wheel.erase it
      phase := .ticking it } queue := by
  obtain ⟨here, entry, found, ended⟩ := aligned.executing it task phase
  have inside := (List.getElem?_eq_some_iff.mp here).1
  have sublist := run.wheel.slot_erase_sublist it
  exact {
    positive := aligned.positive
    slots := by simpa [TimeWheel.erase] using aligned.slots
    current := aligned.current
    ticks := aligned.ticks
    ran := aligned.ran
    iterator := TimeWheel.le_length_slot_erase inside
    size := aligned.size
    single := aligned.single
    bounded := by
      intro index other membership
      apply aligned.bounded index other
      exact (sublist index).subset membership
    sorted := fun index => (aligned.sorted index).sublist (sublist index)
    others := by
      intro index bound differs other membership
      apply aligned.others index bound differs other
      exact (sublist index).subset membership
    visited := by
      intro other membership
      change other ∈ ((run.wheel.erase it).slot run.wheel.currentSlot_).take it
        at membership
      apply aligned.visited other
      rw [TimeWheel.take_slot_erase inside] at membership
      rwa [phase]
    coming := by
      intro other membership
      change other ∈ ((run.wheel.erase it).slot run.wheel.currentSlot_).drop it
        at membership
      apply aligned.coming other
      rw [TimeWheel.drop_slot_erase inside] at membership
      rwa [phase]
    present := by
      intro other entry' found' alive pending future
      apply TimeWheel.mem_slot_erase_of_ne here
      · rintro rfl
        obtain rfl : entry = entry' := Option.some.inj (found.symm.trans found')
        rcases ended with isDeleted | isDone
        · simp [isDeleted] at alive
        · simp [isDone] at pending
      · exact aligned.present other entry' found' alive pending future
    executing := by
      intro _ _ runs
      cases runs }

/-- A task already visited in this tick is not due in it. -/
theorem not_due_visited (aligned : Aligned run queue) {task : Nat}
    (membership : task ∈
      (run.wheel.slot run.wheel.currentSlot_).take run.phase.visited)
    {entry : DeadlineQueue.Entry Callback}
    (found : queue.entries[task]? = some entry) : ¬ entry.Due queue.ticks := by
  obtain ⟨_, other, _, here, _, ⟨rotations, _, deadline⟩, _⟩ :=
    aligned.visited task membership
  obtain rfl : other = entry := Option.some.inj (here.symm.trans found)
  have positive := aligned.positive
  rintro ⟨now, _, _⟩
  omega

theorem due_mem (aligned : Aligned run queue) {task : Nat}
    {entry : DeadlineQueue.Entry Callback}
    (found : queue.entries[task]? = some entry) (due : entry.Due queue.ticks) :
    task ∈ run.wheel.slot run.wheel.currentSlot_ := by
  obtain ⟨now, alive, pending⟩ := due
  have membership := aligned.present task entry found alive pending (Nat.le_of_eq now.symm)
  rwa [now, ← aligned.current] at membership

/-- The task whose callback `tick` calls is the first that is due. -/
theorem first (aligned : Aligned run queue) {it task : Nat}
    {content : Task Callback} {callback : Callback}
    (phase : run.phase = .ticking it)
    (here : (run.wheel.slot run.wheel.currentSlot_)[it]? = some task)
    (found : run.wheel.tasks[task]? = some content)
    (reached : ¬ 0 < content.rotations_)
    (callable : content.fun_ = some callback) : queue.First task callback := by
  obtain ⟨before, _⟩ := aligned.current_sorted here
  constructor
  · obtain ⟨content', entry, foundTask, foundEntry, pending,
      ⟨rotations, counted, deadline⟩, stored⟩ := aligned.here_encodes phase here
    obtain rfl : content = content' := Option.some.inj (found.symm.trans foundTask)
    obtain rfl : rotations = 0 := by omega
    rw [callable] at stored
    split at stored
    · cases stored
    next alive =>
      exact ⟨entry, foundEntry, (Option.some.inj stored).symm, by simpa using deadline,
        by simpa using alive, pending⟩
  · intro earlier isEarlier entry foundEntry due
    obtain ⟨position, inside, atPosition⟩ :=
      List.mem_iff_getElem.mp (aligned.due_mem foundEntry due)
    obtain ⟨itInside, atIt⟩ := List.getElem?_eq_some_iff.mp here
    -- The slot is sorted, so the iterator has passed this task.
    have passed : position < it := by
      by_contra ahead
      rcases Nat.eq_or_lt_of_le (Nat.le_of_not_lt ahead) with same | later
      · subst same
        omega
      · have ordered := List.pairwise_iff_getElem.mp
          (aligned.sorted run.wheel.currentSlot_) it position itInside inside later
        omega
    refine aligned.not_due_visited ?_ foundEntry due
    rw [phase]
    exact List.mem_take_iff_getElem.mpr
      ⟨position, Nat.lt_min.mpr ⟨passed, inside⟩, atPosition⟩

theorem exec (aligned : Aligned run queue) {it task : Nat} {callback : Callback}
    (phase : run.phase = .ticking it)
    (here : (run.wheel.slot run.wheel.currentSlot_)[it]? = some task) :
    Aligned { run with
      phase := .running it task
      ran := run.ran ++ [⟨run.ticks, task, callback⟩] }
      { queue with
        entries := queue.entries.modify task
          fun entry => { entry with done := true }
        phase := .running
        ran := queue.ran ++ [⟨queue.ticks, task, callback⟩] } := by
  obtain ⟨earlier, later⟩ := aligned.current_sorted here
  have encodes := aligned.here_encodes phase here
  have frame : ∀ {other visit}, other ≠ task →
      Encodes run.wheel.tasks queue.entries run.wheel.slotLen other visit →
      Encodes run.wheel.tasks (queue.entries.modify task
        fun entry => { entry with done := true }) run.wheel.slotLen other visit := by
    intro other visit differs encodesOther
    apply encodesOther.congr
    · rfl
    · simp [Ne.symm differs]
  exact {
    positive := aligned.positive
    slots := aligned.slots
    current := aligned.current
    ticks := aligned.ticks
    ran := by simp only [aligned.ran, aligned.ticks]
    iterator := (List.getElem?_eq_some_iff.mp here).1
    size := by simpa using aligned.size
    single := aligned.single
    bounded := aligned.bounded
    sorted := aligned.sorted
    others := by
      intro index bound differs other membership
      apply frame
      · exact aligned.not_mem_other encodes aligned.current.symm bound differs membership
      · exact aligned.others index bound differs other membership
    visited := by
      intro other membership
      exact frame (Nat.ne_of_lt (earlier other membership))
        (aligned.front_encodes phase membership)
    coming := by
      intro other membership
      exact frame (Nat.ne_of_gt (later other membership))
        (aligned.behind_encodes phase membership)
    present := by
      intro other entry found alive pending future
      rw [List.getElem?_modify] at found
      split at found
      · obtain ⟨before, _, rfl⟩ := Option.map_eq_some_iff.mp found
        simp at pending
      · exact aligned.present other entry (by simpa using found) alive pending future
    executing := by
      intro it' task' runs
      cases runs
      obtain ⟨_, entry, _, found, _⟩ := encodes
      exact ⟨here, { entry with done := true }, by simp [found], .inr rfl⟩ }

theorem none_due (aligned : Aligned run queue) {it : Nat}
    (phase : run.phase = .ticking it)
    (exhausted : (run.wheel.slot run.wheel.currentSlot_).length ≤ it) :
    ∀ entry ∈ queue.entries, ¬ entry.Due queue.ticks := by
  intro entry membership due
  obtain ⟨task, found⟩ := List.mem_iff_getElem?.mp membership
  refine aligned.not_due_visited ?_ found due
  rw [phase]
  change task ∈ List.take it _
  rw [List.take_of_length_le exhausted]
  exact aligned.due_mem found due

theorem turn (aligned : Aligned run queue) {it : Nat}
    (phase : run.phase = .ticking it)
    (exhausted : (run.wheel.slot run.wheel.currentSlot_).length ≤ it) :
    Aligned { run with
      wheel := { run.wheel with
        currentSlot_ := (run.wheel.currentSlot_ + 1) % run.wheel.slotLen }
      phase := .idle
      ticks := run.ticks + 1 }
      { queue with
        ticks := queue.ticks + 1
        phase := .idle } := by
  have closer : ∀ index < run.wheel.slotLen, ∀ task ∈ run.wheel.slot index,
      Encodes run.wheel.tasks queue.entries run.wheel.slotLen task (queue.ticks + 1 +
        (index + run.wheel.slotLen - (run.wheel.currentSlot_ + 1) % run.wheel.slotLen)
          % run.wheel.slotLen) := by
    intro index inside task membership
    rw [Nat.add_assoc, Nat.add_comm 1, distance_succ inside aligned.current_lt]
    split
    next same =>
      apply aligned.visited
      rw [phase]
      change task ∈ List.take it _
      rwa [List.take_of_length_le exhausted, ← same]
    next differs => exact aligned.others index inside differs task membership
  have nextInside := Nat.mod_lt (run.wheel.currentSlot_ + 1) aligned.positive
  exact {
    positive := aligned.positive
    slots := aligned.slots
    current := by
      change (run.wheel.currentSlot_ + 1) % _ = (queue.ticks + 1) % _
      rw [aligned.current, Nat.mod_add_mod]
    ticks := congrArg (· + 1) aligned.ticks
    ran := aligned.ran
    iterator := Nat.zero_le _
    size := aligned.size
    single := aligned.single
    bounded := aligned.bounded
    sorted := aligned.sorted
    others := fun index inside _ task membership => closer index inside task membership
    visited := by
      intro task membership
      change task ∈ List.take 0 _ at membership
      simp at membership
    coming := by
      intro task membership
      have encodes := closer _ nextInside task membership
      rwa [Nat.add_sub_cancel_left, Nat.mod_self] at encodes
    present := by
      intro task entry found alive pending future
      apply aligned.present task entry found alive pending
      exact Nat.le_of_succ_le future
    executing := by
      intro _ _ runs
      cases runs }

theorem congr_phase (aligned : Aligned run queue) (phase : DeadlineQueue.Phase) :
    Aligned run { queue with phase := phase } :=
  { aligned with }

theorem beginTick (aligned : Aligned run queue) (phase : run.phase = .idle) :
    Aligned { run with phase := .ticking 0 } queue where
  positive := aligned.positive
  slots := aligned.slots
  current := aligned.current
  ticks := aligned.ticks
  ran := aligned.ran
  iterator := Nat.zero_le _
  size := aligned.size
  single := aligned.single
  bounded := aligned.bounded
  sorted := aligned.sorted
  others := aligned.others
  visited := by
    intro task membership
    apply aligned.visited
    rwa [phase]
  coming := by
    intro task membership
    apply aligned.coming
    rwa [phase]
  present := aligned.present
  executing := by
    intro _ _ runs
    cases runs

end Aligned

end GdRpc.Util
