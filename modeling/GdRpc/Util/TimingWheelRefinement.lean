import GdRpc.Util.TimingWheelTick

/-!
# The wheel is a stable deadline queue
-/

namespace GdRpc.Util

open GdRpc.Library

universe u

variable {Callback : Type u}

/-- The refinement relation. -/
def WheelRun.Related (run : WheelRun Callback) (queue : DeadlineQueue Callback) :
    Prop :=
  Aligned run queue ∧ queue.phase = run.phase.abstract

namespace WheelRun

variable {run : WheelRun Callback} {queue : DeadlineQueue Callback}

theorem UserActs.not_ticking (acts : run.UserActs)
    (phase : queue.phase = run.phase.abstract) : queue.phase ≠ .ticking := by
  rw [phase]
  cases current : run.phase with
  | ticking it => exact absurd current (acts it)
  | idle => simp [WheelPhase.abstract]
  | running => simp [WheelPhase.abstract]

/-- One turn of the loop of `tick` either runs the first due task or leaves
the queue as it is. -/
theorem Related.visit (related : run.Related queue) {it : Nat}
    (phase : run.phase = .ticking it)
    (inside : it < (run.wheel.slot run.wheel.currentSlot_).length) :
    (run.visit it).Related queue ∨
    ∃ after, DeadlineQueue.Step queue .run after ∧ (run.visit it).Related after := by
  obtain ⟨aligned, samePhase⟩ := related
  have ticking : queue.phase = .ticking := by rw [samePhase, phase]; rfl
  have here := List.getElem?_eq_getElem inside
  let task := (run.wheel.slot run.wheel.currentSlot_)[it]
  change _ = some task at here
  have known := aligned.bounded _ task (List.getElem_mem inside)
  have found := List.getElem?_eq_getElem known
  let content := run.wheel.tasks[task]
  change _ = some content at found
  by_cases waits : 0 < content.rotations_
  · rw [visit_of_rotates here found waits]
    exact .inl ⟨aligned.decreaseRotations phase here found waits, ticking⟩
  · cases callable : content.fun_ with
    | some callback =>
        rw [visit_of_callback here found waits callable]
        exact .inr ⟨_, .run task callback ticking
          (aligned.first phase here found waits callable),
          aligned.exec phase here, rfl⟩
    | none =>
        obtain ⟨content', entry, foundTask, foundEntry, _, _, stored⟩ :=
          aligned.here_encodes phase here
        obtain rfl : content = content' := Option.some.inj (found.symm.trans foundTask)
        have deleted : entry.deleted = true := by
          rw [callable] at stored
          by_contra alive
          rw [if_neg alive] at stored
          cases stored
        rw [visit_of_removed here found waits callable,
          run.wheel.afterExec_single it task aligned.single]
        refine .inl ⟨?_, samePhase⟩
        have erased := (aligned.enter phase here ⟨entry, foundEntry, deleted⟩).erase rfl
        rwa [← phase] at erased

/-- What is asked of the caller of `addTask`: a timeout within `2 ^ 31` rounds
and a `times_` that does not make the task repeat. -/
def Admissible (run : WheelRun Callback) : Event Callback → Prop
  | .addTask timeout _ times =>
      (0 ≤ timeout ∧ timeout < 2 ^ 31 * run.wheel.slotLen) ∧
      ¬ (1 < times ∨ times = -1)
  | _ => True

instance (run : WheelRun Callback) (event : Event Callback) :
    Decidable (run.Admissible event) :=
  match event with
  | .addTask timeout _ times =>
      inferInstanceAs (Decidable ((0 ≤ timeout ∧ timeout < _) ∧
        ¬ (1 < times ∨ times = -1)))
  | .delTask _ | .beginTick | .visit | .finish | .endTick =>
      inferInstanceAs (Decidable True)

def Permitted (run : WheelRun Callback) (event : Event Callback) : Prop :=
  run.Enabled event ∧ run.Admissible event

instance (run : WheelRun Callback) (event : Event Callback) :
    Decidable (run.Permitted event) :=
  inferInstanceAs (Decidable (_ ∧ _))

def system (slotLen : Nat) : System (WheelRun Callback) (Event Callback) where
  initial run := run = start slotLen
  step run event after := run.Permitted event ∧ after = run.next event

/-- The step of the queue an event shows; visiting a task shows none. -/
def Event.observe : Event Callback → Option (DeadlineQueue.Action Callback)
  | .addTask timeout callback _ => some (.add timeout.toNat callback)
  | .delTask task => some (.delete task)
  | .beginTick => some .beginTick
  | .visit => none
  | .finish => some .return
  | .endTick => some .endTick

theorem Related.start (slotLen : Nat) (positive : 0 < slotLen) :
    (WheelRun.start slotLen : WheelRun Callback).Related .empty := by
  exact ⟨{
    positive := positive
    slots := List.length_replicate
    current := (Nat.zero_mod slotLen).symm
    ticks := rfl
    ran := rfl
    iterator := Nat.zero_le _
    size := rfl
    single := fun _ membership => nomatch membership
    bounded := by
      intro index task membership
      simp [WheelRun.start] at membership
    sorted := by
      intro index
      simp [WheelRun.start]
    others := by
      intro index _ _ task membership
      simp [WheelRun.start] at membership
    visited := by
      intro task membership
      simp [WheelRun.start] at membership
    coming := by
      intro task membership
      simp [WheelRun.start] at membership
    present := by
      intro task entry found
      simp [DeadlineQueue.empty] at found
    executing := by
      intro _ _ runs
      cases runs }, rfl⟩

/-- The wheel simulates the queue; only the runs of callbacks and the visits
are not observed. -/
def simulation (slotLen : Nat) (positive : 0 < slotLen) :
    StutteringSimulation (@system Callback slotLen) Event.observe
      DeadlineQueue.system DeadlineQueue.Action.observe where
  Related := Related
  initial := by
    rintro run rfl
    exact ⟨.empty, rfl, Related.start slotLen positive⟩
  step := by
    rintro run queue event after related ⟨⟨enabled, admissible⟩, rfl⟩
    have ⟨aligned, samePhase⟩ := related
    cases event with
    | addTask timeout callback times =>
        obtain ⟨⟨nonneg, small⟩, single⟩ := admissible
        lift timeout to Nat using nonneg
        have scheduled : run.next (.addTask timeout callback times) =
            { run with wheel := run.wheel.schedule timeout callback times } := by
          change run.addTask timeout callback times = _
          unfold WheelRun.addTask
          rw [if_neg (Int.not_lt.mpr (Int.natCast_nonneg timeout))]
        rw [scheduled]
        exact .inr ⟨.add timeout callback, _, rfl,
          .add timeout callback (enabled.not_ticking samePhase),
          aligned.addTask callback (by exact_mod_cast small) single, samePhase⟩
    | delTask task =>
        exact .inr ⟨.delete task, _, rfl,
          .delete task (enabled.not_ticking samePhase),
          aligned.delTask task, samePhase⟩
    | beginTick =>
        have idle : queue.phase = .idle := by rw [samePhase, enabled]; rfl
        exact .inr ⟨.beginTick, _, rfl, .beginTick idle,
          (aligned.beginTick enabled).congr_phase _, rfl⟩
    | visit =>
        obtain ⟨it, phase, inside⟩ := enabled.exists
        have isVisit : run.next .visit = run.visit it := by simp [next, phase]
        rw [isVisit]
        rcases related.visit phase inside with
          unchanged | ⟨after, step, relatedAfter⟩
        · exact .inl ⟨rfl, unchanged⟩
        · exact .inr ⟨.run, after, rfl, step, relatedAfter⟩
    | finish =>
        obtain ⟨it, task, phase⟩ := enabled.exists
        have running : queue.phase = .running := by rw [samePhase, phase]; rfl
        refine .inr ⟨.return, _, rfl, .return running, ?_, ?_⟩
        · simpa [next, phase, run.wheel.afterExec_single it task aligned.single] using
            (aligned.erase phase).congr_phase .ticking
        · simp [next, phase, WheelPhase.abstract]
    | endTick =>
        obtain ⟨it, phase, exhausted⟩ := enabled.exists
        have ticking : queue.phase = .ticking := by rw [samePhase, phase]; rfl
        exact .inr ⟨.endTick, _, rfl,
          .endTick ticking (aligned.none_due phase exhausted),
          aligned.turn phase exhausted, rfl⟩

/-- Whatever the calls and wherever they come from, the wheel runs what the
deadline queue runs on the same calls. -/
theorem refines_deadline_queue (slotLen : Nat) (positive : 0 < slotLen)
    {events : List (Event Callback)} {run : WheelRun Callback}
    (execution : (system slotLen).Execution events run) :
    ∃ actions queue, DeadlineQueue.system.Execution actions queue ∧
      actions.filterMap DeadlineQueue.Action.observe =
        events.filterMap Event.observe ∧
      queue.phase = run.phase.abstract ∧ queue.ticks = run.ticks ∧
      queue.ran = run.ran := by
  obtain ⟨actions, queue, reached, same, aligned, phase⟩ :=
    (simulation slotLen positive).execution execution
  exact ⟨actions, queue, reached, same, phase, aligned.ticks.symm, aligned.ran.symm⟩

/-- Two slots; the callback of the first task adds a task for two ticks later
and deletes the task behind it, which is skipped. -/
theorem refines_deadline_queue_nested_calls :
    ∃ run : WheelRun Nat,
      (system 2).Execution
        [.addTask 0 10 0, .addTask 0 11 0, .beginTick, .visit, .addTask 2 12 0,
          .delTask 1, .finish, .visit, .visit, .endTick, .beginTick, .endTick,
          .beginTick, .visit, .finish, .endTick] run ∧
      run.ran = [⟨0, 0, 10⟩, ⟨2, 2, 12⟩] ∧
      ∃ actions queue, DeadlineQueue.system.Execution actions queue ∧
        actions.filterMap DeadlineQueue.Action.observe =
          [.add 0 10, .add 0 11, .beginTick, .add 2 12, .delete 1, .return,
            .endTick, .beginTick, .endTick, .beginTick, .return, .endTick] ∧
        queue.phase = .idle ∧ queue.ticks = 3 ∧
        queue.ran = [⟨0, 0, 10⟩, ⟨2, 2, 12⟩] := by
  let events : List (Event Nat) :=
    [.addTask 0 10 0, .addTask 0 11 0, .beginTick, .visit, .addTask 2 12 0,
      .delTask 1, .finish, .visit, .visit, .endTick, .beginTick, .endTick,
      .beginTick, .visit, .finish, .endTick]
  have execution : (system 2).Execution events (events.foldl next (start 2)) :=
    System.Execution.foldl (system 2) Permitted
      (fun _ _ permitted => ⟨permitted, rfl⟩) rfl (by decide)
  obtain ⟨actions, queue, reached, same, phase, ticks, ran⟩ :=
    refines_deadline_queue 2 (by decide) execution
  exact ⟨_, execution, by decide, actions, queue, reached, same, phase, ticks, ran⟩

end WheelRun

end GdRpc.Util
