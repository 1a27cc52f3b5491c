import GdRpc.Util.TimingWheelOnce

/-!
# No task after its tick

The records of the tasks say when each was added and for how long. Where the
callback itself says so too, an execution that is due can be looked up in `ran`.
-/

namespace GdRpc.Util

open GdRpc.Library

universe u

variable {Callback : Type u}

theorem WheelRun.Reaches.held {run : WheelRun Callback} {task tick : Nat}
    (reaches : run.Reaches task tick) : task ∈ run.wheel.held := by
  rw [TimeWheel.mem_held]
  cases reaches with
  | coming membership => exact ⟨_, List.mem_of_mem_drop membership⟩
  | visited membership => exact ⟨_, List.mem_of_mem_take membership⟩
  | other index _ _ membership => exact ⟨index, membership⟩

namespace Timers

/-- What is recorded about a task that still has its callback: what it asked
for, that it has been executed if it has been deleted nevertheless, and where
the execution is. -/
structure Recorded (Asks : Callback → Int → Nat → Prop) (ran : List (Ran Callback))
    (task : Nat) (content : Task Callback) (entry : Accepted) : Prop where
  asks : ∀ callback, content.fun_ = some callback → Asks callback entry.timeout entry.added
  removed : content.fun_ ≠ none → entry.deleted = true → entry.executions = 1
  ran : ∀ callback, content.fun_ = some callback → entry.executions = 1 →
    ∃ tick, ⟨tick, task, callback⟩ ∈ ran

namespace Recorded

variable {Asks : Callback → Int → Nat → Prop} {ran : List (Ran Callback)} {task : Nat}
  {content : Task Callback} {entry : Accepted}

theorem more (recorded : Recorded Asks ran task content entry) (new : List (Ran Callback)) :
    Recorded Asks (ran ++ new) task content entry := by
  refine ⟨recorded.asks, recorded.removed, ?_⟩
  intro callback callable executed
  obtain ⟨tick, membership⟩ := recorded.ran callback callable executed
  exact ⟨tick, List.mem_append_left new membership⟩

theorem of_fun_eq (recorded : Recorded Asks ran task content entry) {changed : Task Callback}
    (same : changed.fun_ = content.fun_) : Recorded Asks ran task changed entry := by
  constructor
  · rw [same]
    exact recorded.asks
  · rw [same]
    exact recorded.removed
  · rw [same]
    exact recorded.ran

theorem of_none (absent : content.fun_ = none) : Recorded Asks ran task content entry := by
  constructor
  · intro callback callable
    rw [absent] at callable
    cases callable
  · exact fun callable => absurd absent callable
  · intro callback callable
    rw [absent] at callable
    cases callable

end Recorded

/-- The records of all tasks, those of their executions among them. -/
def Noted (Asks : Callback → Int → Nat → Prop) (run : WheelRun Callback)
    (accepted : List Accepted) : Prop :=
  Paired (Recorded Asks run.ran) run.wheel.tasks accepted

namespace Noted

variable {Asks : Callback → Int → Nat → Prop} {run : WheelRun Callback}
  {accepted : List Accepted}

theorem keeps (noted : Noted Asks run accepted) (ledger : Ledger (fun _ => True) run accepted) :
    Paired (fun task content entry =>
      Keeps run task content entry ∧ Recorded Asks run.ran task content entry)
      run.wheel.tasks accepted where
  length := noted.length
  agrees task content entry found known :=
    ⟨ledger.keeps trivial found known, noted.agrees task content entry found known⟩

theorem addTask (noted : Noted Asks run accepted) {timeout : Int} {callback : Callback}
    (asks : Asks callback timeout run.ticks) (times : Int) :
    Noted Asks (run.next (.addTask timeout callback times))
      (record run accepted (.addTask timeout callback times)) := by
  change Noted Asks (run.addTask timeout callback times) _
  unfold WheelRun.addTask record
  by_cases negative : timeout < 0
  · simp only [if_pos negative]
    apply noted.mono
    intro task content entry _ recorded
    exact recorded.more _
  · simp only [if_neg negative]
    apply noted.concat
    · exact fun _ _ _ _ recorded => recorded
    · constructor
      · rintro _ ⟨⟩
        exact asks
      · intro _ deleted
        cases deleted
      · intro _ _ executed
        cases executed

/-- A task that a slot refers to loses its callback; one that is in no slot any
more has been executed. -/
theorem delTask (noted : Noted Asks run accepted)
    (ledger : Ledger (fun _ => True) run accepted) (task : Nat) :
    Noted Asks (run.next (.delTask task)) (record run accepted (.delTask task)) := by
  change Paired _ (run.wheel.delTask task).tasks (accepted.modify task Accepted.remove)
  by_cases alive : run.wheel.Alive task
  · rw [TimeWheel.delTask_tasks_of_alive alive]
    apply noted.modify task
    · exact fun _ _ _ _ _ recorded => recorded
    · exact fun _ _ _ _ => .of_none rfl
  · rw [TimeWheel.delTask_tasks_of_expired alive]
    apply (noted.keeps ledger).modify_entry task
    · exact fun _ _ _ _ _ both => both.2
    · rintro content entry - ⟨keeps, recorded⟩
      have executed : content.fun_ ≠ none → entry.executions = 1 := by
        intro callable
        by_contra pending
        have atMost := keeps.atMost
        have kept : entry.deleted = false := by
          by_contra deleted
          exact pending (recorded.removed callable (eq_true_of_ne_false deleted))
        obtain ⟨tick, reaches, -⟩ := keeps.waiting (by omega) kept
        exact alive (run.wheel.alive_iff.mpr reaches.held)
      exact ⟨recorded.asks, fun callable _ => executed callable, recorded.ran⟩

theorem visit (noted : Noted Asks run accepted)
    (ledger : Ledger (fun _ => True) run accepted) {it : Nat} (phase : run.phase = .ticking it)
    (inside : it < (run.wheel.slot run.wheel.currentSlot_).length) :
    Noted Asks (run.next .visit) (record run accepted .visit) := by
  obtain ⟨task, content, here, found⟩ := ledger.sound.at_iterator inside
  have held : task ∈ run.wheel.held :=
    run.wheel.mem_held.mpr ⟨_, List.mem_of_getElem? here⟩
  simp only [record, WheelRun.next, phase]
  by_cases rotates : 0 < content.rotations_
  · rw [WheelRun.visit_of_rotates here found rotates]
    apply Paired.modify_object noted task
    · exact fun _ _ _ _ _ recorded => recorded
    · exact fun _ _ _ recorded => recorded.of_fun_eq rfl
  · cases callable : content.fun_ with
    | some callback =>
        rw [WheelRun.visit_of_callback here found rotates callable]
        apply (noted.keeps ledger).modify_entry task
        · exact fun _ _ _ _ _ both => both.2.more _
        · rintro stored entry isFound ⟨keeps, recorded⟩
          obtain rfl : content = stored := Option.some.inj (found.symm.trans isFound)
          constructor
          · exact recorded.asks
          · intro _ deleted
            have nothing := keeps.removed deleted held
            rw [callable] at nothing
            cases nothing
          · intro other same _
            rw [callable] at same
            cases same
            exact ⟨run.ticks, List.mem_append_right _ (List.mem_singleton_self _)⟩
    | none =>
        have single := ledger.single trivial found
        rw [WheelRun.visit_of_removed here found rotates callable]
        simp only [phase]
        change Paired _ (run.wheel.afterExec it task).tasks _
        rw [TimeWheel.afterExec_tasks_of_not_repeats found it single]
        exact noted

/-- The step lemma. -/
theorem next (noted : Noted Asks run accepted) (ledger : Ledger (fun _ => True) run accepted)
    {event : WheelRun.Event Callback} (enabled : run.Enabled event)
    (asks : ∀ timeout callback times, event = .addTask timeout callback times →
      Asks callback timeout run.ticks) :
    Noted Asks (run.next event) (record run accepted event) := by
  cases event with
  | addTask timeout callback times => exact noted.addTask (asks _ _ _ rfl) times
  | delTask task => exact noted.delTask ledger task
  | beginTick | endTick => exact noted
  | visit =>
      obtain ⟨it, phase, inside⟩ := enabled.exists
      exact noted.visit ledger phase inside
  | finish =>
      obtain ⟨it, task, phase⟩ := enabled.exists
      obtain ⟨content, found⟩ := ledger.sound.found phase
      have single := ledger.single trivial found
      simp only [WheelRun.next, record, phase]
      change Paired _ (run.wheel.afterExec it task).tasks _
      rw [TimeWheel.afterExec_tasks_of_not_repeats found it single]
      exact noted

theorem executed (noted : Noted Asks run accepted)
    (ledger : Ledger (fun _ => True) run accepted) {task : Nat} {content : Task Callback} {callback : Callback}
    (found : run.wheel.tasks[task]? = some content) (callable : content.fun_ = some callback) :
    ∃ timeout added, Asks callback timeout added ∧
      (added + timeout + 1 ≤ run.ticks → ∃ tick, ⟨tick, task, callback⟩ ∈ run.ran) := by
  have known : task < accepted.length := by
    rw [ledger.paired.length]
    exact (List.getElem?_eq_some_iff.mp found).1
  have recorded := noted.agrees task content _ found (List.getElem?_eq_getElem known)
  have keeps := ledger.keeps trivial found (List.getElem?_eq_getElem known)
  refine ⟨_, _, recorded.asks callback callable, ?_⟩
  intro elapsed
  apply recorded.ran callback callable
  cases deleted : accepted[task].deleted with
  | true => exact recorded.removed (by rw [callable]; exact Option.some_ne_none _) deleted
  | false => exact keeps.once.elapsed elapsed deleted

end Noted

end Timers

end GdRpc.Util
