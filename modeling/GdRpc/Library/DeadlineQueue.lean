import GdRpc.Library.Transition

/-!
# A stable deadline queue

Time passes in numbered ticks. A task added after `ticks` completed ticks with
a timeout is due in tick number `ticks + timeout`; a tick runs the tasks due
in it that have not been deleted, in the order in which they were added. Tasks
may be added and deleted between ticks and by the callbacks a tick runs.
-/

namespace GdRpc.Library

universe u

namespace DeadlineQueue

structure Entry (Callback : Type u) where
  deadline : Nat
  callback : Callback
  deleted : Bool
  done : Bool
  deriving DecidableEq, Repr

inductive Phase where
  | idle
  | ticking
  | running
  deriving DecidableEq, Repr

end DeadlineQueue

/-- One execution: the number of the tick, the task and its callback. -/
structure Ran (Callback : Type u) where
  tick : Nat
  task : Nat
  callback : Callback
  deriving DecidableEq, Repr

/-- The entries stand in the order of addition; a task is named by its index. -/
structure DeadlineQueue (Callback : Type u) where
  entries : List (DeadlineQueue.Entry Callback)
  ticks : Nat
  phase : DeadlineQueue.Phase
  ran : List (Ran Callback)

namespace DeadlineQueue

variable {Callback : Type u}

inductive Action (Callback : Type u) where
  | add (timeout : Nat) (callback : Callback)
  | delete (task : Nat)
  | beginTick
  | run
  | return
  | endTick

/-- What the environment sees; which tasks run when is for the queue to say. -/
def Action.observe : Action Callback → Option (Action Callback)
  | .run => none
  | action => some action

def empty : DeadlineQueue Callback where
  entries := []
  ticks := 0
  phase := .idle
  ran := []

/-- Whether a task is to run in the tick with the given number. -/
def Entry.Due (entry : Entry Callback) (tick : Nat) : Prop :=
  entry.deadline = tick ∧ entry.deleted = false ∧ entry.done = false

instance (entry : Entry Callback) (tick : Nat) : Decidable (entry.Due tick) :=
  inferInstanceAs (Decidable (_ ∧ _ ∧ _))

/-- `task` is the first in the order of addition that is due now. -/
def First (queue : DeadlineQueue Callback) (task : Nat) (callback : Callback) :
    Prop :=
  (∃ entry, queue.entries[task]? = some entry ∧ entry.callback = callback ∧
    entry.Due queue.ticks) ∧
  ∀ earlier < task, ∀ entry, queue.entries[earlier]? = some entry →
    ¬ entry.Due queue.ticks

inductive Step (queue : DeadlineQueue Callback) :
    Action Callback → DeadlineQueue Callback → Prop where
  | add (timeout : Nat) (callback : Callback) :
      queue.phase ≠ .ticking →
      Step queue (.add timeout callback) { queue with
        entries := queue.entries ++ [{
          deadline := queue.ticks + timeout
          callback := callback
          deleted := false
          done := false }] }
  | delete (task : Nat) :
      queue.phase ≠ .ticking →
      Step queue (.delete task) { queue with
        entries := queue.entries.modify task
          fun entry => { entry with deleted := true } }
  | beginTick :
      queue.phase = .idle →
      Step queue .beginTick { queue with phase := .ticking }
  | run (task : Nat) (callback : Callback) :
      queue.phase = .ticking → queue.First task callback →
      Step queue .run { queue with
        entries := queue.entries.modify task
          fun entry => { entry with done := true }
        phase := .running
        ran := queue.ran ++ [⟨queue.ticks, task, callback⟩] }
  | return :
      queue.phase = .running →
      Step queue .return { queue with phase := .ticking }
  | endTick :
      queue.phase = .ticking →
      (∀ entry ∈ queue.entries, ¬ entry.Due queue.ticks) →
      Step queue .endTick { queue with
        ticks := queue.ticks + 1
        phase := .idle }

def system : System (DeadlineQueue Callback) (Action Callback) where
  initial queue := queue = empty
  step := Step

end DeadlineQueue

end GdRpc.Library
