import GdRpc.Library.Bytes
import GdRpc.Library.DeadlineQueue

/-!
# `TimeWheel`

Tasks are shared objects: a slot holds references to them and `delTask` goes
through a `weak_ptr`. The references are indices into `tasks`, the list of all
tasks ever made. The loop of `tick` is cut where a callback runs, so that the
calls the callback makes are events of their own between `visit` and `finish`.
-/

namespace GdRpc.Util

open GdRpc.Library

universe u

/-- A task; `times_` is left uninitialised by the constructor `addTask` uses. -/
structure Task (Callback : Type u) where
  rotations_ : Int
  timeout_ : Int
  times_ : Int
  fun_ : Option Callback
  deriving DecidableEq, Repr

structure TimeWheel (Callback : Type u) where
  slotLen : Nat
  currentSlot_ : Nat
  slots_ : List (List Nat)
  tasks : List (Task Callback)
  deriving DecidableEq, Repr

namespace TimeWheel

variable {Callback : Type u}

def new (msLen : Nat) : TimeWheel Callback where
  slotLen := msLen
  currentSlot_ := 0
  slots_ := List.replicate msLen []
  tasks := []

def slot (wheel : TimeWheel Callback) (index : Nat) : List Nat :=
  wheel.slots_.getD index []

/-- `slots_[index].push_back(task)` -/
def pushBack (wheel : TimeWheel Callback) (index task : Nat) : TimeWheel Callback :=
  { wheel with slots_ := wheel.slots_.modify index (· ++ [task]) }

/-- `slots_[currentSlot_].erase(it)` -/
def erase (wheel : TimeWheel Callback) (it : Nat) : TimeWheel Callback :=
  { wheel with
    slots_ := wheel.slots_.modify wheel.currentSlot_ (·.eraseIdx it) }

def modifyTask (wheel : TimeWheel Callback) (task : Nat)
    (change : Task Callback → Task Callback) : TimeWheel Callback :=
  { wheel with tasks := wheel.tasks.modify task change }

/-- `addTask` for a timeout that is not negative; `times` is what happens to
be in the uninitialised member. -/
def schedule (wheel : TimeWheel Callback) (timeout : Int) (callback : Callback)
    (times : Int) : TimeWheel Callback :=
  let slot := (wheel.currentSlot_ + timeout.tmod wheel.slotLen).tmod wheel.slotLen
  let task := {
    rotations_ := toInt (timeout.tdiv wheel.slotLen)
    timeout_ := toInt timeout
    times_ := times
    fun_ := some callback }
  { wheel with tasks := wheel.tasks ++ [task] }.pushBack slot.toNat
    wheel.tasks.length

/-- `weak_ptr::lock` succeeds while a slot holds the task. -/
def Alive (wheel : TimeWheel Callback) (task : Nat) : Prop :=
  ∃ index < wheel.slots_.length, task ∈ wheel.slot index

instance (wheel : TimeWheel Callback) (task : Nat) : Decidable (wheel.Alive task) :=
  inferInstanceAs (Decidable (∃ index < wheel.slots_.length, task ∈ wheel.slot index))

def delTask (wheel : TimeWheel Callback) (task : Nat) : TimeWheel Callback :=
  if wheel.Alive task then
    wheel.modifyTask task fun content => { content with fun_ := none }
  else
    wheel

/-- The rest of the loop body of `tick` once `exec` has returned: schedule a
repeating task again, then erase the list node at `it`. The new slot comes from
a sum of two `int`s below `slotLen`, which is exact up to a `slotLen` of
`2 ^ 30`. -/
def afterExec (wheel : TimeWheel Callback) (it task : Nat) : TimeWheel Callback :=
  match wheel.tasks[task]? with
  | none => wheel.erase it
  | some content =>
      if 1 < content.times_ ∨ content.times_ = -1 then
        let timeout := content.timeout_
        let slot := (wheel.currentSlot_ + timeout.tmod wheel.slotLen).tmod
          wheel.slotLen
        let again := { content with
          times_ :=
            if 1 < content.times_ then content.times_ - 1 else content.times_
          rotations_ := timeout.tdiv wheel.slotLen }
        ((wheel.modifyTask task fun _ => again).pushBack slot.toNat task).erase it
      else
        wheel.erase it

end TimeWheel

/-- Where the wheel is: outside `tick`, in its loop with the iterator at
position `it`, or inside the callback of the task there. -/
inductive WheelPhase where
  | idle
  | ticking (it : Nat)
  | running (it task : Nat)
  deriving DecidableEq, Repr

namespace WheelPhase

/-- In the loop of `tick`, with an iterator such as `condition` asks. -/
def InLoop (condition : Nat → Prop) : WheelPhase → Prop
  | ticking it => condition it
  | _ => False

def InCallback : WheelPhase → Prop
  | running _ _ => True
  | _ => False

theorem InLoop.exists {condition : Nat → Prop} {phase : WheelPhase}
    (inLoop : phase.InLoop condition) : ∃ it, phase = ticking it ∧ condition it := by
  cases phase with
  | ticking it => exact ⟨it, rfl, inLoop⟩
  | idle | running => exact inLoop.elim

theorem InCallback.exists {phase : WheelPhase} (inCallback : phase.InCallback) :
    ∃ it task, phase = running it task := by
  cases phase with
  | running it task => exact ⟨it, task, rfl⟩
  | idle | ticking => exact inCallback.elim

instance (condition : Nat → Prop) [∀ it, Decidable (condition it)] :
    ∀ phase : WheelPhase, Decidable (phase.InLoop condition)
  | ticking it => inferInstanceAs (Decidable (condition it))
  | idle | running _ _ => inferInstanceAs (Decidable False)

instance : ∀ phase : WheelPhase, Decidable phase.InCallback
  | running _ _ => inferInstanceAs (Decidable True)
  | idle | ticking _ => inferInstanceAs (Decidable False)

end WheelPhase

/-- A wheel in the course of a run; `ticks` counts the completed ticks and
`ran` records the callbacks run, both for the record only. -/
structure WheelRun (Callback : Type u) where
  wheel : TimeWheel Callback
  phase : WheelPhase
  ticks : Nat
  ran : List (Ran Callback)
  deriving DecidableEq, Repr

namespace WheelRun

variable {Callback : Type u}

inductive Event (Callback : Type u) where
  | addTask (timeout : Int) (callback : Callback) (times : Int)
  | delTask (task : Nat)
  | beginTick
  | visit
  | finish
  | endTick

/-- The user's calls come between ticks or from a running callback. -/
def UserActs (run : WheelRun Callback) : Prop :=
  ∀ it, run.phase ≠ .ticking it

def Enabled (run : WheelRun Callback) : Event Callback → Prop
  | .addTask _ _ _ => run.UserActs
  | .delTask _ => run.UserActs
  | .beginTick => run.phase = .idle
  | .visit => run.phase.InLoop fun it =>
      it < (run.wheel.slot run.wheel.currentSlot_).length
  | .finish => run.phase.InCallback
  | .endTick => run.phase.InLoop fun it =>
      (run.wheel.slot run.wheel.currentSlot_).length ≤ it

instance (run : WheelRun Callback) : Decidable run.UserActs :=
  match phase : run.phase with
  | .ticking it => isFalse fun acts => acts it phase
  | .idle => isTrue fun it => by simp [phase]
  | .running _ _ => isTrue fun it => by simp [phase]

instance (run : WheelRun Callback) :
    ∀ event, Decidable (run.Enabled event)
  | .addTask _ _ _ | .delTask _ => inferInstanceAs (Decidable run.UserActs)
  | .beginTick => inferInstanceAs (Decidable (run.phase = .idle))
  | .visit | .endTick => inferInstanceAs (Decidable (run.phase.InLoop _))
  | .finish => inferInstanceAs (Decidable run.phase.InCallback)

/-- `addTask` runs a task with a negative timeout at once. -/
def addTask (run : WheelRun Callback) (timeout : Int) (callback : Callback)
    (times : Int) : WheelRun Callback :=
  if timeout < 0 then
    { run with
      ran := run.ran ++ [⟨run.ticks, run.wheel.tasks.length, callback⟩] }
  else
    { run with wheel := run.wheel.schedule timeout callback times }

/-- The loop body of `tick` at position `it`, up to the call of the callback
if there is one. -/
def visit (run : WheelRun Callback) (it : Nat) : WheelRun Callback :=
  let wheel := run.wheel
  match (wheel.slot wheel.currentSlot_)[it]? with
  | none => run
  | some task =>
      match wheel.tasks[task]? with
      | none => run
      | some content =>
          if 0 < content.rotations_ then
            { run with
              wheel := wheel.modifyTask task fun content =>
                { content with rotations_ := content.rotations_ - 1 }
              phase := .ticking (it + 1) }
          else
            match content.fun_ with
            | some callback =>
                { run with
                  phase := .running it task
                  ran := run.ran ++ [⟨run.ticks, task, callback⟩] }
            | none =>
                { run with wheel := wheel.afterExec it task }

def next (run : WheelRun Callback) : Event Callback → WheelRun Callback
  | .addTask timeout callback times => run.addTask timeout callback times
  | .delTask task => { run with wheel := run.wheel.delTask task }
  | .beginTick => { run with phase := .ticking 0 }
  | .visit =>
      match run.phase with
      | .ticking it => run.visit it
      | _ => run
  | .finish =>
      match run.phase with
      | .running it task =>
          { run with
            wheel := run.wheel.afterExec it task
            phase := .ticking it }
      | _ => run
  | .endTick =>
      { run with
        wheel := { run.wheel with
          currentSlot_ := (run.wheel.currentSlot_ + 1) % run.wheel.slotLen }
        phase := .idle
        ticks := run.ticks + 1 }

/-- A wheel with `msLen` slots before its first tick. -/
def start (msLen : Nat) : WheelRun Callback where
  wheel := .new msLen
  phase := .idle
  ticks := 0
  ran := []

end WheelRun

end GdRpc.Util
