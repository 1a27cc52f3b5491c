import GdRpc.Library.Transition
import GdRpc.Net.OutputStream

/-!
# One connection between several threads

The loop thread handles write events and runs functors in batches; it and the
other threads call `send` and `shutdown`. Both calls test `state_` first and
reach `runInLoop` in a second step, so another thread may act in between.
-/

namespace GdRpc.Net

open GdRpc.Library

universe u

/-- A call past its test of `state_` and before its `runInLoop`. -/
inductive Call where
  | send (s : Bytes)
  | shutdown
  deriving DecidableEq, Repr

/-- What the call binds for `runInLoop`. -/
def Call.functor : Call → Functor
  | .send s => .sendInLoop s
  | .shutdown => .shutdownInLoop

/-- The message a functor carries to `sendInLoop`. -/
def Functor.message? : Functor → Option Bytes
  | .sendInLoop s => some s
  | _ => none

@[simp]
theorem Functor.message?_send (s : Bytes) :
    (Call.send s).functor.message? = some s := rfl

@[simp]
theorem Functor.message?_shutdown : Call.shutdown.functor.message? = none := rfl

def Functor.messages (functors : List Functor) : List Bytes :=
  functors.filterMap Functor.message?

/-- The circumstances of one half-close: the messages whose `send` had seen
`kConnected`, those of them that still waited for `sendInLoop`, and the bytes
the kernel had accepted. -/
structure HalfClose where
  observed : List Bytes
  waiting : List Bytes
  accepted : Bytes
  deriving DecidableEq, Repr

/-- `batch` is the rest of the functors `doPendingFunctors` has swapped out,
`none` outside of it; `observed` and `halfCloses` only record. -/
structure ConnectionThreads (Thread : Type u) where
  connection : TcpConnection
  calls : List (Thread × Call)
  batch : Option (List Functor)
  observed : List Bytes
  halfCloses : List HalfClose

namespace ConnectionThreads

variable {Thread : Type u} [DecidableEq Thread]

inductive Event (Thread : Type u) where
  | send (thread : Thread) (s : Bytes)
  | shutdown (thread : Thread)
  | runInLoop (thread : Thread) (call : Call) (result : WriteResult)
  | beginFunctors
  | runFunctor (result : WriteResult)
  | endFunctors
  | handleWrite (result : WriteResult)

/-- The functors still to run, oldest first. -/
def functors (threads : ConnectionThreads Thread) : List Functor :=
  threads.batch.getD [] ++ threads.connection.pending_functors_

omit [DecidableEq Thread] in
theorem functors_queueInLoop (threads : ConnectionThreads Thread)
    (calls : List (Thread × Call)) (functor : Functor) :
    functors { threads with
      calls := calls
      connection := threads.connection.queueInLoop functor } =
        threads.functors ++ [functor] := by
  simp [functors, TcpConnection.queueInLoop]

omit [DecidableEq Thread] in
theorem functors_eq_cons {threads : ConnectionThreads Thread} {functor : Functor}
    {rest : List Functor} (batch : threads.batch = some (functor :: rest)) :
    threads.functors = functor :: functors { threads with batch := some rest } := by
  simp [functors, batch]

/-- The messages on their way to `sendInLoop`. -/
def waiting (threads : ConnectionThreads Thread) : List Bytes :=
  Functor.messages
    (threads.calls.map (fun entry => entry.2.functor) ++ threads.functors)

/-- Put the connection back after the loop thread worked on it, recording a
half-close if it made one. -/
def commit (threads : ConnectionThreads Thread) (connection : TcpConnection) :
    ConnectionThreads Thread :=
  { threads with
    connection := connection
    halfCloses :=
      if connection.shutdownWrites = threads.connection.shutdownWrites then
        threads.halfCloses
      else
        threads.halfCloses ++ [{
          observed := threads.observed
          waiting := threads.waiting
          accepted := connection.accepted }] }

/-- Whether the thread is between two calls of its own. -/
def Idle (threads : ConnectionThreads Thread) (thread : Thread) : Prop :=
  ∀ entry ∈ threads.calls, entry.1 ≠ thread

instance (threads : ConnectionThreads Thread) (thread : Thread) :
    Decidable (threads.Idle thread) :=
  inferInstanceAs (Decidable (∀ entry ∈ threads.calls, entry.1 ≠ thread))

def Enabled (loop : Thread) (threads : ConnectionThreads Thread) :
    Event Thread → Prop
  | .send thread _ => threads.Idle thread
  | .shutdown thread => threads.Idle thread
  | .runInLoop thread call _ => (thread, call) ∈ threads.calls
  | .beginFunctors => threads.Idle loop ∧ threads.batch = none
  | .runFunctor _ => threads.Idle loop ∧ threads.batch.getD [] ≠ []
  | .endFunctors => threads.Idle loop ∧ threads.batch = some []
  | .handleWrite _ => threads.Idle loop ∧ threads.batch = none

instance (loop : Thread) (threads : ConnectionThreads Thread)
    (event : Event Thread) : Decidable (Enabled loop threads event) := by
  cases event <;> unfold Enabled <;> infer_instance

def next (loop : Thread) (threads : ConnectionThreads Thread) :
    Event Thread → ConnectionThreads Thread
  | .send thread s =>
      if threads.connection.state_ = .kConnected then
        { threads with
          calls := threads.calls ++ [(thread, .send s)]
          observed := threads.observed ++ [s] }
      else
        threads
  | .shutdown thread =>
      let (exchanged, connection) :=
        threads.connection.compareExchange .kConnected .kDisconnecting
      if exchanged then
        { threads with
          connection := connection
          calls := threads.calls ++ [(thread, .shutdown)] }
      else
        threads
  | .runInLoop thread call result =>
      let returning := { threads with
        calls := threads.calls.erase (thread, call) }
      if thread = loop then
        returning.commit
          (threads.connection.runFunctor call.functor result)
      else
        { returning with
          connection := threads.connection.queueInLoop call.functor }
  | .beginFunctors =>
      { threads with
        batch := some threads.connection.pending_functors_
        connection := { threads.connection with pending_functors_ := [] } }
  | .runFunctor result =>
      match threads.batch with
      | some (functor :: rest) =>
          { threads with batch := some rest }.commit
            (threads.connection.runFunctor functor result)
      | _ => threads
  | .endFunctors => { threads with batch := none }
  | .handleWrite result =>
      threads.commit (threads.connection.handleWrite result)

/-- An established connection on which nobody has called anything yet. -/
def start (writeComplete highWaterMark : Bool) : ConnectionThreads Thread where
  connection := (TcpConnection.new writeComplete highWaterMark).connectEstablished
  calls := []
  batch := none
  observed := []
  halfCloses := []

/-- The outcome of the write an event may perform. -/
def Event.result? : Event Thread → Option WriteResult
  | .runInLoop _ _ result => some result
  | .runFunctor result => some result
  | .handleWrite result => some result
  | _ => none

/-- All interleavings in which no write fails with `EPIPE` or `ECONNRESET`
before the first half-close. -/
def system (loop : Thread) : System (ConnectionThreads Thread) (Event Thread) where
  initial threads :=
    ∃ writeComplete highWaterMark, threads = start writeComplete highWaterMark
  step threads event after :=
    Enabled loop threads event ∧
    (threads.connection.shutdownWrites = 0 →
      ∀ result, event.result? = some result → ¬ result.Fault) ∧
    after = next loop threads event

end ConnectionThreads

end GdRpc.Net
