import GdRpc.Library.Transition
import GdRpc.Net.Connector

/-!
# A connector between several threads

The functions of `Connector` and of `TcpClient` that use it, with one access to
`connect_`, to `pending_functors_` or to a flag of the client in each step. The
loop thread keeps a list of what it has still to do before the loop goes on;
other threads are in the middle of `connect`, `start` or `stop`.
-/

namespace GdRpc.Net

open GdRpc.Library

namespace Connector

/-- Steps of the loop thread. Some lead to others: `handleWrite` to `handOver`,
`retry` to `queueInLoop` and `runAfter`, the close callback of a connection to
`testRetry` and `testConnect`. -/
inductive Instruction where
  | startInLoop
  | connect
  | stopInLoop
  | handleWrite
  | handOver
  | handleError
  | retry (sockfd : Nat)
  | runAfter
  | queueInLoop (functor : Functor)
  | close (sockfd : Nat)
  | resetChannel
  | restart
  | start
  | connectClient
  | setConnected
  | testRetry
  | testConnect
  deriving DecidableEq, Repr

/-- How far a call on another thread has come: `TcpClient::connect` and
`Connector::start`, which it ends with, `TcpClient::stop` and `Connector::stop`
likewise. A stop of the client notes how often the user had asked for a
connection. -/
inductive Call where
  | connectClient
  | setConnected
  | start
  | queueStart
  | stopClient
  | stop (since : Option Nat)
  | queueStop (since : Option Nat)
  | returned
  deriving DecidableEq, Repr

/-- The four functions a thread may call. -/
def Call.Begins : Call → Prop
  | connectClient | start | stopClient | stop none => True
  | setConnected | queueStart | stop (some _) | queueStop _ | returned => False

instance : ∀ call : Call, Decidable call.Begins
  | .connectClient | .start | .stopClient | .stop none => inferInstanceAs (Decidable True)
  | .setConnected | .queueStart | .stop (some _) | .queueStop _ | .returned =>
      inferInstanceAs (Decidable False)

end Connector

/-- `retry_` and `connect_` are the flags of the client, `handed` the descriptors
given to `newConnectionCallback_`. The last four fields only record: how often
the user has asked for a connection, how many of the functors are still to run
that were queued when a stop returned, whether all of them have run, and whether
an attempt or a connection has come after that. -/
structure ConnectorThreads where
  connector : Connector
  retry_ : Bool
  connect_ : Bool
  batch : List Connector.Functor
  code : List Connector.Instruction
  calls : List Connector.Call
  handed : List Nat
  wishes : Nat
  stopped : Option Nat
  final : Bool
  late : Bool
  deriving DecidableEq, Repr

namespace ConnectorThreads

open Connector (Instruction Functor Call)

def new (now : Int) : ConnectorThreads where
  connector := .new now
  retry_ := false
  connect_ := false
  batch := []
  code := []
  calls := []
  handed := []
  wishes := 0
  stopped := none
  final := false
  late := false

/-- The loop thread goes on with `code`. -/
def push (threads : ConnectorThreads) (code : List Instruction) : ConnectorThreads :=
  { threads with code := code ++ threads.code }

/-- The user asks for a connection. -/
def wish (threads : ConnectorThreads) : ConnectorThreads :=
  { threads with
    wishes := threads.wishes + 1
    stopped := none
    final := false }

/-- An attempt or a connection is made. -/
def make (threads : ConnectorThreads) : ConnectorThreads :=
  { threads with late := threads.late || threads.final }

/-- `::connect` on a new socket leaves `savedErrno`. -/
def connect (threads : ConnectorThreads) (savedErrno : Nat) : ConnectorThreads :=
  let connector := threads.connector
  let sockfd := connector.sockets
  let attempted : Connector := { connector with
    sockets := connector.sockets + 1
    attempts := connector.attempts ++ [⟨connector.now, connector.putOff⟩]
    putOff := none }
  if Connector.Proceeds savedErrno then
    { threads with connector := attempted.connecting sockfd }
  else if Connector.Retries savedErrno then
    { threads with connector := attempted }.push [.retry sockfd]
  else
    { threads with connector := attempted.fail.close sockfd }

/-- `removeAndResetChannel` up to its `queueInLoop`, after which the caller goes
on with `code`. -/
def remove (threads : ConnectorThreads) (channel : ConnectingChannel)
    (code : List Instruction) : ConnectorThreads :=
  { threads with
    connector := { threads.connector with channel_ := some channel.disableAll.remove } }.push
      (.queueInLoop .resetChannel :: code)

/-- One step of the loop thread; `result` is what `::connect` leaves or
`SO_ERROR` reads. Dereferencing a null `channel_` has no successor. -/
def exec (threads : ConnectorThreads) (result : Nat) :
    Instruction → Option ConnectorThreads
  | .startInLoop =>
      some (if threads.connector.connect_ then threads.push [.connect] else threads)
  | .connect => some (threads.make.connect result)
  | .stopInLoop =>
      if threads.connector.state_ = .kConnecting then
        threads.connector.channel_.map fun channel =>
          { threads with
            connector := { threads.connector with state_ := .kDisconnected } }.remove
              channel [.retry channel.fd]
      else some threads
  | .handleWrite =>
      if threads.connector.state_ = .kConnecting then
        threads.connector.channel_.map fun channel =>
          if result ≠ 0 then threads.remove channel [.retry channel.fd]
          else if threads.connector.connect_ then threads.push [.handOver]
          else threads.remove channel [.close channel.fd]
      else some threads
  | .handOver =>
      threads.connector.channel_.map fun channel =>
        { threads.make with
          connector := { threads.connector with state_ := .kConnected, channel_ := none }
          handed := threads.handed ++ [channel.fd] }
  | .handleError =>
      if threads.connector.state_ = .kConnecting then
        threads.connector.channel_.map fun channel =>
          threads.remove channel [.retry channel.fd]
      else some threads
  | .retry sockfd =>
      let threads := { threads with connector :=
        { threads.connector.fail.close sockfd with state_ := .kDisconnected } }
      some (if threads.connector.connect_ then
        threads.push [.queueInLoop .startInLoop, .runAfter] else threads)
  | .runAfter =>
      some { threads with connector :=
        { threads.connector.runAfter threads.connector.retryDelayMs_ .startInLoop with
          retryDelayMs_ :=
            min (threads.connector.retryDelayMs_ * 2) Connector.kMaxRetryDelayMs } }
  | .queueInLoop functor =>
      some { threads with connector := threads.connector.queueInLoop functor }
  | .close sockfd => some { threads with connector := threads.connector.close sockfd }
  | .resetChannel => some { threads with connector := threads.connector.resetChannel }
  | .restart =>
      some ({ threads with connector := { threads.connector with
        state_ := .kDisconnected
        retryDelayMs_ := Connector.kInitRetryDelayMs
        connect_ := true } }.push [.startInLoop])
  | .start =>
      some ({ threads.wish with
        connector := { threads.connector with connect_ := true } }.push [.startInLoop])
  | .connectClient => some (if threads.connect_ then threads else threads.push [.setConnected])
  | .setConnected => some ({ threads.wish with connect_ := true }.push [.start])
  | .testRetry => some (if threads.retry_ then threads.push [.testConnect] else threads)
  | .testConnect => some (if threads.connect_ then threads.push [.restart] else threads)

/-- The steps left to the loop thread if nobody comes in between. -/
def runAlone : Nat → Nat → ConnectorThreads → Option ConnectorThreads
  | 0, _, threads => some threads
  | steps + 1, result, threads =>
      match threads.code with
      | [] => some threads
      | instruction :: code =>
          ({ threads with code := code }.exec result instruction).bind (runAlone steps result)

section Alone

variable {threads : ConnectorThreads}

theorem runAlone_nil (empty : threads.code = []) (steps result : Nat) :
    runAlone steps result threads = some threads := by
  cases steps with
  | zero => rfl
  | succ steps => rw [runAlone, empty]

theorem runAlone_cons {instruction : Instruction} {code : List Instruction}
    (next : threads.code = instruction :: code) (steps result : Nat) :
    runAlone (steps + 1) result threads =
      ({ threads with code := code }.exec result instruction).bind (runAlone steps result) := by
  rw [runAlone, next]

/-- From `retry` on the loop thread does what `Connector.retry` does. -/
theorem runAlone_retry {sockfd : Nat} (code : threads.code = [.retry sockfd])
    (steps result : Nat) :
    (runAlone (steps + 3) result threads).map connector =
      some (threads.connector.retry sockfd) := by
  rw [runAlone_cons code]
  by_cases wanted : threads.connector.connect_
  · simp only [exec, Connector.close, Connector.fail, wanted, if_true, Option.bind_some]
    rw [runAlone_cons rfl, exec, Option.bind_some, runAlone_cons rfl, exec, Option.bind_some,
      runAlone_nil rfl]
    simp [push, Connector.retry, Connector.close, Connector.fail, wanted, Connector.queueInLoop,
      Connector.runAfter]
  · simp only [exec, Connector.close, Connector.fail, wanted, Bool.false_eq_true, if_false,
      Option.bind_some]
    rw [runAlone_nil rfl]
    simp [Connector.retry, Connector.close, Connector.fail, wanted]

theorem runAlone_remove (empty : threads.code = []) (channel : ConnectingChannel)
    (result : Nat) :
    (runAlone 4 result (threads.remove channel [.retry channel.fd])).map connector =
      some (({ threads.connector with
        channel_ := some channel.disableAll.remove }.queueInLoop .resetChannel).retry
          channel.fd) := by
  have begins : (threads.remove channel [.retry channel.fd]).code =
      [.queueInLoop .resetChannel, .retry channel.fd] := by
    simp [remove, push, empty]
  rw [runAlone_cons begins, exec, Option.bind_some]
  exact runAlone_retry rfl 0 result

theorem runAlone_remove_close (empty : threads.code = []) (channel : ConnectingChannel)
    (result : Nat) :
    (runAlone 4 result (threads.remove channel [.close channel.fd])).map connector =
      some (({ threads.connector with
        channel_ := some channel.disableAll.remove }.queueInLoop .resetChannel).close
          channel.fd) := by
  have begins : (threads.remove channel [.close channel.fd]).code =
      [.queueInLoop .resetChannel, .close channel.fd] := by
    simp [remove, push, empty]
  rw [runAlone_cons begins, exec, Option.bind_some]
  rw [runAlone_cons rfl, exec, Option.bind_some, runAlone_nil rfl]
  rfl

theorem runAlone_stopInLoop (code : threads.code = [.stopInLoop]) (result : Nat) :
    (runAlone 5 result threads).map connector = threads.connector.stopInLoop := by
  rw [runAlone_cons code, exec, Connector.stopInLoop]
  split
  next waits =>
    cases present : threads.connector.channel_ with
    | none => simp [Connector.removeAndResetChannel, present]
    | some channel =>
        rw [Option.map_some, Option.bind_some, runAlone_remove rfl]
        simp [Connector.removeAndResetChannel]
  next => rw [Option.bind_some, runAlone_nil rfl, Option.map_some]

theorem runAlone_handleError (code : threads.code = [.handleError]) (result : Nat) :
    (runAlone 5 result threads).map connector = threads.connector.handleError := by
  rw [runAlone_cons code, exec, Connector.handleError]
  split
  next waits =>
    cases present : threads.connector.channel_ with
    | none => simp [Connector.removeAndResetChannel, present]
    | some channel =>
        rw [Option.map_some, Option.bind_some, runAlone_remove rfl]
        simp [Connector.removeAndResetChannel, present]
  next => rw [Option.bind_some, runAlone_nil rfl, Option.map_some]

theorem runAlone_handleWrite (code : threads.code = [.handleWrite]) (result : Nat) :
    (runAlone 5 result threads).map connector =
      (threads.connector.handleWrite result).map Prod.fst := by
  rw [runAlone_cons code, exec, Connector.handleWrite]
  split
  next waits =>
    cases present : threads.connector.channel_ with
    | none => rfl
    | some channel =>
        rw [Option.map_some, Option.bind_some]
        dsimp only
        split
        · rw [runAlone_remove rfl]
          simp [Connector.removeAndResetChannel, present]
        · split
          next wanted =>
            rw [runAlone_cons rfl, exec]
            simp only [push, present, Option.map_some, Option.bind_some]
            rw [runAlone_nil rfl, Option.map_some]
          next =>
            rw [runAlone_remove_close rfl]
            simp [Connector.removeAndResetChannel, present]
  next => rw [Option.bind_some, runAlone_nil rfl, Option.map_some, Option.map_some]

theorem runAlone_startInLoop (code : threads.code = [.startInLoop]) (steps result : Nat) :
    (runAlone (steps + 5) result threads).map connector =
      some (threads.connector.startInLoop result) := by
  rw [runAlone_cons code, exec, Connector.startInLoop]
  split
  next wanted =>
    rw [Option.bind_some, push, runAlone_cons rfl, exec, Option.bind_some]
    unfold ConnectorThreads.connect Connector.connect
    dsimp only
    split
    · rw [runAlone_nil rfl]
      rfl
    · split
      · exact runAlone_retry rfl steps result
      · rw [runAlone_nil rfl]
        rfl
  next => rw [Option.bind_some, runAlone_nil rfl, Option.map_some]

theorem runAlone_restart (code : threads.code = [.restart]) (result : Nat) :
    (runAlone 6 result threads).map connector = some (threads.connector.restart result) := by
  rw [runAlone_cons code, exec, Option.bind_some]
  exact runAlone_startInLoop rfl 0 result

end Alone

/-- When nothing of a callback is left the loop goes on, and a stop may have
become final. -/
def settle (threads : ConnectorThreads) : ConnectorThreads :=
  if threads.stopped = some 0 ∧ threads.code = [] then { threads with final := true }
  else threads

/-- The functors queued before the return of a stop for which nobody has asked
for a connection since. -/
def promise (threads : ConnectorThreads) (since : Option Nat) : ConnectorThreads :=
  if since = some threads.wishes then
    { threads with stopped := some (threads.stopped.getD
      (threads.batch.length + threads.connector.pending_functors_.length)) }
  else threads

/-- The next step of a call on another thread: where it is then, and what it
has done. -/
def proceed (threads : ConnectorThreads) : Call → Call × ConnectorThreads
  | .connectClient => (if threads.connect_ then .returned else .setConnected, threads)
  | .setConnected => (.start, { threads.wish with connect_ := true })
  | .start =>
      (.queueStart, { threads.wish with
        connector := { threads.connector with connect_ := true } })
  | .queueStart =>
      (.returned, { threads with connector := threads.connector.queueInLoop .startInLoop })
  | .stopClient => (.stop (some threads.wishes), { threads with connect_ := false })
  | .stop since =>
      (.queueStop since, { threads with
        connector := { threads.connector with connect_ := false } })
  | .queueStop since =>
      (.returned, { threads with
        connector := threads.connector.queueInLoop .stopInLoop }.promise since)
  | .returned => (.returned, threads)

/-- The callbacks the connector has set on its channel. -/
def handlers (return_events_ : BitVec 32) : List Instruction :=
  (Channel.handleEventWithGuard return_events_).filterMap fun handler =>
    match handler with
    | .errorCallback_ => some .handleError
    | .writeCallback_ => some .handleWrite
    | .closeCallback_ | .readCallback_ => none

/-- What a functor runs. -/
def body : Functor → List Instruction
  | .startInLoop => [.startInLoop]
  | .stopInLoop => [.stopInLoop]
  | .resetChannel => [.resetChannel]
  | .connectDestroyed _ => []

/-- `start` and `connectClient` come from user code on the loop thread, `call`
from other threads; `loop` is the next step of the loop thread. -/
inductive Event where
  | advance (now : Int)
  | enableRetry
  | call (call : Call)
  | proceed (index : Nat)
  | start
  | connectClient
  | restart
  | handleEvent (return_events_ : BitVec 32)
  | timer (index : Nat)
  | closeCallback (connection : Nat)
  | doPendingFunctors
  | runFunctor
  | loop (result : Nat)
  deriving DecidableEq, Repr

/-- The loop begins a callback when nothing of the last one is left. -/
def Enabled (threads : ConnectorThreads) : Event → Prop
  | .advance now => threads.connector.now ≤ now
  | .enableRetry => True
  | .call call => call.Begins
  | .proceed index => index < threads.calls.length
  | .start | .connectClient | .restart => threads.code = []
  | .handleEvent _ => threads.code = [] ∧
      ∃ channel ∈ threads.connector.channel_, channel.poller.registered.isSome
  | .timer index => threads.code = [] ∧
      ∃ timer ∈ threads.connector.timers[index]?, timer.1 ≤ threads.connector.now
  | .closeCallback connection => threads.code = [] ∧ connection < threads.handed.length
  | .doPendingFunctors => threads.code = [] ∧ threads.batch = []
  | .runFunctor => threads.code = [] ∧ threads.batch ≠ []
  | .loop _ => threads.code ≠ []

instance (threads : ConnectorThreads) : ∀ event, Decidable (threads.Enabled event)
  | .advance _ | .enableRetry | .call _ | .proceed _ | .start | .connectClient | .restart
  | .handleEvent _ | .timer _ | .closeCallback _ | .doPendingFunctors | .runFunctor
  | .loop _ => by
      unfold Enabled
      infer_instance

def step (threads : ConnectorThreads) : Event → Option ConnectorThreads
  | .advance now => some { threads with connector := { threads.connector with now := now } }
  | .enableRetry => some { threads with retry_ := true }
  | .call call => some { threads with calls := threads.calls ++ [call] }
  | .proceed index =>
      match threads.calls[index]? with
      | none => some threads
      | some call =>
          let (call, after) := threads.proceed call
          some { after with calls := threads.calls.set index call }
  | .start => some (threads.push [.start])
  | .connectClient => some (threads.push [.connectClient])
  | .restart => some (threads.push [.restart])
  | .handleEvent return_events_ => some (threads.push (handlers return_events_))
  | .timer index =>
      match threads.connector.timers[index]? with
      | none => some threads
      | some (_, functor) =>
          some ({ threads with connector := { threads.connector with
            timers := threads.connector.timers.eraseIdx index } }.push (body functor))
  | .closeCallback connection =>
      some (threads.push [.queueInLoop (.connectDestroyed connection), .testRetry])
  | .doPendingFunctors => some { threads with
      batch := threads.connector.pending_functors_
      connector := { threads.connector with pending_functors_ := [] } }
  | .runFunctor =>
      match threads.batch with
      | [] => some threads
      | functor :: batch => some ({ threads with
          batch := batch
          stopped := threads.stopped.map (· - 1) }.push (body functor))
  | .loop result =>
      match threads.code with
      | [] => some threads
      | instruction :: code => { threads with code := code }.exec result instruction

def next (threads : ConnectorThreads) (event : Event) : Option ConnectorThreads :=
  (threads.step event).map settle

/-- All interleavings of the loop with any calls. -/
def system : System ConnectorThreads Event where
  initial threads := ∃ now, threads = new now
  step threads event after := threads.Enabled event ∧ threads.next event = some after

/-- One step of a run, wherever the step has a successor. -/
def advance (threads : ConnectorThreads) (event : Event) : ConnectorThreads :=
  (threads.next event).getD threads

/-! ## What the handlers of a connecting channel do -/

section Handlers

variable {threads after : ConnectorThreads} {result : Nat}

theorem of_waits {handle : ConnectingChannel → ConnectorThreads}
    (ran : (if threads.connector.state_ = .kConnecting then
      threads.connector.channel_.map handle else some threads) = some after) :
    after = threads ∨
      threads.connector.state_ = .kConnecting ∧
      ∃ channel, threads.connector.channel_ = some channel ∧ after = handle channel := by
  split at ran
  next waits =>
    obtain ⟨channel, present, rfl⟩ := Option.map_eq_some_iff.mp ran
    exact .inr ⟨waits, channel, present, rfl⟩
  next =>
    cases ran
    exact .inl rfl

theorem exec_stopInLoop (ran : threads.exec result .stopInLoop = some after) :
    after = threads ∨
      threads.connector.state_ = .kConnecting ∧
      ∃ channel, threads.connector.channel_ = some channel ∧
        after = { threads with
          connector := { threads.connector with state_ := .kDisconnected } }.remove
            channel [.retry channel.fd] :=
  of_waits ran

theorem exec_handleError (ran : threads.exec result .handleError = some after) :
    after = threads ∨
      threads.connector.state_ = .kConnecting ∧
      ∃ channel, threads.connector.channel_ = some channel ∧
        after = threads.remove channel [.retry channel.fd] :=
  of_waits ran

theorem exec_handleWrite (ran : threads.exec result .handleWrite = some after) :
    after = threads ∨
      threads.connector.state_ = .kConnecting ∧
      ∃ channel, threads.connector.channel_ = some channel ∧
        (result ≠ 0 ∧ after = threads.remove channel [.retry channel.fd] ∨
          result = 0 ∧ threads.connector.connect_ = true ∧ after = threads.push [.handOver] ∨
          result = 0 ∧ threads.connector.connect_ = false ∧
            after = threads.remove channel [.close channel.fd]) := by
  rcases of_waits ran with same | ⟨waits, channel, present, handled⟩
  · exact .inl same
  · refine .inr ⟨waits, channel, present, ?_⟩
    split at handled
    next failed => exact .inl ⟨failed, handled⟩
    next success =>
      have zero : result = 0 := not_not.mp success
      split at handled
      next wanted => exact .inr (.inl ⟨zero, wanted, handled⟩)
      next unwanted => exact .inr (.inr ⟨zero, Bool.eq_false_iff.mpr unwanted, handled⟩)

end Handlers

/-! ## How callbacks begin -/

/-- What a callback begins with, `restart` apart. -/
def Entry : Instruction → Prop
  | .startInLoop | .stopInLoop | .resetChannel | .handleError | .handleWrite | .start
  | .connectClient | .queueInLoop _ | .testRetry => True
  | .connect | .handOver | .retry _ | .runAfter | .close _ | .restart | .setConnected
  | .testConnect => False

theorem entry_of_mem_handlers {return_events_ : BitVec 32} {instruction : Instruction}
    (membership : instruction ∈ handlers return_events_) : Entry instruction := by
  obtain ⟨handler, _, same⟩ := List.mem_filterMap.mp membership
  cases handler with
  | errorCallback_ | writeCallback_ =>
      cases same
      trivial
  | closeCallback_ | readCallback_ => cases same

theorem entry_of_mem_body {functor : Functor} {instruction : Instruction}
    (membership : instruction ∈ body functor) : Entry instruction := by
  cases functor with
  | connectDestroyed connection => cases membership
  | startInLoop | stopInLoop | resetChannel =>
      rw [List.mem_singleton.mp membership]
      trivial

/-- From `before` to `after` a callback may have begun, but no instruction and
no step of another thread's call has been taken. -/
structure Begins (before after : ConnectorThreads) : Prop where
  connect : after.connector.connect_ = before.connector.connect_
  state_ : after.connector.state_ = before.connector.state_
  channel_ : after.connector.channel_ = before.connector.channel_
  sockets : after.connector.sockets = before.connector.sockets
  closed : after.connector.closed = before.connector.closed
  connect_ : after.connect_ = before.connect_
  handed : after.handed = before.handed
  wishes : after.wishes = before.wishes
  stopped : after.stopped.isSome = before.stopped.isSome
  final : after.final = before.final
  late : after.late = before.late
  calls : ∀ call ∈ after.calls, call ∈ before.calls ∨ call.Begins
  code : after.code = before.code ∨
    before.code = [] ∧ ∀ instruction ∈ after.code, Entry instruction

variable {threads after : ConnectorThreads}

theorem Begins.refl (threads : ConnectorThreads) : threads.Begins threads where
  connect := rfl
  state_ := rfl
  channel_ := rfl
  sockets := rfl
  closed := rfl
  connect_ := rfl
  handed := rfl
  wishes := rfl
  stopped := rfl
  final := rfl
  late := rfl
  calls := fun _ membership => .inl membership
  code := .inl rfl

theorem Begins.of_push (empty : threads.code = []) {code : List Instruction}
    (entries : ∀ instruction ∈ code, Entry instruction) :
    threads.Begins (threads.push code) :=
  { Begins.refl threads with
    code := .inr ⟨empty, by simpa [push, empty] using entries⟩ }

/-- What an event does before the loop goes on. -/
inductive Moves (threads : ConnectorThreads) : Event → ConnectorThreads → Prop
  | loop {after : ConnectorThreads} (result : Nat) {instruction : Instruction}
      {code : List Instruction} (here : threads.code = instruction :: code)
      (ran : { threads with code := code }.exec result instruction = some after) :
      Moves threads (.loop result) after
  | proceed (index : Nat) {call : Call} (found : threads.calls[index]? = some call) :
      Moves threads (.proceed index) { (threads.proceed call).2 with
        calls := threads.calls.set index (threads.proceed call).1 }
  | restart (empty : threads.code = []) : Moves threads .restart (threads.push [.restart])
  | begins (event : Event) {after : ConnectorThreads} (begins : threads.Begins after) :
      Moves threads event after

theorem step_moves {event : Event} (enabled : threads.Enabled event)
    (stepped : threads.step event = some after) : threads.Moves event after := by
  cases event with
  | loop result =>
      cases here : threads.code with
      | nil => exact absurd here enabled
      | cons instruction code =>
          simp only [step, here] at stepped
          exact .loop result here stepped
  | proceed index =>
      simp only [step] at stepped
      split at stepped
      next =>
        cases stepped
        exact .begins _ (.refl threads)
      next call found =>
        cases stepped
        exact .proceed index found
  | restart =>
      cases stepped
      exact .restart enabled
  | advance now | enableRetry | doPendingFunctors =>
      cases stepped
      exact .begins _ { Begins.refl threads with }
  | call call =>
      cases stepped
      apply Moves.begins
      refine { Begins.refl threads with calls := ?_ }
      intro other membership
      rcases List.mem_append.mp membership with old | new
      · exact .inl old
      · rw [List.mem_singleton.mp new]
        exact .inr enabled
  | start | connectClient =>
      cases stepped
      exact .begins _ (.of_push enabled (by simp [Entry]))
  | closeCallback connection =>
      cases stepped
      exact .begins _ (.of_push enabled.1 (by simp [Entry]))
  | handleEvent return_events_ =>
      cases stepped
      exact .begins _ (.of_push enabled.1 fun _ => entry_of_mem_handlers)
  | timer index =>
      simp only [step] at stepped
      split at stepped
      next =>
        cases stepped
        exact .begins _ (.refl threads)
      next due functor _ =>
        cases stepped
        exact .begins _ { Begins.of_push enabled.1 fun _ => entry_of_mem_body with }
  | runFunctor =>
      simp only [step] at stepped
      split at stepped
      next =>
        cases stepped
        exact .begins _ (.refl threads)
      next functor batch _ =>
        cases stepped
        exact .begins _ { Begins.of_push enabled.1 fun _ => entry_of_mem_body with
          stopped := Option.isSome_map }

theorem next_moves {event : Event} (enabled : threads.Enabled event)
    (taken : threads.next event = some after) :
    ∃ middle, threads.Moves event middle ∧ after = middle.settle := by
  obtain ⟨middle, stepped, rfl⟩ := Option.map_eq_some_iff.mp taken
  exact ⟨middle, step_moves enabled stepped, rfl⟩

end ConnectorThreads

end GdRpc.Net
