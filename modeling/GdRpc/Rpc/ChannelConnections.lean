import GdRpc.Library.Transition
import GdRpc.Net.TcpConnection
import GdRpc.Rpc.RpcChannelCli

/-!
# `rpcChannelCli` and its connections

`CallMethod` runs on any thread: it makes the entry under the mutex, and sends
over the connection that `conn_` then is. The loop thread establishes and
closes connections, and its connection callback, for both, is `setConnection`.
An access to `conn_` or to `state_` is one step.
-/

namespace GdRpc.Rpc

open GdRpc.Library GdRpc.Net

universe u v w

namespace RpcChannelCli

variable {Message : Type w} {Response : Type u} {Closure : Type v}

/-- `CallMethod` up to the end of its lock. -/
def enter (cli : RpcChannelCli Message Response Closure) (out : OutstandingCall Response Closure) :
    RpcChannelCli Message Response Closure :=
  { cli with outstandings_ := cli.outstandings_.insert cli.id_ out }

/-- Its `codec_.send`. -/
def handOver (cli : RpcChannelCli Message Response Closure) (header : RpcHeader)
    (request : Message) : RpcChannelCli Message Response Closure :=
  { cli with sent := cli.sent ++ [(header, request)] }

theorem handOver_enter (cli : RpcChannelCli Message Response Closure)
    (call : Call Message Response Closure) :
    (cli.enter call.out).handOver (requestHeader cli.id_ call.service call.method) call.request =
      cli.CallMethod call := rfl

end RpcChannelCli

/-- The `outstandings_` of a channel. -/
abbrev CallEntries (Response : Type u) (Closure : Type v) :=
  AList fun _ : Int => OutstandingCall Response Closure

/-- How far a call of `CallMethod` has come: its request was accepted on a
connection, or it was not and `outstandings_` is what it then was. -/
inductive Progress (Response : Type u) (Closure : Type v) where
  | entered
  | accepted (connection : Nat)
  | dropped (outstandings_ : CallEntries Response Closure)
  deriving DecidableEq

/-- One call of `CallMethod`, with what `outstandings_` was at its beginning. -/
structure ChannelCall (Message : Type w) (Response : Type u) (Closure : Type v) where
  header : RpcHeader
  request : Message
  found : CallEntries Response Closure
  progress : Progress Response Closure

/-- A channel, all calls made of it, and the `state_` of all its connections,
of which `conn_` is one. The loop thread may have a `callback` to make. For the
record, `owner` says whose the entry under a key is. -/
structure ConnectedChannel (Message : Type w) (Response : Type u) (Closure : Type v) where
  cli : RpcChannelCli Message Response Closure
  conn_ : Option Nat
  states : List StateE
  callback : Option Nat
  calls : List (ChannelCall Message Response Closure)
  owner : Int → Option Nat
  nullDereferenced : Bool

namespace ConnectedChannel

variable {Message : Type w} {Response : Type u} {Closure : Type v}

inductive Event (Message : Type w) (Response : Type u) (Closure : Type v) where
  | CallMethod (call : Call Message Response Closure)
  | send (index : Nat)
  | connectEstablished
  | setConnection
  | shutdown (connection : Nat)
  | handleClose (connection : Nat)
  | connectDestroyed (connection : Nat)
  | onRpcHeader (message : RpcHeader) (payload : Bytes)

def new : ConnectedChannel Message Response Closure where
  cli := .new
  conn_ := none
  states := []
  callback := none
  calls := []
  owner _ := none
  nullDereferenced := false

def enter (channel : ConnectedChannel Message Response Closure)
    (call : Call Message Response Closure) : ConnectedChannel Message Response Closure :=
  { channel with
    cli := channel.cli.enter call.out
    calls := channel.calls ++ [{
      header := RpcChannelCli.requestHeader channel.cli.id_ call.service call.method
      request := call.request
      found := channel.cli.outstandings_
      progress := .entered }]
    owner := Function.update channel.owner channel.cli.id_ (some channel.calls.length) }

/-- `send` of the connection drops the request unless it is `kConnected`. -/
def accept (channel : ConnectedChannel Message Response Closure) : Progress Response Closure :=
  match channel.conn_ with
  | some connection =>
      if channel.states[connection]? = some .kConnected then .accepted connection
      else .dropped channel.cli.outstandings_
  | none => .dropped channel.cli.outstandings_

def send (channel : ConnectedChannel Message Response Closure) (index : Nat)
    (call : ChannelCall Message Response Closure) : ConnectedChannel Message Response Closure :=
  { channel with
    cli := channel.cli.handOver call.header call.request
    calls := channel.calls.set index { call with progress := channel.accept }
    nullDereferenced := channel.nullDereferenced || channel.conn_.isNone }

/-- The connection is `kDisconnected` and its callback comes next. -/
def disconnect (channel : ConnectedChannel Message Response Closure) (connection : Nat) :
    ConnectedChannel Message Response Closure :=
  { channel with
    states := channel.states.set connection .kDisconnected
    callback := some connection }

def next (channel : ConnectedChannel Message Response Closure) :
    Event Message Response Closure → ConnectedChannel Message Response Closure
  | .CallMethod call => channel.enter call
  | .send index =>
      match channel.calls[index]? with
      | some call => channel.send index call
      | none => channel
  | .connectEstablished => { channel with
      states := channel.states ++ [.kConnected]
      callback := some channel.states.length }
  | .setConnection => { channel with conn_ := channel.callback, callback := none }
  | .shutdown connection =>
      if channel.states[connection]? = some .kConnected then
        { channel with states := channel.states.set connection .kDisconnecting }
      else channel
  | .handleClose connection => channel.disconnect connection
  | .connectDestroyed connection =>
      if channel.states[connection]? = some .kConnected ∨
          channel.states[connection]? = some .kDisconnecting then
        channel.disconnect connection
      else channel
  | .onRpcHeader message payload =>
      { channel with cli := channel.cli.onRpcHeader message payload }

/-- The call has made its entry and not sent yet. -/
def Entered (channel : ConnectedChannel Message Response Closure) (index : Nat) : Prop :=
  ∃ call ∈ channel.calls[index]?, call.progress = .entered

instance [DecidableEq Response] [DecidableEq Closure]
    (channel : ConnectedChannel Message Response Closure) (index : Nat) :
    Decidable (channel.Entered index) :=
  inferInstanceAs (Decidable (∃ call ∈ channel.calls[index]?, _))

/-- The loop thread makes its callback before it does anything else. A user's
`shutdown` and `forceClose` come from any thread. -/
def Enabled (channel : ConnectedChannel Message Response Closure) :
    Event Message Response Closure → Prop
  | .CallMethod _ => True
  | .send index => channel.Entered index
  | .connectEstablished => channel.callback = none
  | .setConnection => channel.callback ≠ none
  | .shutdown connection => connection < channel.states.length
  | .handleClose connection | .connectDestroyed connection =>
      channel.callback = none ∧ connection < channel.states.length
  | .onRpcHeader _ _ => channel.callback = none

instance [DecidableEq Response] [DecidableEq Closure]
    (channel : ConnectedChannel Message Response Closure)
    (event : Event Message Response Closure) : Decidable (channel.Enabled event) := by
  unfold Enabled
  split <;> infer_instance

def system : System (ConnectedChannel Message Response Closure)
    (Event Message Response Closure) where
  initial channel := channel = new
  step channel event after := channel.Enabled event ∧ after = channel.next event

/-- The request of the call was accepted on the connection. -/
def AcceptedOn (channel : ConnectedChannel Message Response Closure) (index connection : Nat) :
    Prop :=
  ∃ call ∈ channel.calls[index]?, call.progress = .accepted connection

instance [DecidableEq Response] [DecidableEq Closure]
    (channel : ConnectedChannel Message Response Closure) (index connection : Nat) :
    Decidable (channel.AcceptedOn index connection) :=
  inferInstanceAs (Decidable (∃ call ∈ channel.calls[index]?, _))

/-- Every entry belongs to a call whose request was accepted on a connection
that is still `kConnected`, or which has yet to send it. -/
def Answerable (channel : ConnectedChannel Message Response Closure) : Prop :=
  ∀ key ∈ channel.cli.outstandings_, ∃ index ∈ channel.owner key,
    channel.Entered index ∨
    ∃ connection, channel.AcceptedOn index connection ∧
      channel.states[connection]? = some .kConnected

/-- No null pointer has been dereferenced, and a call whose request was not
accepted has left `outstandings_` as it was. -/
structure Sound (channel : ConnectedChannel Message Response Closure) : Prop where
  answerable : channel.Answerable
  nonnull : channel.nullDereferenced = false
  unchanged : ∀ call ∈ channel.calls, ∀ left, call.progress = .dropped left → left = call.found

/-- Requests are sent while `conn_` is connected, and a connection is left only
when no entry belongs to it. -/
def Fit (channel : ConnectedChannel Message Response Closure) :
    Event Message Response Closure → Prop
  | .send _ => ∃ connection ∈ channel.conn_, channel.states[connection]? = some .kConnected
  | .shutdown connection | .handleClose connection | .connectDestroyed connection =>
      ∀ key ∈ channel.cli.outstandings_, ∀ index ∈ channel.owner key,
        ¬ channel.AcceptedOn index connection
  | _ => True

instance [DecidableEq Response] [DecidableEq Closure]
    (channel : ConnectedChannel Message Response Closure)
    (event : Event Message Response Closure) : Decidable (channel.Fit event) := by
  have free : ∀ connection, Decidable (∀ key ∈ channel.cli.outstandings_,
      ∀ index ∈ channel.owner key, ¬ channel.AcceptedOn index connection) := fun connection =>
    inferInstanceAs (Decidable (∀ key ∈ channel.cli.outstandings_.keys, _))
  unfold Fit
  split <;> infer_instance

/-- The runs in which every step is fit. -/
def fitSystem : System (ConnectedChannel Message Response Closure)
    (Event Message Response Closure) where
  initial channel := channel = new
  step channel event after :=
    (channel.Enabled event ∧ channel.Fit event) ∧ after = channel.next event

variable {channel : ConnectedChannel Message Response Closure}

theorem getElem?_append_of_some {Element : Type u} {elements more : List Element} {index : Nat}
    {element : Element} (here : elements[index]? = some element) :
    (elements ++ more)[index]? = some element := by
  rw [List.getElem?_append_left (List.getElem?_eq_some_iff.mp here).1]
  exact here

theorem Answerable.enter (answerable : channel.Answerable)
    (call : Call Message Response Closure) : (channel.enter call).Answerable := by
  intro key membership
  by_cases own : key = channel.cli.id_
  · subst own
    refine ⟨channel.calls.length, by simp [ConnectedChannel.enter], .inl ?_⟩
    simp [Entered, ConnectedChannel.enter]
  · have old : key ∈ channel.cli.outstandings_ := by
      simpa [ConnectedChannel.enter, RpcChannelCli.enter, own] using membership
    obtain ⟨index, owned, waits⟩ := answerable key old
    refine ⟨index, by simpa [ConnectedChannel.enter, own] using owned, ?_⟩
    rcases waits with ⟨other, here, entered⟩ | ⟨connection, ⟨other, here, accepted⟩, connected⟩
    · exact .inl ⟨other, getElem?_append_of_some here, entered⟩
    · exact .inr ⟨connection, ⟨other, getElem?_append_of_some here, accepted⟩, connected⟩

theorem accept_of_connected {connection : Nat} (current : channel.conn_ = some connection)
    (connected : channel.states[connection]? = some .kConnected) :
    channel.accept = .accepted connection := by
  simp only [accept, current, connected, if_true]

theorem Answerable.send (answerable : channel.Answerable) {index : Nat}
    {call : ChannelCall Message Response Closure} (here : channel.calls[index]? = some call)
    {connection : Nat} (current : channel.conn_ = some connection)
    (connected : channel.states[connection]? = some .kConnected) :
    (channel.send index call).Answerable := by
  have bound := (List.getElem?_eq_some_iff.mp here).1
  intro key membership
  obtain ⟨owner, owned, waits⟩ := answerable key membership
  refine ⟨owner, owned, ?_⟩
  by_cases own : owner = index
  · subst own
    exact .inr ⟨connection, ⟨_, List.getElem?_set_self bound,
      accept_of_connected current connected⟩, connected⟩
  · have other : (channel.send index call).calls[owner]? = channel.calls[owner]? :=
      List.getElem?_set_ne (Ne.symm own)
    unfold Entered AcceptedOn at waits ⊢
    rwa [other]

theorem Answerable.connectEstablished (answerable : channel.Answerable) :
    (channel.next .connectEstablished).Answerable := by
  intro key membership
  obtain ⟨index, owned, waits⟩ := answerable key membership
  refine ⟨index, owned, waits.imp_right ?_⟩
  rintro ⟨connection, accepted, connected⟩
  exact ⟨connection, accepted, getElem?_append_of_some connected⟩

theorem Answerable.leave (answerable : channel.Answerable) {connection : Nat}
    (free : ∀ key ∈ channel.cli.outstandings_, ∀ index ∈ channel.owner key,
      ¬ channel.AcceptedOn index connection)
    (state : StateE) (callback : Option Nat) :
    { channel with
      states := channel.states.set connection state
      callback := callback }.Answerable := by
  intro key membership
  obtain ⟨index, owned, waits⟩ := answerable key membership
  refine ⟨index, owned, waits.imp_right ?_⟩
  rintro ⟨other, accepted, connected⟩
  have differs : connection ≠ other := by
    rintro rfl
    exact free key membership index owned accepted
  exact ⟨other, accepted, (List.getElem?_set_ne differs).trans connected⟩

theorem Answerable.onRpcHeader (answerable : channel.Answerable) (message : RpcHeader)
    (payload : Bytes) : (channel.next (.onRpcHeader message payload)).Answerable := by
  have fewer : ∀ key ∈ (channel.cli.onRpcHeader message payload).outstandings_,
      key ∈ channel.cli.outstandings_ := by
    intro key membership
    unfold RpcChannelCli.onRpcHeader at membership
    split at membership
    · dsimp only at membership
      split at membership
      · exact membership
      · exact (AList.mem_erase.mp membership).2
    · exact membership
  exact fun key membership => answerable key (fewer key membership)

/-- What a run of fit steps keeps: the requests have all been accepted. -/
structure Kept (channel : ConnectedChannel Message Response Closure) : Prop where
  answerable : channel.Answerable
  nonnull : channel.nullDereferenced = false
  accepted : ∀ call ∈ channel.calls, ∀ left, call.progress ≠ .dropped left

theorem Kept.send (kept : channel.Kept) {index : Nat}
    {call : ChannelCall Message Response Closure} (here : channel.calls[index]? = some call)
    (fit : channel.Fit (.send index)) : (channel.send index call).Kept := by
  obtain ⟨connection, current, connected⟩ := fit
  refine ⟨kept.answerable.send here current connected, ?_, ?_⟩
  · rw [Option.mem_def] at current
    simp [ConnectedChannel.send, kept.nonnull, current]
  · intro other membership left
    rcases List.mem_or_eq_of_mem_set membership with old | rfl
    · exact kept.accepted other old left
    · simp [accept_of_connected current connected]

theorem kept_next (kept : channel.Kept) {event : Event Message Response Closure}
    (fit : channel.Fit event) : (channel.next event).Kept := by
  obtain ⟨answerable, nonnull, accepted⟩ := id kept
  cases event with
  | CallMethod call =>
      refine ⟨answerable.enter call, nonnull, ?_⟩
      intro other membership left
      rcases List.mem_append.mp membership with old | new
      · exact accepted other old left
      · rw [List.mem_singleton.mp new]
        simp
  | send index =>
      simp only [next]
      split
      next call here => exact kept.send here fit
      next => exact kept
  | connectEstablished => exact ⟨answerable.connectEstablished, nonnull, accepted⟩
  | setConnection => exact ⟨answerable, nonnull, accepted⟩
  | shutdown connection =>
      simp only [next]
      split
      · exact ⟨answerable.leave fit _ _, nonnull, accepted⟩
      · exact kept
  | handleClose connection => exact ⟨answerable.leave fit _ _, nonnull, accepted⟩
  | connectDestroyed connection =>
      simp only [next]
      split
      · exact ⟨answerable.leave fit _ _, nonnull, accepted⟩
      · exact kept
  | onRpcHeader message payload =>
      exact ⟨answerable.onRpcHeader message payload, nonnull, accepted⟩

/-- In every run in which requests are sent while `conn_` is connected, and no
connection with entries of its own is left, no call waits in vain. -/
theorem sound_of_fit {events : List (Event Message Response Closure)}
    (execution : fitSystem.Execution events channel) : channel.Sound := by
  have kept : channel.Kept := by
    apply execution.invariant Kept
    · rintro start rfl
      refine ⟨?_, rfl, ?_⟩
      · intro key membership
        simp [new, RpcChannelCli.new] at membership
      · simp [new]
    · rintro before event after kept ⟨⟨_, fit⟩, rfl⟩
      exact kept_next kept fit
  exact ⟨kept.answerable, kept.nonnull, fun call membership left dropped =>
    absurd dropped (kept.accepted call membership left)⟩

def emptyCall : Call Unit Unit Unit where
  service := []
  method := []
  request := ()
  out := ⟨some (), some ()⟩

/-- A connection is made, a call is answered on it, and then it is closed. -/
theorem sound_of_fit_answered :
    let events : List (Event Unit Unit Unit) :=
      [.connectEstablished, .setConnection, .CallMethod emptyCall, .send 0,
        .onRpcHeader { message_type_ := .Response } [], .handleClose 0, .setConnection]
    (events.foldl next new).Sound := by
  intro events
  have execution : fitSystem.Execution events (events.foldl next new) :=
    System.Execution.foldl fitSystem
      (fun channel event => channel.Enabled event ∧ channel.Fit event)
      (fun _ _ permitted => ⟨permitted, rfl⟩) rfl (by decide +kernel)
  exact sound_of_fit execution

/-- The connection goes down before the answer: the entry stays behind. -/
theorem close_strands_call :
    ¬ ∀ (events : List (Event Unit Unit Unit)) (channel : ConnectedChannel Unit Unit Unit),
      system.Execution events channel → channel.Sound := by
  intro always
  let events : List (Event Unit Unit Unit) :=
    [.connectEstablished, .setConnection, .CallMethod emptyCall, .send 0, .handleClose 0,
      .setConnection]
  have execution : system.Execution events (events.foldl next new) :=
    System.Execution.foldl system Enabled
      (fun _ _ enabled => ⟨enabled, rfl⟩) rfl (by decide +kernel)
  obtain ⟨index, owned, waits⟩ := (always events _ execution).answerable 0 (by decide +kernel)
  obtain rfl : index = 0 := by
    have first : (events.foldl next new).owner 0 = some 0 := by decide +kernel
    rw [Option.mem_def, first] at owned
    exact (Option.some.inj owned).symm
  rcases waits with entered | ⟨connection, accepted, connected⟩
  · exact absurd entered (by decide +kernel)
  · have down : (events.foldl next new).states = [.kDisconnected] := by decide +kernel
    rw [down] at connected
    simp [List.getElem?_cons] at connected

end ConnectedChannel

end GdRpc.Rpc
