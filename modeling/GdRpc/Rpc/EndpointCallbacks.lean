import GdRpc.Library.Transition
import GdRpc.Net.OwnerCalls

/-!
# Which callback a read finds

A new connection copies the callbacks of its `TcpClient` or `TcpServer`. The
server installs `onMessage` from its connection callback, which runs before
the first event is handled; `rpcChannelCli` installs none anywhere.
-/

namespace GdRpc.Rpc

open GdRpc.Library GdRpc.Net

/-- The two ways to run an endpoint. -/
inductive Role where
  | rpcChannelCli
  | RpcServer
  deriving DecidableEq, Repr

/-- The connection callback each endpoint sets: `setConnection` or
`onConnection`. -/
inductive ConnectionCallback where
  | setConnection
  | onConnection
  deriving DecidableEq, Repr

/-- `onMessage` of either class; both pass the connection to `codec_`. -/
inductive MessageCallback where
  | onMessage (role : Role)
  deriving DecidableEq, Repr

/-- What the user, the peer and the loop may do to an established connection. -/
inductive Action where
  | handleRead (result : ReadvResult)
  | handleWrite (result : WriteResult)
  | handleClose
  | send (s : Bytes) (result : WriteResult)
  | shutdown
  | forceClose
  | runFunctor (functor : Net.Functor) (result : WriteResult)

/-- The action on the connection itself. -/
def Action.apply (action : Action) (connection : TcpConnection) : TcpConnection :=
  match action with
  | handleRead result => connection.handleRead result
  | handleWrite result => connection.handleWrite result
  | handleClose => connection.handleClose
  | send s result => connection.sendInLoop s result
  | shutdown => (connection.compareExchange .kConnected .kDisconnecting).2
  | forceClose =>
      let (exchanged, closing) := connection.compareExchange .kConnected .kDisconnecting
      if exchanged then closing.queueInLoop .forceCloseInLoop else closing
  | runFunctor functor result => connection.runFunctor functor result

/-- `handleRead` has read `n > 0` bytes. -/
def Action.Receives : Action → Prop
  | handleRead (.delivered data) => data ≠ []
  | _ => False

instance : ∀ action : Action, Decidable action.Receives
  | .handleRead (.delivered data) => inferInstanceAs (Decidable (data ≠ []))
  | .handleRead (.failed _) | .handleWrite _ | .handleClose | .send _ _ | .shutdown
  | .forceClose | .runFunctor _ _ => inferInstanceAs (Decidable False)

/-- A connection with its callbacks; `reads` records the `messageCallback_`
found by each read of `n > 0` bytes. -/
structure EndpointConnection where
  connection : TcpConnection
  connectionCallback_ : Option ConnectionCallback
  messageCallback_ : Option MessageCallback
  reads : List (Option MessageCallback)
  deriving DecidableEq, Repr

namespace EndpointConnection

/-- `RpcServer::onConnection` -/
def onConnection (conn : EndpointConnection) (state_ : StateE) : EndpointConnection :=
  if state_ = .kConnected then
    { conn with messageCallback_ := some (.onMessage .RpcServer) }
  else
    conn

/-- A call the connection makes to one of its callbacks. -/
def call (conn : EndpointConnection) : OwnerCall → EndpointConnection
  | .connectionCallback state_ =>
      match conn.connectionCallback_ with
      | some .onConnection => conn.onConnection state_
      | some .setConnection => conn
      | none => conn
  | .messageCallback => { conn with reads := conn.reads ++ [conn.messageCallback_] }
  | .closeCallback => conn

/-- The connection becomes `after`, with the calls it makes on the way. -/
def become (conn : EndpointConnection) (after : TcpConnection) : EndpointConnection :=
  (after.ownerCalls.drop conn.connection.ownerCalls.length).foldl call
    { conn with connection := after }

end EndpointConnection

/-- A `TcpClient` with its `rpcChannelCli`, or the `TcpServer` of an
`RpcServer`, with all connections it ever made. -/
structure Endpoint where
  connectionCallback_ : Option ConnectionCallback
  messageCallback_ : Option MessageCallback
  connections : List EndpointConnection

namespace Endpoint

inductive Event where
  | newConnection (writeCompleteCallback_ highWaterMarkCallback_ : Bool)
  | connectEstablished (index : Nat)
  | act (index : Nat) (action : Action)

/-- The constructor of `rpcChannelCli` and the beginning of `RpcServer::Run`
set the connection callback, and no other. -/
def start : Role → Endpoint
  | .rpcChannelCli => ⟨some .setConnection, none, []⟩
  | .RpcServer => ⟨some .onConnection, none, []⟩

/-- The client establishes a new connection at once, the server hands it to
one of its loops. -/
def newConnection (role : Role) (endpoint : Endpoint)
    (writeCompleteCallback_ highWaterMarkCallback_ : Bool) : Endpoint :=
  let conn : EndpointConnection := {
    connection := .new writeCompleteCallback_ highWaterMarkCallback_
    connectionCallback_ := endpoint.connectionCallback_
    messageCallback_ := endpoint.messageCallback_
    reads := [] }
  match role with
  | .rpcChannelCli => { endpoint with
      connections := endpoint.connections ++
        [conn.become conn.connection.connectEstablished] }
  | .RpcServer => { endpoint with connections := endpoint.connections ++ [conn] }

def Enabled (endpoint : Endpoint) : Event → Prop
  | .newConnection _ _ => True
  | .connectEstablished index =>
      ∃ conn ∈ endpoint.connections[index]?, conn.connection.state_ = .kConnecting
  | .act index _ =>
      ∃ conn ∈ endpoint.connections[index]?, conn.connection.state_ ≠ .kConnecting

instance (endpoint : Endpoint) : ∀ event, Decidable (endpoint.Enabled event)
  | .newConnection _ _ => inferInstanceAs (Decidable True)
  | .connectEstablished index => by
      unfold Enabled
      infer_instance
  | .act index _ => by
      unfold Enabled
      infer_instance

def next (role : Role) (endpoint : Endpoint) : Event → Endpoint
  | .newConnection writeCompleteCallback_ highWaterMarkCallback_ =>
      endpoint.newConnection role writeCompleteCallback_ highWaterMarkCallback_
  | .connectEstablished index => { endpoint with
      connections := endpoint.connections.modify index
        fun conn => conn.become conn.connection.connectEstablished }
  | .act index action => { endpoint with
      connections := endpoint.connections.modify index
        fun conn => conn.become (action.apply conn.connection) }

def system (role : Role) : System Endpoint Event where
  initial endpoint := endpoint = start role
  step endpoint event after := endpoint.Enabled event ∧ after = endpoint.next role event

end Endpoint

/-! ## One action -/

theorem Action.apply_change (action : Action) (connection : TcpConnection) :
    ∃ fit, connection.Change (action.apply connection) fit action.Receives := by
  cases action with
  | handleRead result =>
      have received : (∃ data, result = .delivered data ∧ data ≠ []) =
          (Action.handleRead result).Receives := by
        cases result <;> simp [Receives]
      rw [← received]
      exact ⟨_, connection.handleRead_change result⟩
  | handleWrite result => exact ⟨_, (connection.handleWrite_quiet result).change⟩
  | handleClose => exact ⟨_, connection.handleClose_change⟩
  | send s result => exact ⟨_, (connection.sendInLoop_quiet s result).change⟩
  | shutdown => exact ⟨_, connection.compareExchange_change⟩
  | forceClose =>
      refine ⟨True, ?_⟩
      have change := connection.compareExchange_change
      simp only [apply]
      split
      next => exact change.quietly (TcpConnection.queueInLoop_quiet _ _)
      next => exact change
  | runFunctor functor result => exact ⟨_, connection.runFunctor_change functor result⟩

/-! ## One connection -/

/-- The message callback every established connection of the endpoint has. -/
def Role.installed : Role → Option MessageCallback
  | .rpcChannelCli => none
  | .RpcServer => some (.onMessage .RpcServer)

namespace EndpointConnection

/-- The callback the endpoint gives is in place once the connection is
established, and no read has found another one. -/
structure Wired (role : Role) (conn : EndpointConnection) : Prop where
  connectionCallback_ : conn.connectionCallback_ = (Endpoint.start role).connectionCallback_
  messageCallback_ : conn.messageCallback_ =
    if conn.connection.state_ = .kConnecting then none else role.installed
  reads : ∀ callback ∈ conn.reads, callback = role.installed

theorem foldl_call (conn : EndpointConnection) {calls : List OwnerCall}
    (down : ∀ state_, .connectionCallback state_ ∈ calls → state_ = .kDisconnected) :
    calls.foldl call conn = { conn with
      reads := conn.reads ++
        List.replicate (calls.count .messageCallback) conn.messageCallback_ } := by
  induction calls generalizing conn with
  | nil => simp
  | cons first calls inductionHypothesis =>
      have later := fun conn => inductionHypothesis conn
        fun state_ membership => down state_ (List.mem_cons_of_mem _ membership)
      rw [List.foldl_cons, later]
      cases first with
      | connectionCallback state_ =>
          have disconnected := down state_ List.mem_cons_self
          subst disconnected
          have unchanged : conn.call (.connectionCallback .kDisconnected) = conn := by
            simp only [call]
            split <;> simp [onConnection]
          simp [unchanged]
      | messageCallback =>
          simp [call, List.replicate_succ, List.append_assoc]
      | closeCallback => simp [call]

variable {role : Role} {conn : EndpointConnection}

theorem Wired.act (wired : conn.Wired role) {after : TcpConnection} {fit received : Prop}
    (established : conn.connection.state_ ≠ .kConnecting)
    (change : conn.connection.Change after fit received) :
    (conn.become after).Wired role ∧
      ((conn.become after).reads ≠ [] ↔ conn.reads ≠ [] ∨ received) := by
  have stays := change.established established
  obtain ⟨calls, eq, down, messages⟩ := change.calls
  have new : after.ownerCalls.drop conn.connection.ownerCalls.length = calls := by
    rw [eq, List.drop_left]
  have installed : conn.messageCallback_ = role.installed := by
    rw [wired.messageCallback_, if_neg established]
  rw [become, new, foldl_call _ down]
  refine ⟨⟨wired.connectionCallback_, ?_, ?_⟩, ?_⟩
  · rw [if_neg stays]
    exact installed
  · intro callback membership
    rcases List.mem_append.mp membership with old | new
    · exact wired.reads callback old
    · rw [List.eq_of_mem_replicate new]
      exact installed
  · rw [← messages, ← List.count_pos_iff, Nat.pos_iff_ne_zero]
    simp only [Ne, List.append_eq_nil_iff, List.replicate_eq_nil_iff]
    tauto

theorem Wired.connectEstablished (wired : conn.Wired role)
    (connecting : conn.connection.state_ = .kConnecting) :
    (conn.become conn.connection.connectEstablished).Wired role ∧
      (conn.become conn.connection.connectEstablished).reads = conn.reads := by
  have none : conn.messageCallback_ = none := by
    rw [wired.messageCallback_, if_pos connecting]
  have new : conn.connection.connectEstablished.ownerCalls.drop
      conn.connection.ownerCalls.length = [.connectionCallback .kConnected] := by
    simp [TcpConnection.connectEstablished, TcpConnection.callOwner]
  have callback := wired.connectionCallback_
  rw [become, new]
  cases role with
  | rpcChannelCli =>
      have same : ({ conn with connection := conn.connection.connectEstablished } :
          EndpointConnection).call (.connectionCallback .kConnected) =
            { conn with connection := conn.connection.connectEstablished } := by
        simp [call, callback, Endpoint.start]
      simp only [List.foldl_cons, List.foldl_nil, same]
      exact ⟨⟨callback, none, wired.reads⟩, trivial⟩
  | RpcServer =>
      have installs : ({ conn with connection := conn.connection.connectEstablished } :
          EndpointConnection).call (.connectionCallback .kConnected) =
            { conn with
              connection := conn.connection.connectEstablished
              messageCallback_ := Role.installed .RpcServer } := by
        simp [call, callback, Endpoint.start, onConnection, Role.installed]
      simp only [List.foldl_cons, List.foldl_nil, installs]
      exact ⟨⟨callback, rfl, wired.reads⟩, trivial⟩

end EndpointConnection

/-! ## Runs -/

namespace Endpoint

/-- A read of the event has received something. -/
def Event.Receives : Event → Prop
  | .act _ action => action.Receives
  | _ => False

/-- Every connection is wired, and there is a read among them once the history
has one. -/
structure Wired (role : Role) (past : List Event) (endpoint : Endpoint) : Prop where
  connectionCallback_ : endpoint.connectionCallback_ = (start role).connectionCallback_
  messageCallback_ : endpoint.messageCallback_ = none
  connections : ∀ conn ∈ endpoint.connections, conn.Wired role
  reads : (∃ conn ∈ endpoint.connections, conn.reads ≠ []) ↔
    ∃ event ∈ past, event.Receives

variable {role : Role} {past : List Event} {endpoint : Endpoint}

theorem Wired.start (role : Role) : Wired role [] (start role) := by
  refine ⟨rfl, ?_, ?_, ?_⟩ <;> cases role <;> simp [Endpoint.start]

theorem Wired.add (wired : Wired role past endpoint) {conn : EndpointConnection}
    (new : conn.Wired role) (unread : conn.reads = []) {event : Event}
    (silent : ¬ event.Receives) :
    Wired role (past ++ [event])
      { endpoint with connections := endpoint.connections ++ [conn] } := by
  refine ⟨wired.connectionCallback_, wired.messageCallback_, ?_, ?_⟩
  · intro other membership
    rcases List.mem_append.mp membership with old | last
    · exact wired.connections other old
    · rw [List.mem_singleton.mp last]
      exact new
  · simp [or_and_right, exists_or, unread, silent, wired.reads]

theorem Wired.modify (wired : Wired role past endpoint) {index : Nat}
    {conn : EndpointConnection} (found : endpoint.connections[index]? = some conn)
    {change : EndpointConnection → EndpointConnection} {event : Event}
    (changed : (change conn).Wired role ∧
      ((change conn).reads ≠ [] ↔ conn.reads ≠ [] ∨ event.Receives)) :
    Wired role (past ++ [event])
      { endpoint with connections := endpoint.connections.modify index change } := by
  obtain ⟨bound, here⟩ := List.getElem?_eq_some_iff.mp found
  obtain ⟨front, other, back, split, atIndex, modified⟩ :=
    List.exists_of_modify change bound
  have same : other = conn := by
    rw [← here]
    simp [split, ← atIndex]
  subst same
  have all := wired.connections
  have before := wired.reads
  rw [split] at all before
  refine ⟨wired.connectionCallback_, wired.messageCallback_, ?_, ?_⟩
  · rw [modified]
    simp only [List.forall_mem_append, List.forall_mem_cons] at all ⊢
    exact ⟨all.1, changed.1, all.2.2⟩
  · rw [modified]
    have history : (∃ past' ∈ past ++ [event], past'.Receives) ↔
        (∃ past' ∈ past, past'.Receives) ∨ event.Receives := by
      simp [or_and_right, exists_or]
    rw [history, ← before]
    simp only [List.mem_append, List.mem_cons, or_and_right, exists_or,
      exists_eq_left, changed.2]
    simp only [or_assoc, or_comm, or_left_comm]

theorem Wired.newConnection (wired : Wired role past endpoint)
    (writeCompleteCallback_ highWaterMarkCallback_ : Bool) :
    Wired role (past ++ [.newConnection writeCompleteCallback_ highWaterMarkCallback_])
      (endpoint.newConnection role writeCompleteCallback_ highWaterMarkCallback_) := by
  have fresh : EndpointConnection.Wired role {
      connection := .new writeCompleteCallback_ highWaterMarkCallback_
      connectionCallback_ := endpoint.connectionCallback_
      messageCallback_ := endpoint.messageCallback_
      reads := [] } := by
    refine ⟨wired.connectionCallback_, wired.messageCallback_, ?_⟩
    intro callback membership
    simp at membership
  cases role with
  | rpcChannelCli =>
      obtain ⟨established, unread⟩ := fresh.connectEstablished rfl
      exact wired.add established unread id
  | RpcServer => exact wired.add fresh rfl id

theorem Wired.next (wired : Wired role past endpoint) {event : Event}
    (enabled : endpoint.Enabled event) :
    Wired role (past ++ [event]) (endpoint.next role event) := by
  cases event with
  | newConnection writeCompleteCallback_ highWaterMarkCallback_ =>
      exact wired.newConnection _ _
  | connectEstablished index =>
      obtain ⟨conn, found, connecting⟩ := enabled
      have own := wired.connections conn (List.mem_of_getElem? found)
      obtain ⟨established, unread⟩ := own.connectEstablished connecting
      refine wired.modify found ⟨established, ?_⟩
      rw [unread]
      simp [Event.Receives]
  | act index action =>
      obtain ⟨conn, found, established⟩ := enabled
      have own := wired.connections conn (List.mem_of_getElem? found)
      obtain ⟨fit, change⟩ := action.apply_change conn.connection
      exact wired.modify found (own.act established change)

theorem execution_wired {events : List Event}
    (execution : (system role).Execution events endpoint) : Wired role events endpoint := by
  refine execution.history (Wired role) ?_ ?_
  · rintro start rfl
    exact .start role
  · rintro past middle event next wired ⟨enabled, rfl⟩
    exact wired.next enabled

/-- Every read of a connection finds `onMessage` of its endpoint exactly in the
runs of an `RpcServer` and in the runs in which nothing is read. -/
theorem messages_reach_codec_iff {events : List Event}
    (execution : (system role).Execution events endpoint) :
    (∀ conn ∈ endpoint.connections, ∀ callback ∈ conn.reads,
        callback = some (.onMessage role)) ↔
      role = .RpcServer ∨ ∀ event ∈ events, ¬ event.Receives := by
  have wired := execution_wired execution
  cases role with
  | RpcServer =>
      simp only [true_or, iff_true]
      intro conn membership
      exact (wired.connections conn membership).reads
  | rpcChannelCli =>
      have unread : (∀ event ∈ events, ¬ event.Receives) ↔
          ∀ conn ∈ endpoint.connections, conn.reads = [] := by
        have reads := not_congr wired.reads
        push Not at reads
        exact reads.symm
      simp only [reduceCtorEq, false_or, unread]
      constructor
      · intro delivered conn membership
        apply List.eq_nil_iff_forall_not_mem.mpr
        intro callback read
        have empty := (wired.connections conn membership).reads callback read
        have full := delivered conn membership callback read
        rw [empty] at full
        cases full
      · intro none conn membership callback read
        rw [none conn membership] at read
        cases read

theorem execution_of_allowed (role : Role) {events : List Event}
    (allowed : System.Allowed Enabled (next role) (start role) events) :
    (system role).Execution events (events.foldl (next role) (start role)) :=
  System.Execution.foldl (system role) Enabled (fun _ _ enabled => ⟨enabled, rfl⟩) rfl allowed

/-- The server reads once, after its callback has been installed. -/
theorem messages_reach_codec_iff_server :
    let events : List Event :=
      [.newConnection false false, .connectEstablished 0, .act 0 (.handleRead (.delivered [0]))]
    (∀ conn ∈ (events.foldl (next .RpcServer) (start .RpcServer)).connections,
      ∀ callback ∈ conn.reads, callback = some (.onMessage .RpcServer)) ↔
    Role.RpcServer = .RpcServer ∨ ∀ event ∈ events, ¬ event.Receives :=
  messages_reach_codec_iff (execution_of_allowed .RpcServer (by decide))

set_option maxRecDepth 8192 in
/-- The first byte a client receives finds `messageCallback_` empty. -/
theorem messages_reach_codec_fails_client :
    ∃ events endpoint, (system .rpcChannelCli).Execution events endpoint ∧
      ¬ ∀ conn ∈ endpoint.connections, ∀ callback ∈ conn.reads,
        callback = some (.onMessage .rpcChannelCli) := by
  refine ⟨[.newConnection false false, .act 0 (.handleRead (.delivered [0]))], _,
    execution_of_allowed .rpcChannelCli (by decide), ?_⟩
  decide

end Endpoint

end GdRpc.Rpc
