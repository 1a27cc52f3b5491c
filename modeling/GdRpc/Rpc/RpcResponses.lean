import Mathlib.Data.List.Perm.Basic
import GdRpc.Rpc.RpcServer

/-!
# Which requests are answered

A request that reaches a method of a registered service leaves a closure
behind, and every closure sends one response. No other request is answered.
-/

namespace GdRpc.Rpc

open GdRpc.Library

universe u v

variable {Connection : Type v} {Message : Type u}

namespace RpcServer

/-- A request that has come in: its connection, header and payload. -/
structure Received (Connection : Type v) where
  conn : Connection
  message : RpcHeader
  payload : Bytes
  deriving DecidableEq, Repr

/-- The requests among the headers received, oldest first. -/
def requests (events : List (Event Connection Message)) : List (Received Connection) :=
  events.filterMap fun event =>
    match event with
    | .onRpcHeader conn message payload =>
        if message.message_type_ = .Request then some ⟨conn, message, payload⟩ else none
    | .done _ _ => none

/-- The request names a registered service and one of its methods, and its
payload parses. -/
def Dispatched (services_ : List (Bytes × Service Message))
    (received : Received Connection) : Prop :=
  ∃ service method request,
    find services_ received.message.service_name_ = some service ∧
    service.FindMethodByName received.message.method_name_ = some method ∧
    method.ParseFromString received.payload = some request

/-- The request `CallMethod` gets, if the call comes to that. -/
def dispatch (services_ : List (Bytes × Service Message))
    (received : Received Connection) : Option Message :=
  (find services_ received.message.service_name_).bind fun service =>
    (service.FindMethodByName received.message.method_name_).bind fun method =>
      method.ParseFromString received.payload

theorem dispatched_iff {services_ : List (Bytes × Service Message)}
    {received : Received Connection} :
    Dispatched services_ received ↔ (dispatch services_ received).isSome := by
  simp only [dispatch, Option.isSome_iff_exists, Option.bind_eq_some_iff, Dispatched]
  constructor
  · rintro ⟨service, method, request, found, named, parsed⟩
    exact ⟨request, service, found, method, named, parsed⟩
  · rintro ⟨request, service, found, method, named, parsed⟩
    exact ⟨service, method, request, found, named, parsed⟩

instance (services_ : List (Bytes × Service Message)) (received : Received Connection) :
    Decidable (Dispatched services_ received) :=
  decidable_of_iff _ dispatched_iff.symm

/-- Where a response goes and what identifies it there. -/
structure Answer (Connection : Type v) where
  conn : Connection
  message_type_ : messageType
  msg_id_ : UInt32
  deriving DecidableEq, Repr

/-- The one answer a request is to get. -/
def Received.answer (received : Received Connection) : Answer Connection :=
  ⟨received.conn, .Response, received.message.msg_id_⟩

/-- The answer a closure will send. -/
def pendingAnswer (call : ServiceCall Connection Message) : Answer Connection :=
  ⟨call.done.conn, .Response, UInt32.ofInt call.done.id⟩

def sentAnswer (sent : Sent Connection Message) : Answer Connection :=
  ⟨sent.conn, sent.header.message_type_, sent.header.msg_id_⟩

/-- What has been and will be answered. -/
def answers (server : RpcServer Connection Message) : List (Answer Connection) :=
  server.sent.map sentAnswer ++ server.calls.map pendingAnswer

theorem ofInt_toNat (id : UInt32) : UInt32.ofInt (id.toNat : Int) = id := by
  have small : (id.toNat : Int) % 2 ^ 32 = id.toNat :=
    Int.emod_eq_of_lt (Int.natCast_nonneg _) (by exact_mod_cast id.toNat_lt)
  rw [UInt32.ofInt, small, Int.toNat_natCast]
  exact UInt32.ofNat_toNat

theorem onRequest_spec (server : RpcServer Connection Message)
    (received : Received Connection) :
    let after := (server.onRequest received.conn received.message received.payload).2
    after.services_ = server.services_ ∧
    after.answers = server.answers ++
      if Dispatched server.services_ received then [received.answer] else [] := by
  unfold onRequest
  cases found : find server.services_ received.message.service_name_ with
  | none => simp [dispatched_iff, dispatch, found]
  | some service =>
      cases named : service.FindMethodByName received.message.method_name_ with
      | none => simp [dispatched_iff, dispatch, found, named]
      | some method =>
          cases parsed : method.ParseFromString received.payload with
          | none => simp [dispatched_iff, dispatch, found, named, parsed]
          | some request =>
              simp [dispatched_iff, dispatch, found, named, parsed, CallMethod, answers,
                pendingAnswer, Received.answer, ofInt_toNat]

theorem onRpcHeader_request (server : RpcServer Connection Message) (conn : Connection)
    {message : RpcHeader} (payload : Bytes) (request : message.message_type_ = .Request) :
    server.onRpcHeader conn message payload =
      (server.onRequest conn message payload).2 := by
  simp [onRpcHeader, request]

theorem onRpcHeader_other (server : RpcServer Connection Message) (conn : Connection)
    {message : RpcHeader} (payload : Bytes) (other : message.message_type_ ≠ .Request) :
    server.onRpcHeader conn message payload = server := by
  unfold onRpcHeader
  split
  next request => exact absurd request other
  next => rfl

theorem done_answers (server : RpcServer Connection Message) {call : Nat}
    (enabled : call < server.calls.length) (response : Message) :
    (server.next (.done call response)).services_ = server.services_ ∧
    (server.next (.done call response)).answers.Perm server.answers := by
  have found := List.getElem?_eq_getElem enabled
  simp only [next, found]
  refine ⟨rfl, ?_⟩
  have sentNow : sentAnswer ⟨server.calls[call].done.conn,
      responseHeader server.calls[call].done.id, response⟩ =
        pendingAnswer server.calls[call] := rfl
  change (List.map sentAnswer (server.sent ++ [_]) ++
    List.map pendingAnswer (server.calls.eraseIdx call)).Perm _
  rw [List.map_append, List.append_assoc, List.map_singleton, sentNow,
    List.singleton_append, ← List.map_cons]
  exact ((List.getElem_cons_eraseIdx_perm enabled).map _).append_left _

/-- After any run, what is answered or owed is exactly one answer for every
request that was dispatched. -/
theorem answers_perm {services_ : List (Bytes × Service Message)}
    {events : List (Event Connection Message)} {server : RpcServer Connection Message}
    (execution : (system services_).Execution events server) :
    server.services_ = services_ ∧
    server.answers.Perm (((requests events).filter
      fun received => Dispatched services_ received).map Received.answer) := by
  refine execution.history (fun past server =>
    server.services_ = services_ ∧ server.answers.Perm (((requests past).filter
      fun received => Dispatched services_ received).map Received.answer)) ?_ ?_
  · rintro _ rfl
    exact ⟨rfl, .refl _⟩
  · rintro past server event _ ⟨same, owed⟩ ⟨enabled, rfl⟩
    subst same
    cases event with
    | done call response =>
        obtain ⟨kept, moved⟩ := server.done_answers enabled response
        refine ⟨kept, ?_⟩
        have nothing : requests (past ++ [.done call response]) = requests past := by
          simp [requests]
        rw [nothing]
        exact moved.trans owed
    | onRpcHeader conn message payload =>
        change (server.onRpcHeader conn message payload).services_ = _ ∧
          (server.onRpcHeader conn message payload).answers.Perm _
        by_cases request : message.message_type_ = .Request
        · obtain ⟨kept, answered⟩ := server.onRequest_spec ⟨conn, message, payload⟩
          rw [onRpcHeader_request _ _ _ request]
          refine ⟨kept, ?_⟩
          have another : requests (past ++ [.onRpcHeader conn message payload]) =
              requests past ++ [⟨conn, message, payload⟩] := by
            simp [requests, request]
          rw [answered, another, List.filter_append, List.map_append]
          refine owed.append (.of_eq ?_)
          by_cases dispatched : Dispatched server.services_ ⟨conn, message, payload⟩
          · simp [dispatched]
          · simp [dispatched]
        · rw [onRpcHeader_other _ _ _ request]
          have nothing : requests (past ++ [.onRpcHeader conn message payload]) =
              requests past := by
            simp [requests, request]
          rw [nothing]
          exact ⟨rfl, owed⟩

/-- Once every closure has run, each request has had its one answer exactly
when all of them were dispatched. -/
theorem answered_once_iff {services_ : List (Bytes × Service Message)}
    {events : List (Event Connection Message)} {server : RpcServer Connection Message}
    (execution : (system services_).Execution events server)
    (complete : server.calls = []) :
    (server.sent.map sentAnswer).Perm ((requests events).map Received.answer) ↔
      ∀ received ∈ requests events, Dispatched services_ received := by
  obtain ⟨_, answered⟩ := answers_perm execution
  rw [answers, complete, List.map_nil, List.append_nil] at answered
  constructor
  · intro once
    have length := (answered.symm.trans once).length_eq
    rw [List.length_map, List.length_map, List.length_filter_eq_length_iff] at length
    intro received membership
    simpa using length received membership
  · intro all
    have keeps : (requests events).filter
        (fun received => decide (Dispatched services_ received)) = requests events := by
      apply List.filter_eq_self.mpr
      intro received membership
      simpa using all received membership
    rwa [keeps] at answered

/-- A service that takes back any payload, under the name `e`; its one method
is called `m`. -/
def echoService : Service Bytes where
  full_name := ascii "e"
  FindMethodByName name :=
    if name = ascii "m" then some { ParseFromString := some } else none

def echoHeader : RpcHeader where
  msg_id_ := 7
  service_name_ := ascii "e"
  method_name_ := ascii "m"

/-- Two requests with one id on two connections, finished in the opposite
order. -/
theorem answered_once_iff_two_connections :
    ∃ server : RpcServer Nat Bytes,
      (system [(ascii "e", echoService)]).Execution
        [.onRpcHeader 1 echoHeader [1], .onRpcHeader 2 echoHeader [2],
          .done 1 [2], .done 0 [1]] server ∧
      (server.sent.map sentAnswer).Perm [⟨1, .Response, 7⟩, ⟨2, .Response, 7⟩] := by
  let events : List (Event Nat Bytes) :=
    [.onRpcHeader 1 echoHeader [1], .onRpcHeader 2 echoHeader [2],
      .done 1 [2], .done 0 [1]]
  have execution : (system [(ascii "e", echoService)]).Execution events
      (events.foldl next ⟨[(ascii "e", echoService)], [], []⟩) :=
    System.Execution.foldl (system [(ascii "e", echoService)]) Enabled
      (fun _ _ enabled => ⟨enabled, rfl⟩) rfl (by decide)
  exact ⟨_, execution, (answered_once_iff execution (by decide)).mpr (by decide)⟩

/-- A request for a service nobody has registered is never answered. -/
theorem unknown_service_unanswered :
    ¬ ∀ (services_ : List (Bytes × Service Bytes)) (events : List (Event Nat Bytes))
      (server : RpcServer Nat Bytes), (system services_).Execution events server →
        server.calls = [] →
        (server.sent.map sentAnswer).Perm ((requests events).map Received.answer) := by
  intro answered
  have run := System.Run.single (system []) (⟨[], [], []⟩ : RpcServer Nat Bytes)
    (.onRpcHeader 1 { msg_id_ := 7, service_name_ := ascii "x" } []) ⟨trivial, rfl⟩
  have once := answered _ _ _ ⟨_, rfl, run⟩ rfl
  exact absurd once.length_eq (by decide)

end RpcServer

end GdRpc.Rpc
