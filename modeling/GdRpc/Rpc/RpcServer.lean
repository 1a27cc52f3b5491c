import GdRpc.Library.Transition
import GdRpc.Protocol.RpcHeader

/-!
# `RpcServer`

Services and their methods are protobuf's: a method knows how to parse a
request, and `CallMethod` leaves the service with a call whose `done` closure
it runs when it has filled the response. The closure of `NewCallback` holds
the pair and the connection it was made with.
-/

namespace GdRpc.Rpc

open GdRpc.Library

universe u v

/-- What `FindMethodByName` finds; `ParseFromString` is that of a new message
of the method's request type. -/
structure MethodDescriptor (Message : Type u) where
  ParseFromString : Bytes → Option Message

structure Service (Message : Type u) where
  full_name : Bytes
  FindMethodByName : Bytes → Option (MethodDescriptor Message)

/-- The closure over `SendRpcResponse`. Of the pair it keeps the id; the
response is the message the service fills. -/
structure DoneCallback (Connection : Type v) where
  id : Int
  conn : Connection
  deriving DecidableEq, Repr

/-- A call a service has not finished. -/
structure ServiceCall (Connection : Type v) (Message : Type u) where
  request : Message
  done : DoneCallback Connection
  deriving DecidableEq, Repr

/-- What `codec_.send` is handed. -/
structure Sent (Connection : Type v) (Message : Type u) where
  conn : Connection
  header : RpcHeader
  message : Message
  deriving DecidableEq, Repr

/-- The registered services, the calls with the services and, for the record
only, what has been sent. -/
structure RpcServer (Connection : Type v) (Message : Type u) where
  services_ : List (Bytes × Service Message)
  calls : List (ServiceCall Connection Message)
  sent : List (Sent Connection Message)

namespace RpcServer

variable {Connection : Type v} {Message : Type u}

/-- `services_.find` -/
def find (services_ : List (Bytes × Service Message)) (name : Bytes) :
    Option (Service Message) :=
  services_.lookup name

def RegisterService (server : RpcServer Connection Message)
    (service : Service Message) : RpcServer Connection Message :=
  { server with services_ := (service.full_name, service) :: server.services_ }

/-- `service->CallMethod` -/
def CallMethod (server : RpcServer Connection Message) (request : Message)
    (done : DoneCallback Connection) : RpcServer Connection Message :=
  { server with calls := server.calls ++ [⟨request, done⟩] }

/-- What `onRpcHeader` does with a request and the `error` it arrives at. -/
def onRequest (server : RpcServer Connection Message) (conn : Connection)
    (message : RpcHeader) (payload : Bytes) :
    ErrorCode × RpcServer Connection Message :=
  match find server.services_ message.service_name_ with
  | some service =>
      match service.FindMethodByName message.method_name_ with
      | some method =>
          match method.ParseFromString payload with
          | some request =>
              let id : Int := message.msg_id_.toNat
              (.NO_ERROR, server.CallMethod request ⟨id, conn⟩)
          | none => (.INVALID_REQUEST, server)
      | none => (.NO_METHOD, server)
  | none => (.NO_SERVICE, server)

def onRpcHeader (server : RpcServer Connection Message) (conn : Connection)
    (message : RpcHeader) (payload : Bytes) : RpcServer Connection Message :=
  match message.message_type_ with
  | .Request =>
      let (error, server) := server.onRequest conn message payload
      if error ≠ .NO_ERROR then
        -- The code for a response with the error is commented out.
        server
      else
        server
  | _ => server

/-- The header `SendRpcResponse` fills in. -/
def responseHeader (id : Int) : RpcHeader where
  message_type_ := .Response
  msg_id_ := UInt32.ofInt id

def SendRpcResponse (server : RpcServer Connection Message)
    (done : DoneCallback Connection) (response : Message) :
    RpcServer Connection Message :=
  { server with
    sent := server.sent ++ [⟨done.conn, responseHeader done.id, response⟩] }

inductive Event (Connection : Type v) (Message : Type u) where
  | onRpcHeader (conn : Connection) (message : RpcHeader) (payload : Bytes)
  | done (call : Nat) (response : Message)
  deriving DecidableEq, Repr

/-- A service runs a closure once, for a call it has not finished. -/
def Enabled (server : RpcServer Connection Message) :
    Event Connection Message → Prop
  | .onRpcHeader _ _ _ => True
  | .done call _ => call < server.calls.length

instance (server : RpcServer Connection Message) :
    ∀ event, Decidable (server.Enabled event)
  | .onRpcHeader _ _ _ => inferInstanceAs (Decidable True)
  | .done call _ => inferInstanceAs (Decidable (call < server.calls.length))

def next (server : RpcServer Connection Message) :
    Event Connection Message → RpcServer Connection Message
  | .onRpcHeader conn message payload => server.onRpcHeader conn message payload
  | .done call response =>
      match server.calls[call]? with
      | none => server
      | some finished =>
          { server with calls := server.calls.eraseIdx call }.SendRpcResponse
            finished.done response

/-- Services are registered before the server runs. -/
def system (services_ : List (Bytes × Service Message)) :
    System (RpcServer Connection Message) (Event Connection Message) where
  initial server := server = { services_ := services_, calls := [], sent := [] }
  step server event after := server.Enabled event ∧ after = server.next event

end RpcServer

end GdRpc.Rpc
