import GdRpc.Library.Transition
import GdRpc.Net.Connector

/-!
# `TcpClient`

A client is its connector and the connections made from the channels it hands
over. Everything but `connect` and `enableRetry` happens on the loop thread:
events of the connecting channel, functors, timers, and closed connections.
-/

namespace GdRpc.Net

open GdRpc.Library

/-- A connection made by `newConnection`, and whether it has closed. -/
structure ClientConnection where
  connId : Nat
  fd : Nat
  closed : Bool
  deriving DecidableEq, Repr

/-- `connections` are all ever made, `batch` the rest of the functors swapped
out. -/
structure TcpClient where
  connector_ : Connector
  retry_ : Bool
  connect_ : Bool
  nextConnId_ : Nat
  connection_ : Option Nat
  connections : List ClientConnection
  batch : List Connector.Functor
  deriving DecidableEq, Repr

namespace TcpClient

def new (now : Int) : TcpClient where
  connector_ := .new now
  retry_ := false
  connect_ := false
  nextConnId_ := 1
  connection_ := none
  connections := []
  batch := []

def connect (client : TcpClient) (inLoop : Bool) (savedErrno : Nat) : TcpClient :=
  if client.connect_ then
    client
  else
    { client with
      connect_ := true
      connector_ := client.connector_.start inLoop savedErrno }

def newConnection (client : TcpClient) (channel : ConnectingChannel) : TcpClient :=
  { client with
    nextConnId_ := client.nextConnId_ + 1
    connection_ := some client.nextConnId_
    connections := client.connections ++ [⟨client.nextConnId_, channel.fd, false⟩] }

/-- The connection `connId` is down. -/
def closeConnection (client : TcpClient) (connId : Nat) : TcpClient :=
  { client with
    connections := client.connections.map fun (conn : ClientConnection) =>
      if conn.connId = connId then { conn with closed := true } else conn }

/-- `closeCallback_` of a connection, whichever the client holds by now. -/
def removeConnection (client : TcpClient) (connId : Nat) (savedErrno : Nat) : TcpClient :=
  let connector := client.connector_.queueInLoop (.connectDestroyed connId)
  { client with
    connection_ := none
    connector_ :=
      if client.retry_ ∧ client.connect_ then connector.restart savedErrno else connector }

/-- The callbacks the connector has set on its channel; the others are null. -/
def callHandler (client : TcpClient) (err : Nat) (handler : Channel.Handler) :
    Option TcpClient :=
  match handler with
  | .closeCallback_ | .readCallback_ => some client
  | .errorCallback_ =>
      client.connector_.handleError.map fun connector => { client with connector_ := connector }
  | .writeCallback_ =>
      (client.connector_.handleWrite err).map fun (connector, handed) =>
        match handed with
        | some channel => { client with connector_ := connector }.newConnection channel
        | none => { client with connector_ := connector }

def handleEvent (client : TcpClient) (return_events_ : BitVec 32) (err : Nat) :
    Option TcpClient :=
  (Channel.handleEventWithGuard return_events_).foldlM
    (fun client handler => client.callHandler err handler) client

def runFunctor (client : TcpClient) (functor : Connector.Functor) (savedErrno : Nat) :
    Option TcpClient :=
  match functor with
  | .startInLoop => some { client with
      connector_ := client.connector_.startInLoop savedErrno }
  | .stopInLoop =>
      client.connector_.stopInLoop.map fun connector => { client with connector_ := connector }
  | .resetChannel => some { client with connector_ := client.connector_.resetChannel }
  | .connectDestroyed _ => some client

/-- `savedErrno` is what `::connect` leaves if the event comes to call it,
`err` what `SO_ERROR` reads. -/
inductive Event where
  | enableRetry
  | connect (inLoop : Bool) (savedErrno : Nat)
  | advance (now : Int)
  | handleEvent (return_events_ : BitVec 32) (err : Nat)
  | timer (index : Nat) (savedErrno : Nat)
  | closeCallback (connId : Nat) (savedErrno : Nat)
  | doPendingFunctors
  | runFunctor (savedErrno : Nat)

/-- A channel has events as long as epoll holds its descriptor, a timer fires
when it is due, and any connection may call `closeCallback_`. -/
def Enabled (client : TcpClient) : Event → Prop
  | .enableRetry | .connect _ _ => True
  | .advance now => client.connector_.now ≤ now
  | .handleEvent _ _ =>
      ∃ channel ∈ client.connector_.channel_, channel.poller.registered.isSome
  | .timer index _ =>
      ∃ timer ∈ client.connector_.timers[index]?, timer.1 ≤ client.connector_.now
  | .closeCallback connId _ => ∃ conn ∈ client.connections, conn.connId = connId
  | .doPendingFunctors => client.batch = []
  | .runFunctor _ => client.batch ≠ []

instance (client : TcpClient) : ∀ event, Decidable (client.Enabled event)
  | .enableRetry | .connect _ _ => inferInstanceAs (Decidable True)
  | .advance _ | .handleEvent _ _ | .timer _ _ | .closeCallback _ _ | .doPendingFunctors
  | .runFunctor _ => by
      unfold Enabled
      infer_instance

def next (client : TcpClient) : Event → Option TcpClient
  | .enableRetry => some { client with retry_ := true }
  | .connect inLoop savedErrno => some (client.connect inLoop savedErrno)
  | .advance now => some { client with connector_ := { client.connector_ with now := now } }
  | .handleEvent return_events_ err => client.handleEvent return_events_ err
  | .timer index savedErrno =>
      match client.connector_.timers[index]? with
      | some (_, functor) =>
          { client with
            connector_ := { client.connector_ with
              timers := client.connector_.timers.eraseIdx index } }.runFunctor
                functor savedErrno
      | none => some client
  | .closeCallback connId savedErrno =>
      some ((client.closeConnection connId).removeConnection connId savedErrno)
  | .doPendingFunctors => some { client with
      batch := client.connector_.pending_functors_
      connector_ := { client.connector_ with pending_functors_ := [] } }
  | .runFunctor savedErrno =>
      match client.batch with
      | functor :: batch => { client with batch := batch }.runFunctor functor savedErrno
      | [] => some client

/-- All runs of a client that is never stopped. -/
def system : System TcpClient Event where
  initial client := ∃ now, client = new now
  step client event after := client.Enabled event ∧ client.next event = some after

end TcpClient

end GdRpc.Net
