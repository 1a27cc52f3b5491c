import GdRpc.Net.Buffer
import GdRpc.Net.Channel

/-!
# `TcpConnection`

One connection as its loop thread sees it, together with what it shares with
the outside: the functors of this connection that wait in the loop's
`pending_functors_`, the bytes the kernel has accepted from it and the calls
it has made to its owner. Each system call takes its outcome as an argument.
-/

namespace GdRpc.Net

open GdRpc.Library

def EWOULDBLOCK : Nat := 11
def EPIPE : Nat := 32
def ECONNRESET : Nat := 104

/-- What `::write` reports: an error, or how far it got in its argument. -/
inductive WriteResult where
  | failed (errno : Nat)
  | wrote (n : Nat)
  deriving DecidableEq, Repr

/-- The prefix of the argument the kernel takes. -/
def WriteResult.taken (result : WriteResult) (argument : Bytes) : Bytes :=
  match result with
  | .failed _ => []
  | .wrote n => argument.take n

/-- The returned `ssize_t`. -/
def WriteResult.value (result : WriteResult) (argument : Bytes) : Int :=
  match result with
  | .failed _ => -1
  | .wrote n => (argument.take n).length

/-- The two errors after which `sendInLoop` gives the message up. -/
def WriteResult.Fault : WriteResult → Prop
  | .failed errno => errno ≠ EWOULDBLOCK ∧ (errno = EPIPE ∨ errno = ECONNRESET)
  | .wrote _ => False

instance (result : WriteResult) : Decidable result.Fault := by
  unfold WriteResult.Fault
  split <;> infer_instance

inductive StateE where
  | kDisconnected
  | kConnecting
  | kConnected
  | kDisconnecting
  deriving DecidableEq, Repr

/-- The functors a connection hands to its loop. -/
inductive Functor where
  | sendInLoop (s : Bytes)
  | shutdownInLoop
  | forceCloseInLoop
  | connectDestroyed
  | writeCompleteCallback
  | highWaterMarkCallback (size : Nat)
  deriving DecidableEq, Repr

/-- The calls a connection makes to the callbacks set by its owner. -/
inductive OwnerCall where
  | connectionCallback (state : StateE)
  | messageCallback
  | closeCallback
  deriving DecidableEq, Repr

structure TcpConnection where
  state_ : StateE
  channel_ : Channel
  inputBuffer_ : Buffer
  outputBuffer_ : Buffer
  writeCompleteCallback_ : Bool
  highWaterMarkCallback_ : Bool
  highWaterMark_ : Nat
  pending_functors_ : List Functor
  accepted : Bytes
  shutdownWrites : Nat
  ownerCalls : List OwnerCall
  deriving DecidableEq, Repr

namespace TcpConnection

/-- The constructor; the two flags say which optional callbacks are set. -/
def new (writeCompleteCallback_ highWaterMarkCallback_ : Bool) : TcpConnection where
  state_ := .kConnecting
  channel_ := .new
  inputBuffer_ := .ofSize Buffer.kInitialSize
  outputBuffer_ := .ofSize Buffer.kInitialSize
  writeCompleteCallback_ := writeCompleteCallback_
  highWaterMarkCallback_ := highWaterMarkCallback_
  highWaterMark_ := 64 * 1024 * 1024
  pending_functors_ := []
  accepted := []
  shutdownWrites := 0
  ownerCalls := []

def queueInLoop (connection : TcpConnection) (functor : Functor) : TcpConnection :=
  { connection with
    pending_functors_ := connection.pending_functors_ ++ [functor] }

def callOwner (connection : TcpConnection) (call : OwnerCall) : TcpConnection :=
  { connection with ownerCalls := connection.ownerCalls ++ [call] }

/-- `state_.compare_exchange_strong(expected, desired)`. -/
def compareExchange (connection : TcpConnection) (expected desired : StateE) :
    Bool × TcpConnection :=
  if connection.state_ = expected then
    (true, { connection with state_ := desired })
  else
    (false, connection)

def connectEstablished (connection : TcpConnection) : TcpConnection :=
  { connection with
    state_ := .kConnected
    channel_ := connection.channel_.enableReading }.callOwner
      (.connectionCallback .kConnected)

/-- The direct write of `sendInLoop`: `nwrote`, `faultError` and the
connection after it. It is attempted only when nothing is queued in front. -/
def writeDirectly (connection : TcpConnection) (s : Bytes) (result : WriteResult) :
    Nat × Bool × TcpConnection :=
  if ¬ connection.channel_.isWriting ∧
      connection.outputBuffer_.readableBytes = 0 then
    if 0 ≤ result.value s then
      let nwrote := (result.taken s).length
      let written := { connection with
        accepted := connection.accepted ++ result.taken s }
      if s.length - nwrote = 0 ∧ connection.writeCompleteCallback_ then
        (nwrote, false, written.queueInLoop .writeCompleteCallback)
      else
        (nwrote, false, written)
    else
      (0, decide result.Fault, connection)
  else
    (0, false, connection)

/-- The second half of `sendInLoop`: queue what the kernel did not take. -/
def bufferRemaining (connection : TcpConnection) (rest : Bytes) : TcpConnection :=
  let oldLen := connection.outputBuffer_.readableBytes
  let warned :=
    if connection.highWaterMark_ ≤ oldLen + rest.length ∧
        oldLen < connection.highWaterMark_ ∧
        connection.highWaterMarkCallback_ then
      connection.queueInLoop (.highWaterMarkCallback (oldLen + rest.length))
    else
      connection
  { warned with
    outputBuffer_ := connection.outputBuffer_.append rest
    channel_ :=
      if connection.channel_.isWriting then connection.channel_
      else connection.channel_.enableWriting }

def sendInLoop (connection : TcpConnection) (s : Bytes) (result : WriteResult) :
    TcpConnection :=
  if connection.state_ = .kDisconnected then
    connection
  else
    let (nwrote, faultError, written) := connection.writeDirectly s result
    if ¬ faultError ∧ 0 < s.length - nwrote then
      written.bufferRemaining (s.drop nwrote)
    else
      written

def shutdownInLoop (connection : TcpConnection) : TcpConnection :=
  if ¬ connection.channel_.isWriting then
    { connection with shutdownWrites := connection.shutdownWrites + 1 }
  else
    connection

/-- `handleWrite` after `writeFd` took `n > 0` bytes: retrieve them, and when
the buffer has drained stop writing and finish a shutdown. -/
def retrieveWritten (connection : TcpConnection) (n : Nat) : TcpConnection :=
  let retrieved := { connection with
    outputBuffer_ := (connection.outputBuffer_.retrieve n).2 }
  if retrieved.outputBuffer_.readableBytes = 0 then
    let idle := { retrieved with
      channel_ := retrieved.channel_.disableWriting }
    let notified :=
      if idle.writeCompleteCallback_ then
        idle.queueInLoop .writeCompleteCallback
      else
        idle
    if notified.state_ = .kDisconnecting then
      notified.shutdownInLoop
    else
      notified
  else
    retrieved

def handleWrite (connection : TcpConnection) (result : WriteResult) :
    TcpConnection :=
  if connection.channel_.isWriting then
    let argument := connection.outputBuffer_.readable
    if 0 < result.value argument then
      { connection with
        accepted := connection.accepted ++ result.taken argument }.retrieveWritten
          (result.taken argument).length
    else
      connection
  else
    connection

/-! ## Closing -/

def handleClose (connection : TcpConnection) : TcpConnection :=
  ({ connection with
    state_ := .kDisconnected
    channel_ := connection.channel_.disableAll }.callOwner
      (.connectionCallback .kDisconnected)).callOwner .closeCallback

/-- The read event; `handleError` only logs. -/
def handleRead (connection : TcpConnection) (result : ReadvResult) : TcpConnection :=
  let (n, _, inputBuffer_) := connection.inputBuffer_.readFd result
  let received := { connection with inputBuffer_ := inputBuffer_ }
  if 0 < n then
    received.callOwner .messageCallback
  else if n = 0 then
    received.handleClose
  else
    received

def forceCloseInLoop (connection : TcpConnection) : TcpConnection :=
  if connection.state_ = .kConnected ∨ connection.state_ = .kDisconnecting then
    connection.handleClose
  else
    connection

/-- The owner's last functor: leave the connected states, if still in one, and
report it. -/
def connectDestroyed (connection : TcpConnection) : TcpConnection :=
  let (connected, fromConnected) :=
    connection.compareExchange .kConnected .kDisconnected
  if connected then
    fromConnected.callOwner (.connectionCallback .kDisconnected)
  else
    let (disconnecting, fromDisconnecting) :=
      connection.compareExchange .kDisconnecting .kDisconnected
    if disconnecting then
      fromDisconnecting.callOwner (.connectionCallback .kDisconnected)
    else
      connection

/-- Run one functor on the loop thread. The two notifications call the user
back; what the user then does with the connection are calls of their own. -/
def runFunctor (connection : TcpConnection) (functor : Functor)
    (result : WriteResult) : TcpConnection :=
  match functor with
  | .sendInLoop s => connection.sendInLoop s result
  | .shutdownInLoop => connection.shutdownInLoop
  | .forceCloseInLoop => connection.forceCloseInLoop
  | .connectDestroyed => connection.connectDestroyed
  | .writeCompleteCallback => connection
  | .highWaterMarkCallback _ => connection

end TcpConnection

end GdRpc.Net
