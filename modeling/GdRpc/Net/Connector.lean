import GdRpc.Net.EPollPoller

/-!
# `Connector`

The connecting side of a client on its loop thread, together with the functors
and timers it has left in the loop. Descriptors are numbered in the order of
creation. Dereferencing a null `channel_` has no successor.
-/

namespace GdRpc.Net

def EPERM : Nat := 1
def EINTR : Nat := 4
def EAGAIN : Nat := 11
def EADDRINUSE : Nat := 98
def EADDRNOTAVAIL : Nat := 99
def ENETUNREACH : Nat := 101
def EISCONN : Nat := 106
def ECONNREFUSED : Nat := 111
def EINPROGRESS : Nat := 115

/-- The channel a connector owns, with its descriptor and its part of the
poller. -/
structure ConnectingChannel where
  fd : Nat
  channel : Channel
  poller : EPollPoller
  deriving DecidableEq, Repr

namespace ConnectingChannel

def new (fd : Nat) : ConnectingChannel where
  fd := fd
  channel := .new
  poller := .new

def enableWriting (channel : ConnectingChannel) : ConnectingChannel :=
  { channel with
    channel := channel.channel.enableWriting
    poller := channel.poller.updateChannel channel.channel.enableWriting }

def disableAll (channel : ConnectingChannel) : ConnectingChannel :=
  { channel with
    channel := channel.channel.disableAll
    poller := channel.poller.updateChannel channel.channel.disableAll }

def remove (channel : ConnectingChannel) : ConnectingChannel :=
  { channel with poller := channel.poller.removeChannel channel.channel }

end ConnectingChannel

/-- An attempt to connect: when `::connect` was called, and the time a failure
before it had put it off to. -/
structure Attempt where
  start : Int
  putOff : Option Int
  deriving DecidableEq, Repr

namespace Connector

inductive States where
  | kDisconnected
  | kConnecting
  | kConnected
  deriving DecidableEq, Repr

/-- What connector and client leave in the loop. -/
inductive Functor where
  | startInLoop
  | stopInLoop
  | resetChannel
  | connectDestroyed (connection : Nat)
  deriving DecidableEq, Repr

end Connector

/-- `timers` are the tasks of the timing wheel with the time they are due;
`closed` are the descriptors closed, explicitly or by a channel's destructor;
`attempts`, `putOff` and `entered` only record: the calls of `::connect`, what
the last failure has put the next one off to, and the `state_` and descriptor
of `channel_` that `connecting` has found. -/
structure Connector where
  connect_ : Bool
  state_ : Connector.States
  channel_ : Option ConnectingChannel
  retryDelayMs_ : Int
  pending_functors_ : List Connector.Functor
  timers : List (Int × Connector.Functor)
  now : Int
  sockets : Nat
  closed : List Nat
  attempts : List Attempt
  putOff : Option Int
  entered : List (Connector.States × Option Nat)
  deriving DecidableEq, Repr

namespace Connector

def kMaxRetryDelayMs : Int := 30 * 1000
def kInitRetryDelayMs : Int := 500

def new (now : Int) : Connector where
  connect_ := false
  state_ := .kDisconnected
  channel_ := none
  retryDelayMs_ := kInitRetryDelayMs
  pending_functors_ := []
  timers := []
  now := now
  sockets := 0
  closed := []
  attempts := []
  putOff := none
  entered := []

def queueInLoop (connector : Connector) (functor : Functor) : Connector :=
  { connector with pending_functors_ := connector.pending_functors_ ++ [functor] }

def runAfter (connector : Connector) (afterMs : Int) (functor : Functor) : Connector :=
  { connector with timers := connector.timers ++ [(connector.now + afterMs, functor)] }

def close (connector : Connector) (sockfd : Nat) : Connector :=
  { connector with closed := connector.closed ++ [sockfd] }

/-- `channel_.reset()`: the destructor closes the descriptor. -/
def resetChannel (connector : Connector) : Connector :=
  match connector.channel_ with
  | some channel => { connector.close channel.fd with channel_ := none }
  | none => connector

def connecting (connector : Connector) (sockfd : Nat) : Connector :=
  { connector.resetChannel with
    state_ := .kConnecting
    channel_ := some (ConnectingChannel.new sockfd).enableWriting
    entered := connector.entered ++
      [(connector.state_, connector.channel_.map ConnectingChannel.fd)] }

/-- The attempt has failed. -/
def fail (connector : Connector) : Connector :=
  { connector with putOff := some (connector.now + connector.retryDelayMs_) }

def retry (connector : Connector) (sockfd : Nat) : Connector :=
  let disconnected := { connector.fail.close sockfd with state_ := .kDisconnected }
  if disconnected.connect_ then
    { (disconnected.queueInLoop .startInLoop).runAfter
        disconnected.retryDelayMs_ .startInLoop with
      retryDelayMs_ := min (disconnected.retryDelayMs_ * 2) kMaxRetryDelayMs }
  else
    disconnected

/-- The connection is being set up. -/
def Proceeds (errno : Nat) : Prop :=
  errno = 0 ∨ errno = EINPROGRESS ∨ errno = EINTR ∨ errno = EISCONN

/-- The connector is to try again. -/
def Retries (errno : Nat) : Prop :=
  errno = EAGAIN ∨ errno = EADDRINUSE ∨ errno = EADDRNOTAVAIL ∨
    errno = ECONNREFUSED ∨ errno = ENETUNREACH

instance (errno : Nat) : Decidable (Proceeds errno) := by
  unfold Proceeds
  infer_instance

instance (errno : Nat) : Decidable (Retries errno) := by
  unfold Retries
  infer_instance

/-- `::connect` on a new socket leaves `savedErrno`. -/
def connect (connector : Connector) (savedErrno : Nat) : Connector :=
  let sockfd := connector.sockets
  let attempted : Connector := { connector with
    sockets := connector.sockets + 1
    attempts := connector.attempts ++ [⟨connector.now, connector.putOff⟩]
    putOff := none }
  if Proceeds savedErrno then
    attempted.connecting sockfd
  else if Retries savedErrno then
    attempted.retry sockfd
  else
    attempted.fail.close sockfd

def startInLoop (connector : Connector) (savedErrno : Nat) : Connector :=
  if connector.connect_ then connector.connect savedErrno else connector

/-- `start` runs `startInLoop` at once on the loop thread. -/
def start (connector : Connector) (inLoop : Bool) (savedErrno : Nat) : Connector :=
  let wanted := { connector with connect_ := true }
  if inLoop then wanted.startInLoop savedErrno else wanted.queueInLoop .startInLoop

def restart (connector : Connector) (savedErrno : Nat) : Connector :=
  { connector with
    state_ := .kDisconnected
    retryDelayMs_ := kInitRetryDelayMs
    connect_ := true }.startInLoop savedErrno

def stop (connector : Connector) : Connector :=
  { connector with connect_ := false }.queueInLoop .stopInLoop

/-- The channel leaves the poller, and `channel_` is reset by a functor. -/
def removeAndResetChannel (connector : Connector) : Option (Nat × Connector) :=
  match connector.channel_ with
  | some channel =>
      some (channel.fd, { connector with
        channel_ := some channel.disableAll.remove }.queueInLoop .resetChannel)
  | none => none

def stopInLoop (connector : Connector) : Option Connector :=
  if connector.state_ = .kConnecting then
    let disconnected : Connector := { connector with state_ := .kDisconnected }
    disconnected.removeAndResetChannel.map fun (sockfd, removed) => removed.retry sockfd
  else
    some connector

/-- `handleWrite` when `SO_ERROR` reads `err`; on success the channel is handed
to `newConnectionCallback_`. -/
def handleWrite (connector : Connector) (err : Nat) :
    Option (Connector × Option ConnectingChannel) :=
  if connector.state_ = .kConnecting then
    match connector.channel_ with
    | none => none
    | some channel =>
        if err ≠ 0 then
          connector.removeAndResetChannel.map
            fun (_, removed) => (removed.retry channel.fd, none)
        else if connector.connect_ then
          some ({ connector with state_ := .kConnected, channel_ := none },
            some channel.disableAll)
        else
          connector.removeAndResetChannel.map
            fun (_, removed) => (removed.close channel.fd, none)
  else
    some (connector, none)

def handleError (connector : Connector) : Option Connector :=
  if connector.state_ = .kConnecting then
    connector.removeAndResetChannel.map fun (sockfd, removed) => removed.retry sockfd
  else
    some connector

end Connector

end GdRpc.Net
