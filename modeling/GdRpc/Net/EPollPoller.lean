import GdRpc.Net.Channel

/-!
# One channel in the poller

The poller keeps a state for each channel and derives the `epoll_ctl` call
from it. A call the kernel refuses is only logged.
-/

namespace GdRpc.Net

inductive ChannelState where
  | kNew
  | kAdded
  | kDeleted
  deriving DecidableEq, Repr

inductive Operation where
  | EPOLL_CTL_ADD
  | EPOLL_CTL_MOD
  | EPOLL_CTL_DEL
  deriving DecidableEq, Repr

/-- `state_` of a channel, and the mask epoll holds for its descriptor. -/
structure EPollPoller where
  state_ : ChannelState
  registered : Option (BitVec 32)
  deriving DecidableEq, Repr

namespace EPollPoller

/-- A channel the poller has not seen yet. -/
def new : EPollPoller where
  state_ := .kNew
  registered := none

/-- `epoll_ctl` adds only what is not there, and modifies or deletes only what
is. -/
def update (poller : EPollPoller) (operation : Operation) (channel : Channel) :
    EPollPoller :=
  { poller with
    registered :=
      match operation, poller.registered with
      | .EPOLL_CTL_ADD, none => some channel.events_
      | .EPOLL_CTL_ADD, some events => some events
      | .EPOLL_CTL_MOD, none => none
      | .EPOLL_CTL_MOD, some _ => some channel.events_
      | .EPOLL_CTL_DEL, _ => none }

def updateChannel (poller : EPollPoller) (channel : Channel) : EPollPoller :=
  if poller.state_ = .kNew ∨ poller.state_ = .kDeleted then
    { poller with state_ := .kAdded }.update .EPOLL_CTL_ADD channel
  else if channel.isNoneEvent then
    { poller.update .EPOLL_CTL_DEL channel with state_ := .kDeleted }
  else
    poller.update .EPOLL_CTL_MOD channel

def removeChannel (poller : EPollPoller) (channel : Channel) : EPollPoller :=
  if poller.state_ = .kAdded then
    poller.update .EPOLL_CTL_DEL channel
  else
    poller

end EPollPoller

end GdRpc.Net
