import Mathlib.Data.BitVec

/-!
# The interest mask of a `Channel`

`events_` is the mask registered with epoll. Each of the five operations on it
ends in `update()`, which hands the mask to the poller.
-/

namespace GdRpc.Net

structure Channel where
  events_ : BitVec 32
  deriving DecidableEq, Repr

namespace Channel

def EPOLLIN : BitVec 32 := 0x001
def EPOLLPRI : BitVec 32 := 0x002
def EPOLLOUT : BitVec 32 := 0x004
def EPOLLERR : BitVec 32 := 0x008
def EPOLLHUP : BitVec 32 := 0x010

def kNoneEvent : BitVec 32 := 0
def kReadEvent : BitVec 32 := EPOLLIN ||| EPOLLPRI
def kWriteEvent : BitVec 32 := EPOLLOUT

/-- The constructor: no interest yet. -/
def new : Channel where
  events_ := 0

def enableReading (channel : Channel) : Channel where
  events_ := channel.events_ ||| kReadEvent

def disableReading (channel : Channel) : Channel where
  events_ := channel.events_ &&& ~~~kReadEvent

def enableWriting (channel : Channel) : Channel where
  events_ := channel.events_ ||| kWriteEvent

def disableWriting (channel : Channel) : Channel where
  events_ := channel.events_ &&& ~~~kWriteEvent

def disableAll (_channel : Channel) : Channel where
  events_ := kNoneEvent

def isNoneEvent (channel : Channel) : Bool :=
  channel.events_ == kNoneEvent

def isWriting (channel : Channel) : Bool :=
  channel.events_ &&& kWriteEvent != 0

def isReading (channel : Channel) : Bool :=
  channel.events_ &&& kReadEvent != 0

/-- The callbacks of a channel that a returned mask may call for. -/
inductive Handler where
  | closeCallback_
  | errorCallback_
  | readCallback_
  | writeCallback_
  deriving DecidableEq, Repr

/-- The callbacks `handleEventWithGuard` calls for a returned mask, in order.
A hang-up counts only when there is nothing left to read. -/
def handleEventWithGuard (return_events_ : BitVec 32) : List Handler :=
  (if return_events_ &&& EPOLLHUP ≠ 0 ∧ return_events_ &&& EPOLLIN = 0 then
    [.closeCallback_] else []) ++
  (if return_events_ &&& EPOLLERR ≠ 0 then [.errorCallback_] else []) ++
  (if return_events_ &&& kReadEvent ≠ 0 then [.readCallback_] else []) ++
  (if return_events_ &&& kWriteEvent ≠ 0 then [.writeCallback_] else [])

theorem mask_ne_zero_iff (events : BitVec 32) (index : Nat) (small : index < 32) :
    (events &&& BitVec.twoPow 32 index != 0) = events.getLsbD index := by
  rw [BitVec.and_twoPow]
  cases set : events.getLsbD index with
  | false => simp
  | true =>
      have nonzero : BitVec.twoPow 32 index ≠ 0 := by
        intro zero
        have bit := congrArg (fun mask => mask.getLsbD index) zero
        simp [small] at bit
      simpa using nonzero

theorem isWriting_eq (channel : Channel) :
    channel.isWriting = channel.events_.getLsbD 2 :=
  mask_ne_zero_iff channel.events_ 2 (by decide)

@[simp]
theorem isWriting_new : new.isWriting = false := rfl

@[simp]
theorem isWriting_enableReading (channel : Channel) :
    channel.enableReading.isWriting = channel.isWriting := by
  simp [isWriting_eq, enableReading, kReadEvent, EPOLLIN, EPOLLPRI]

@[simp]
theorem isWriting_enableWriting (channel : Channel) :
    channel.enableWriting.isWriting = true := by
  simp [isWriting_eq, enableWriting, kWriteEvent, EPOLLOUT]

@[simp]
theorem isWriting_disableWriting (channel : Channel) :
    channel.disableWriting.isWriting = false := by
  simp [isWriting_eq, disableWriting, kWriteEvent, EPOLLOUT]

@[simp]
theorem isWriting_disableAll (channel : Channel) :
    channel.disableAll.isWriting = false := by
  simp [isWriting, disableAll, kNoneEvent]

theorem isWriting_of_isNoneEvent {channel : Channel} (none : channel.isNoneEvent = true) :
    channel.isWriting = false := by
  have events : channel.events_ = kNoneEvent := by simpa [isNoneEvent] using none
  simp [isWriting, events, kNoneEvent]

end Channel

end GdRpc.Net
