import Mathlib.Data.Fintype.Basic
import Mathlib.Logic.Function.Basic
import GdRpc.Library.Transition
import GdRpc.Net.EPollPoller

/-!
# The channels of one poller

A channel keeps its own `ChannelState`, the poller a map from descriptors to
channels, and the kernel the table of masks registered for descriptors. They
are kept together for any number of channels, which are known by their
addresses; an address and a descriptor may come back once their channel has
been removed.
-/

namespace GdRpc.Net

open GdRpc.Library

universe u

/-- The five operations on a channel that end in `update()`. -/
inductive ChannelOperation where
  | enableReading
  | disableReading
  | enableWriting
  | disableWriting
  | disableAll
  deriving DecidableEq, Repr

def ChannelOperation.apply (operation : ChannelOperation) (channel : Channel) : Channel :=
  match operation with
  | .enableReading => channel.enableReading
  | .disableReading => channel.disableReading
  | .enableWriting => channel.enableWriting
  | .disableWriting => channel.disableWriting
  | .disableAll => channel.disableAll

/-- A channel from its construction to its `remove()`; `updated` records
whether it has come to the poller since. -/
structure PolledChannel where
  fd_ : Int
  channel : Channel
  return_events_ : BitVec 32
  state_ : ChannelState
  updated : Bool
  deriving DecidableEq, Repr

/-- The channel once the poller has dealt with an operation on it. -/
def PolledChannel.operated (channel : PolledChannel) (operation : ChannelOperation) :
    PolledChannel :=
  { channel with
    channel := operation.apply channel.channel
    updated := true
    state_ :=
      if channel.state_ = .kAdded ∧ (operation.apply channel.channel).isNoneEvent then .kDeleted
      else .kAdded }

/-- A call of `epoll_ctl` and whether the kernel has the descriptor then. -/
structure ControlCall where
  operation : Operation
  fd : Int
  present : Bool
  deriving DecidableEq, Repr

/-- Only an absent descriptor is added, only a present one changed or deleted. -/
def ControlCall.Legal (call : ControlCall) : Prop :=
  call.operation = .EPOLL_CTL_ADD ↔ call.present = false

instance : DecidablePred ControlCall.Legal := fun call =>
  inferInstanceAs (Decidable (call.operation = .EPOLL_CTL_ADD ↔ call.present = false))

/-- `interest` is the kernel's table: the mask and the `data.ptr` of each
descriptor in it. -/
structure Polling (Pointer : Type u) where
  inUse : Pointer → Option PolledChannel
  channels_ : Int → Option Pointer
  interest : Int → Option (BitVec 32 × Pointer)
  calls : List ControlCall

namespace Polling

variable {Pointer : Type u} [DecidableEq Pointer]

def new : Polling Pointer where
  inUse := fun _ => none
  channels_ := fun _ => none
  interest := fun _ => none
  calls := []

def put (polling : Polling Pointer) (pointer : Pointer) (channel : PolledChannel) :
    Polling Pointer :=
  { polling with inUse := Function.update polling.inUse pointer (some channel) }

/-- The kernel refuses to add what is there, and to modify or delete what is
not. -/
def update (polling : Polling Pointer) (operation : Operation) (pointer : Pointer)
    (channel : PolledChannel) : Polling Pointer :=
  { polling with
    calls := polling.calls ++
      [⟨operation, channel.fd_, (polling.interest channel.fd_).isSome⟩]
    interest :=
      match operation, polling.interest channel.fd_ with
      | .EPOLL_CTL_ADD, none | .EPOLL_CTL_MOD, some _ =>
          Function.update polling.interest channel.fd_ (some (channel.channel.events_, pointer))
      | .EPOLL_CTL_DEL, some _ => Function.update polling.interest channel.fd_ none
      | _, _ => polling.interest }

def updateChannel (polling : Polling Pointer) (pointer : Pointer) (channel : PolledChannel) :
    Polling Pointer :=
  if channel.state_ = .kNew ∨ channel.state_ = .kDeleted then
    let mapped :=
      if channel.state_ = .kNew then
        { polling with
          channels_ := Function.update polling.channels_ channel.fd_ (some pointer) }
      else
        polling
    let added := { channel with state_ := .kAdded }
    (mapped.put pointer added).update .EPOLL_CTL_ADD pointer added
  else if channel.channel.isNoneEvent then
    (polling.update .EPOLL_CTL_DEL pointer channel).put pointer
      { channel with state_ := .kDeleted }
  else
    polling.update .EPOLL_CTL_MOD pointer channel

def removeChannel (polling : Polling Pointer) (pointer : Pointer) (channel : PolledChannel) :
    Polling Pointer :=
  let erased := { polling with
    channels_ := Function.update polling.channels_ channel.fd_ none }
  if channel.state_ = .kAdded then erased.update .EPOLL_CTL_DEL pointer channel else erased

def hasChannel (polling : Polling Pointer) (pointer : Pointer) (fd : Int) : Bool :=
  polling.channels_ fd == some pointer

/-- What `epoll_wait` puts into `events_` for the descriptors it reports. -/
def epoll_wait (polling : Polling Pointer) (reported : List (Int × BitVec 32)) :
    List (BitVec 32 × Pointer) :=
  reported.filterMap fun (fd, events) =>
    (polling.interest fd).map fun (_, pointer) => (events, pointer)

def set_revents (polling : Polling Pointer) (entry : BitVec 32 × Pointer) : Polling Pointer :=
  match polling.inUse entry.2 with
  | none => polling
  | some channel => polling.put entry.2 { channel with return_events_ := entry.1 }

/-- The second component is `activeChannels`. -/
def fillActiveChannels (polling : Polling Pointer) (events_ : List (BitVec 32 × Pointer)) :
    Polling Pointer × List Pointer :=
  (events_.foldl set_revents polling, events_.map Prod.snd)

/-! ## Runs -/

/-- What happens to the channels. -/
inductive Event (Pointer : Type u) where
  | construct (pointer : Pointer) (fd : Int)
  | operate (pointer : Pointer) (operation : ChannelOperation)
  | remove (pointer : Pointer)
  | poll (reported : List (Int × BitVec 32))
  deriving DecidableEq, Repr

def construct (polling : Polling Pointer) (pointer : Pointer) (fd : Int) : Polling Pointer :=
  polling.put pointer {
    fd_ := fd
    channel := .new
    return_events_ := 0
    state_ := .kNew
    updated := false }

def next (polling : Polling Pointer) : Event Pointer → Polling Pointer
  | .construct pointer fd => polling.construct pointer fd
  | .operate pointer operation =>
      match polling.inUse pointer with
      | none => polling
      | some channel =>
          let channel := { channel with
            channel := operation.apply channel.channel
            updated := true }
          (polling.put pointer channel).updateChannel pointer channel
  | .remove pointer =>
      match polling.inUse pointer with
      | none => polling
      | some channel =>
          let removed := polling.removeChannel pointer channel
          { removed with inUse := Function.update removed.inUse pointer none }
  | .poll reported => (polling.fillActiveChannels (polling.epoll_wait reported)).1

/-- Channels in use together have distinct descriptors, and only a channel in
use is operated on or removed. -/
def Permitted (polling : Polling Pointer) : Event Pointer → Prop
  | .construct pointer fd =>
      polling.inUse pointer = none ∧
        ∀ other, (polling.inUse other).map PolledChannel.fd_ ≠ some fd
  | .operate pointer _ | .remove pointer => polling.inUse pointer ≠ none
  | .poll _ => True

/-! ## What is kept together -/

/-- The entries of the kernel and of `channels_` for the descriptor of a
channel are those its state calls for. -/
structure Agrees (pointer : Pointer) (channel : PolledChannel)
    (registered : Option (BitVec 32 × Pointer)) (mapped : Option Pointer) : Prop where
  registered : registered =
    if channel.state_ = .kAdded then some (channel.channel.events_, pointer) else none
  mapped : mapped = if channel.updated then some pointer else none
  seen : channel.state_ = .kNew ↔ channel.updated = false

structure Consistent (polling : Polling Pointer) : Prop where
  agrees : ∀ pointer channel, polling.inUse pointer = some channel →
    Agrees pointer channel (polling.interest channel.fd_) (polling.channels_ channel.fd_)
  distinct : ∀ pointer channel other another, polling.inUse pointer = some channel →
    polling.inUse other = some another → channel.fd_ = another.fd_ → pointer = other
  owned : ∀ fd events pointer, polling.interest fd = some (events, pointer) →
    (polling.inUse pointer).map PolledChannel.fd_ = some fd
  held : ∀ fd pointer, polling.channels_ fd = some pointer →
    (polling.inUse pointer).map PolledChannel.fd_ = some fd
  legal : ∀ call ∈ polling.calls, call.Legal

omit [DecidableEq Pointer] in
theorem new_consistent : (new : Polling Pointer).Consistent where
  agrees := by simp [new]
  distinct := by simp [new]
  owned := by simp [new]
  held := by simp [new]
  legal := by simp [new]

/-- What a channel, or its absence, calls for in the two entries of its
descriptor. -/
def Settles (pointer : Pointer) (fd : Int) (registered : Option (BitVec 32 × Pointer))
    (mapped : Option Pointer) : Option PolledChannel → Prop
  | none => registered = none ∧ mapped = none
  | some channel => channel.fd_ = fd ∧ Agrees pointer channel registered mapped

omit [DecidableEq Pointer] in
theorem Settles.registered {pointer other : Pointer} {fd : Int} {events : BitVec 32}
    {mapped : Option Pointer} {slot : Option PolledChannel}
    (settles : Settles pointer fd (some (events, other)) mapped slot) :
    other = pointer ∧ slot.map PolledChannel.fd_ = some fd := by
  cases slot with
  | none => cases settles.1
  | some channel =>
      obtain ⟨same, agrees⟩ := settles
      have entry := agrees.registered
      split at entry
      · exact ⟨(Prod.mk.inj (Option.some.inj entry)).2, congrArg some same⟩
      · cases entry

omit [DecidableEq Pointer] in
theorem Settles.mapped {pointer other : Pointer} {fd : Int}
    {registered : Option (BitVec 32 × Pointer)} {slot : Option PolledChannel}
    (settles : Settles pointer fd registered (some other) slot) :
    other = pointer ∧ slot.map PolledChannel.fd_ = some fd := by
  cases slot with
  | none => cases settles.2
  | some channel =>
      obtain ⟨same, agrees⟩ := settles
      have entry := agrees.mapped
      split at entry
      · exact ⟨Option.some.inj entry, congrArg some same⟩
      · cases entry

/-- The frame rule: a step changes one channel and the entries of one
descriptor, which is that of no other channel. -/
theorem Consistent.frame {polling after : Polling Pointer} (consistent : polling.Consistent)
    {pointer : Pointer} {fd : Int}
    (own : ∀ other, (polling.inUse other).map PolledChannel.fd_ = some fd → other = pointer)
    (was : ∀ channel, polling.inUse pointer = some channel → channel.fd_ = fd)
    {slot : Option PolledChannel} {registered : Option (BitVec 32 × Pointer)}
    {mapped : Option Pointer} (settles : Settles pointer fd registered mapped slot)
    (inUse : after.inUse = Function.update polling.inUse pointer slot)
    (interest : after.interest = Function.update polling.interest fd registered)
    (channels : after.channels_ = Function.update polling.channels_ fd mapped)
    (legal : ∀ call ∈ after.calls, call.Legal) :
    after.Consistent := by
  -- a channel with another descriptor is another channel, and is as it was
  have elsewhere : ∀ other another, other ≠ fd →
      (polling.inUse another).map PolledChannel.fd_ = some other →
      (after.inUse another).map PolledChannel.fd_ = some other := by
    intro other another apart used
    have different : another ≠ pointer := by
      rintro rfl
      obtain ⟨channel, present, same⟩ := Option.map_eq_some_iff.mp used
      exact apart (same.symm.trans (was channel present))
    rw [inUse, Function.update_of_ne different]
    exact used
  have apart : ∀ other another, other ≠ pointer → polling.inUse other = some another →
      another.fd_ ≠ fd := by
    intro other another different used same
    apply different (own other _)
    rw [used, Option.map_some, same]
  constructor
  · intro other another used
    rw [inUse] at used
    by_cases same : other = pointer
    · subst same
      rw [Function.update_self] at used
      rw [used] at settles
      rw [interest, channels, settles.1, Function.update_self, Function.update_self]
      exact settles.2
    · rw [Function.update_of_ne same] at used
      have different := apart other another same used
      rw [interest, channels, Function.update_of_ne different, Function.update_of_ne different]
      exact consistent.agrees other another used
  · intro first channel second another one two equal
    rw [inUse] at one two
    by_cases firstOwn : first = pointer <;> by_cases secondOwn : second = pointer
    · rw [firstOwn, secondOwn]
    · subst firstOwn
      rw [Function.update_self] at one
      rw [Function.update_of_ne secondOwn] at two
      rw [one] at settles
      exact absurd (equal.symm.trans settles.1) (apart second another secondOwn two)
    · subst secondOwn
      rw [Function.update_self] at two
      rw [Function.update_of_ne firstOwn] at one
      rw [two] at settles
      exact absurd (equal.trans settles.1) (apart first channel firstOwn one)
    · rw [Function.update_of_ne firstOwn] at one
      rw [Function.update_of_ne secondOwn] at two
      exact consistent.distinct first channel second another one two equal
  · intro other events another entry
    rw [interest] at entry
    by_cases same : other = fd
    · subst same
      rw [Function.update_self] at entry
      rw [entry] at settles
      obtain ⟨rfl, fits⟩ := settles.registered
      rw [inUse, Function.update_self]
      exact fits
    · rw [Function.update_of_ne same] at entry
      exact elsewhere other another same (consistent.owned other events another entry)
  · intro other another entry
    rw [channels] at entry
    by_cases same : other = fd
    · subst same
      rw [Function.update_self] at entry
      rw [entry] at settles
      obtain ⟨rfl, fits⟩ := settles.mapped
      rw [inUse, Function.update_self]
      exact fits
    · rw [Function.update_of_ne same] at entry
      exact elsewhere other another same (consistent.held other another entry)
  · exact legal

omit [DecidableEq Pointer] in
theorem Consistent.own {polling : Polling Pointer} (consistent : polling.Consistent)
    {pointer : Pointer} {channel : PolledChannel}
    (present : polling.inUse pointer = some channel) (other : Pointer)
    (used : (polling.inUse other).map PolledChannel.fd_ = some channel.fd_) :
    other = pointer := by
  obtain ⟨another, there, same⟩ := Option.map_eq_some_iff.mp used
  exact consistent.distinct other another pointer channel there present same

omit [DecidableEq Pointer] in
theorem unique {polling : Polling Pointer} {pointer : Pointer} {channel : PolledChannel}
    (present : polling.inUse pointer = some channel) (other : PolledChannel)
    (used : polling.inUse pointer = some other) : other.fd_ = channel.fd_ := by
  rw [Option.some.inj (used.symm.trans present)]

/-! ## What each operation does -/

omit [DecidableEq Pointer] in
theorem Consistent.present_iff {polling : Polling Pointer} (consistent : polling.Consistent)
    {pointer : Pointer} {channel : PolledChannel}
    (present : polling.inUse pointer = some channel) :
    (polling.interest channel.fd_).isSome ↔ channel.state_ = .kAdded := by
  rw [(consistent.agrees pointer channel present).registered]
  split <;> simp_all

omit [DecidableEq Pointer] in
theorem Consistent.calls_append {polling : Polling Pointer} (consistent : polling.Consistent)
    {call : ControlCall} (isLegal : call.Legal) :
    ∀ other ∈ polling.calls ++ [call], other.Legal := by
  intro other membership
  rcases List.mem_append.mp membership with before | last
  · exact consistent.legal other before
  · rw [List.mem_singleton.mp last]
    exact isLegal

theorem Consistent.operate {polling : Polling Pointer} (consistent : polling.Consistent)
    {pointer : Pointer} {channel : PolledChannel}
    (present : polling.inUse pointer = some channel) (operation : ChannelOperation) :
    let after := polling.next (.operate pointer operation)
    let changed := PolledChannel.operated channel operation
    after.inUse = Function.update polling.inUse pointer (some changed) ∧
      after.interest = Function.update polling.interest channel.fd_
        (if changed.state_ = .kAdded then some (changed.channel.events_, pointer) else none) ∧
      after.channels_ = Function.update polling.channels_ channel.fd_ (some pointer) ∧
      ∀ call ∈ after.calls, call.Legal := by
  obtain ⟨registered, mapped, seen⟩ := consistent.agrees pointer channel present
  cases state : channel.state_ with
  | kNew =>
      have absent : polling.interest channel.fd_ = none := by simpa [state] using registered
      simp only [next, present, updateChannel, state, true_or, if_true, put, update, absent,
        PolledChannel.operated, Function.update_idem, reduceCtorEq, false_and, if_false,
        Option.isSome_none, true_and]
      exact consistent.calls_append (by simp [ControlCall.Legal])
  | kDeleted =>
      have absent : polling.interest channel.fd_ = none := by simpa [state] using registered
      have held : polling.channels_ channel.fd_ = some pointer := by
        rw [mapped, if_pos]
        simpa [state] using seen
      simp only [next, present, updateChannel, state, or_true, if_true, put, update, absent,
        PolledChannel.operated, Function.update_idem, reduceCtorEq, false_and, if_false,
        Option.isSome_none, true_and, ← held, Function.update_eq_self]
      exact consistent.calls_append (by simp [ControlCall.Legal])
  | kAdded =>
      have registered : polling.interest channel.fd_ = some (channel.channel.events_, pointer) := by
        simpa [state] using registered
      have held : polling.channels_ channel.fd_ = some pointer := by
        rw [mapped, if_pos]
        simpa [state] using seen
      by_cases idle : (operation.apply channel.channel).isNoneEvent
      · simp only [next, present, updateChannel, state, idle, reduceCtorEq, or_self, if_false,
          if_true, put, update, registered, PolledChannel.operated, Function.update_idem,
          Option.isSome_some, and_self, true_and, ← held, Function.update_eq_self]
        exact consistent.calls_append (by simp [ControlCall.Legal])
      · simp only [next, present, updateChannel, state, idle, reduceCtorEq, or_self, if_false,
          if_true, put, update, registered, PolledChannel.operated, and_false,
          Option.isSome_some, true_and, ← held, Function.update_eq_self]
        exact consistent.calls_append (by simp [ControlCall.Legal])

theorem Consistent.next_operate {polling : Polling Pointer} (consistent : polling.Consistent)
    {pointer : Pointer} {channel : PolledChannel}
    (present : polling.inUse pointer = some channel) (operation : ChannelOperation) :
    (polling.next (.operate pointer operation)).Consistent := by
  obtain ⟨inUse, interest, channels, legal⟩ := consistent.operate present operation
  apply consistent.frame (consistent.own present) (unique present) _ inUse interest channels legal
  apply And.intro rfl
  constructor
  · rfl
  · rfl
  · simp only [PolledChannel.operated]
    split <;> simp

theorem Consistent.next_construct {polling : Polling Pointer} (consistent : polling.Consistent)
    {pointer : Pointer} {fd : Int} (permitted : polling.Permitted (.construct pointer fd)) :
    (polling.next (.construct pointer fd)).Consistent := by
  obtain ⟨unused, apart⟩ := permitted
  have absent : polling.interest fd = none := by
    cases entry : polling.interest fd with
    | none => rfl
    | some pair => exact absurd (consistent.owned fd pair.1 pair.2 entry) (apart pair.2)
  have unmapped : polling.channels_ fd = none := by
    cases entry : polling.channels_ fd with
    | none => rfl
    | some other => exact absurd (consistent.held fd other entry) (apart other)
  let made : PolledChannel := {
    fd_ := fd
    channel := .new
    return_events_ := 0
    state_ := .kNew
    updated := false }
  have settles : Settles pointer fd none none (some made) := ⟨rfl, rfl, rfl, by simp [made]⟩
  have own : ∀ other, (polling.inUse other).map PolledChannel.fd_ = some fd → other = pointer :=
    fun other used => absurd used (apart other)
  have was : ∀ channel, polling.inUse pointer = some channel → channel.fd_ = fd := by
    intro channel used
    rw [unused] at used
    cases used
  apply consistent.frame own was settles
  · rfl
  · rw [← absent, Function.update_eq_self]
    rfl
  · rw [← unmapped, Function.update_eq_self]
    rfl
  · exact consistent.legal

theorem next_remove_inUse {polling : Polling Pointer} {pointer : Pointer}
    {channel : PolledChannel} (present : polling.inUse pointer = some channel) :
    (polling.next (.remove pointer)).inUse = Function.update polling.inUse pointer none := by
  simp only [next, present, removeChannel]
  split <;> rfl

theorem Consistent.next_remove {polling : Polling Pointer} (consistent : polling.Consistent)
    {pointer : Pointer} {channel : PolledChannel}
    (present : polling.inUse pointer = some channel) :
    (polling.next (.remove pointer)).Consistent := by
  have registered := (consistent.agrees pointer channel present).registered
  have settles : Settles pointer channel.fd_ none none none := ⟨rfl, rfl⟩
  by_cases added : channel.state_ = .kAdded
  · rw [if_pos added] at registered
    apply consistent.frame (consistent.own present) (unique present) settles
    · exact next_remove_inUse present
    · simp only [next, present, removeChannel, if_pos added, update, registered]
    · simp only [next, present, removeChannel, if_pos added, update]
    · simp only [next, present, removeChannel, if_pos added, update, registered]
      exact consistent.calls_append (by simp [ControlCall.Legal])
  · rw [if_neg added] at registered
    apply consistent.frame (consistent.own present) (unique present) settles
    · exact next_remove_inUse present
    · simp only [next, present, removeChannel, if_neg added]
      rw [← registered, Function.update_eq_self]
    · simp only [next, present, removeChannel, if_neg added]
    · simp only [next, present, removeChannel, if_neg added]
      exact consistent.legal

theorem Consistent.set_revents {polling : Polling Pointer} (consistent : polling.Consistent)
    (entry : BitVec 32 × Pointer) : (polling.set_revents entry).Consistent := by
  cases present : polling.inUse entry.2 with
  | none =>
      simp only [Polling.set_revents, present]
      exact consistent
  | some channel =>
      obtain ⟨registered, mapped, seen⟩ := consistent.agrees entry.2 channel present
      have settles : Settles entry.2 channel.fd_ (polling.interest channel.fd_)
          (polling.channels_ channel.fd_) (some { channel with return_events_ := entry.1 }) :=
        ⟨rfl, registered, mapped, seen⟩
      simp only [Polling.set_revents, present]
      apply consistent.frame (consistent.own present) (unique present) settles rfl
      · rw [Function.update_eq_self, put]
      · rw [Function.update_eq_self, put]
      · exact consistent.legal

/-- The step lemma. -/
theorem Consistent.next {polling : Polling Pointer} (consistent : polling.Consistent)
    {event : Event Pointer} (permitted : polling.Permitted event) :
    (polling.next event).Consistent := by
  cases event with
  | construct pointer fd => exact consistent.next_construct permitted
  | operate pointer operation =>
      obtain ⟨channel, present⟩ := Option.ne_none_iff_exists'.mp permitted
      exact consistent.next_operate present operation
  | remove pointer =>
      obtain ⟨channel, present⟩ := Option.ne_none_iff_exists'.mp permitted
      exact consistent.next_remove present
  | poll reported =>
      simp only [Polling.next, fillActiveChannels]
      generalize polling.epoll_wait reported = events_
      induction events_ generalizing polling with
      | nil => exact consistent
      | cons entry events_ inductionHypothesis =>
          exact inductionHypothesis (consistent.set_revents entry) trivial

/-- The run lemma. -/
theorem Consistent.run {polling : Polling Pointer} (consistent : polling.Consistent)
    {events : List (Event Pointer)}
    (permitted : System.Allowed Permitted Polling.next polling events) :
    (events.foldl Polling.next polling).Consistent := by
  induction events generalizing polling with
  | nil => exact consistent
  | cons event events inductionHypothesis =>
      obtain ⟨now, later⟩ := permitted
      exact inductionHypothesis (consistent.next now) later

/-! ## The poller as one channel sees it -/

/-- The state of a channel and the mask registered for its descriptor. -/
def view (polling : Polling Pointer) (channel : PolledChannel) : EPollPoller where
  state_ := channel.state_
  registered := (polling.interest channel.fd_).map Prod.fst

/-- An operation on a channel is `updateChannel` of the poller that knows this
channel only. -/
theorem Consistent.view_operate {polling : Polling Pointer} (consistent : polling.Consistent)
    {pointer : Pointer} {channel : PolledChannel}
    (present : polling.inUse pointer = some channel) (operation : ChannelOperation) :
    (polling.next (.operate pointer operation)).inUse pointer =
        some (channel.operated operation) ∧
      (polling.next (.operate pointer operation)).view (channel.operated operation) =
        (polling.view channel).updateChannel (operation.apply channel.channel) := by
  obtain ⟨inUse, interest, -, -⟩ := consistent.operate present operation
  have registered := (consistent.agrees pointer channel present).registered
  constructor
  · rw [inUse, Function.update_self]
  · cases state : channel.state_ with
    | kNew =>
        simp [view, interest, registered, state, EPollPoller.updateChannel, EPollPoller.update,
          PolledChannel.operated]
    | kDeleted =>
        simp [view, interest, registered, state, EPollPoller.updateChannel, EPollPoller.update,
          PolledChannel.operated]
    | kAdded =>
        by_cases idle : (operation.apply channel.channel).isNoneEvent
        · simp [view, interest, registered, state, idle, EPollPoller.updateChannel,
            EPollPoller.update, PolledChannel.operated]
        · simp [view, interest, registered, state, idle, EPollPoller.updateChannel,
            EPollPoller.update, PolledChannel.operated]

theorem Consistent.view_other {polling : Polling Pointer} (consistent : polling.Consistent)
    {pointer other : Pointer} {channel another : PolledChannel}
    (present : polling.inUse pointer = some channel) (operation : ChannelOperation)
    (different : other ≠ pointer) (used : polling.inUse other = some another) :
    (polling.next (.operate pointer operation)).inUse other = some another ∧
      (polling.next (.operate pointer operation)).view another = polling.view another := by
  obtain ⟨inUse, interest, -, -⟩ := consistent.operate present operation
  have apart : another.fd_ ≠ channel.fd_ := by
    intro same
    exact different (consistent.distinct other another pointer channel used present same)
  constructor
  · rw [inUse, Function.update_of_ne different, used]
  · rw [view, view, interest, Function.update_of_ne apart]

/-! ## Every call is legal -/

/-- The three representations agree: `kAdded` says that the descriptor is in
the kernel's table, which then has the mask of the channel; `epoll_ctl` has
never been refused; and the poller has exactly the channels that have come to
it and not been removed. -/
structure Lawful (polling : Polling Pointer) : Prop where
  added : ∀ pointer channel, polling.inUse pointer = some channel →
    (channel.state_ = .kAdded ↔ (polling.interest channel.fd_).isSome)
  registered : ∀ pointer channel events other, polling.inUse pointer = some channel →
    polling.interest channel.fd_ = some (events, other) →
    events = channel.channel.events_ ∧ other = pointer
  calls : ∀ call ∈ polling.calls, call.Legal
  hasChannel : ∀ pointer channel, polling.inUse pointer = some channel →
    (polling.hasChannel pointer channel.fd_ ↔ channel.updated)
  removed : ∀ pointer fd, polling.inUse pointer = none → ¬ polling.hasChannel pointer fd

theorem Consistent.lawful {polling : Polling Pointer} (consistent : polling.Consistent) :
    polling.Lawful where
  added := fun _ _ present => (consistent.present_iff present).symm
  registered := by
    intro pointer channel events other present entry
    rw [(consistent.agrees pointer channel present).registered] at entry
    split at entry
    · obtain ⟨mask, owner⟩ := Prod.mk.inj (Option.some.inj entry)
      exact ⟨mask.symm, owner.symm⟩
    · cases entry
  calls := consistent.legal
  hasChannel := by
    intro pointer channel present
    rw [Polling.hasChannel, (consistent.agrees pointer channel present).mapped]
    split <;> simp_all
  removed := by
    intro pointer fd absent has
    have used := consistent.held fd pointer (beq_iff_eq.mp has)
    rw [absent] at used
    cases used

instance [Fintype Pointer] (polling : Polling Pointer) :
    DecidablePred polling.Permitted
  | .construct pointer fd =>
      inferInstanceAs (Decidable (polling.inUse pointer = none ∧
        ∀ other, (polling.inUse other).map PolledChannel.fd_ ≠ some fd))
  | .operate pointer _ | .remove pointer =>
      inferInstanceAs (Decidable (polling.inUse pointer ≠ none))
  | .poll _ => inferInstanceAs (Decidable True)

/-- In whatever order channels are made, operated on and removed. -/
theorem epoll_calls_lawful (events : List (Event Pointer))
    (permitted : System.Allowed Permitted next new events) :
    (events.foldl next (new : Polling Pointer)).Lawful :=
  (new_consistent.run permitted).lawful

/-- A descriptor that comes back with another channel. -/
theorem epoll_calls_lawful_reused :
    ([.construct true 5, .operate true .enableReading, .operate true .disableAll,
        .operate true .enableWriting, .remove true, .construct false 5,
        .operate false .disableAll].foldl next (new : Polling Bool)).Lawful :=
  epoll_calls_lawful _ (by decide)

end Polling

end GdRpc.Net
