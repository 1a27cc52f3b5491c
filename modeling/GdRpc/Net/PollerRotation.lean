import Mathlib.Data.Finset.Card
import Mathlib.Data.List.Infix
import Mathlib.Data.Nat.Log
import GdRpc.Net.PollerTable

/-!
# How long a ready channel waits

`poll` takes no more events than `events_` has room for, and doubles the room
when all of it was used. The kernel goes round the ready descriptors, so that
one that is left out by poll after poll has let very many others go before it.
-/

namespace GdRpc.Net

open GdRpc.Library

universe u

def kInitEventListSize : Nat := 16

/-- A poller with the size of its `events_`, and the channels that the last
`poll` has put into the list the loop had cleared. -/
structure GrowingPoller (Pointer : Type u) where
  polling : Polling Pointer
  events_ : Nat
  activeChannels : List Pointer

namespace GrowingPoller

variable {Pointer : Type u} [DecidableEq Pointer]

def new : GrowingPoller Pointer where
  polling := .new
  events_ := kInitEventListSize
  activeChannels := []

/-- `reported` is what `epoll_wait` returns; it is empty after a timeout and
after an error. -/
def poll (poller : GrowingPoller Pointer) (reported : List (Int × BitVec 32)) :
    GrowingPoller Pointer :=
  if 0 < reported.length then
    let filled := poller.polling.fillActiveChannels (poller.polling.epoll_wait reported)
    { polling := filled.1
      activeChannels := filled.2
      events_ :=
        if reported.length = poller.events_ then poller.events_ * 2 else poller.events_ }
  else
    { poller with activeChannels := [] }

def next (poller : GrowingPoller Pointer) :
    Polling.Event Pointer → GrowingPoller Pointer
  | .poll reported => poller.poll reported
  | event => { poller with polling := poller.polling.next event }

/-- `epoll_wait` reports registered descriptors, each once, and no more than
there is room for. -/
def Enabled (poller : GrowingPoller Pointer) : Polling.Event Pointer → Prop
  | .poll reported =>
      reported.length ≤ poller.events_ ∧ (reported.map Prod.fst).Nodup ∧
        ∀ entry ∈ reported, (poller.polling.interest entry.1).isSome
  | event => poller.polling.Permitted event

def system : System (GrowingPoller Pointer) (Polling.Event Pointer) where
  initial poller := poller = new
  step poller event after := poller.Enabled event ∧ after = poller.next event

/-- The descriptors reported by the poll, if `epoll_wait` returns any. -/
def report? : Polling.Event Pointer → Option (List Int)
  | .poll (entry :: reported) => some ((entry :: reported).map Prod.fst)
  | _ => none

omit [DecidableEq Pointer] in
theorem report_eq {reported : List (Int × BitVec 32)} {report : List Int}
    (found : report? (.poll reported : Polling.Event Pointer) = some report) :
    reported.map Prod.fst = report := by
  cases reported with
  | nil => cases found
  | cons entry reported => exact Option.some.inj found

def reports (events : List (Polling.Event Pointer)) : List (List Int) :=
  events.filterMap report?

/-! ## The size of `events_` -/

theorem polling_next (poller : GrowingPoller Pointer) (event : Polling.Event Pointer) :
    (poller.next event).polling = poller.polling.next event := by
  cases event with
  | poll reported =>
      simp only [next, poll, Polling.next]
      split
      next => rfl
      next nothing =>
        rw [List.length_eq_zero_iff.mp (Nat.eq_zero_of_not_pos nothing)]
        rfl
  | construct | operate | remove => rfl

theorem events_next_le (poller : GrowingPoller Pointer) (event : Polling.Event Pointer) :
    poller.events_ ≤ (poller.next event).events_ := by
  cases event with
  | poll reported =>
      simp only [next, poll]
      split
      · dsimp only
        split <;> omega
      · exact Nat.le_refl _
  | construct | operate | remove => exact Nat.le_refl _

omit [DecidableEq Pointer] in
theorem permitted_of_enabled {poller : GrowingPoller Pointer} {event : Polling.Event Pointer}
    (enabled : poller.Enabled event) : poller.polling.Permitted event := by
  cases event with
  | poll => trivial
  | construct | operate | remove => exact enabled

/-- The room there always is, and the bookkeeping of the poller. -/
structure Sound (poller : GrowingPoller Pointer) : Prop where
  room : kInitEventListSize ≤ poller.events_
  consistent : poller.polling.Consistent

theorem Sound.next {poller : GrowingPoller Pointer} (sound : poller.Sound)
    {event : Polling.Event Pointer} (enabled : poller.Enabled event) :
    (poller.next event).Sound := by
  constructor
  · exact sound.room.trans (poller.events_next_le event)
  · rw [polling_next]
    exact sound.consistent.next (permitted_of_enabled enabled)

theorem reachable_sound {history : List (Polling.Event Pointer)} {poller : GrowingPoller Pointer}
    (execution : system.Execution history poller) : poller.Sound := by
  apply execution.invariant Sound
  · rintro _ rfl
    exact ⟨Nat.le_refl _, Polling.new_consistent⟩
  · rintro poller event _ sound ⟨enabled, rfl⟩
    exact sound.next enabled

theorem Sound.foldl {poller : GrowingPoller Pointer} (sound : poller.Sound)
    {past events : List (Polling.Event Pointer)}
    (enabled : System.Allowed Enabled GrowingPoller.next poller events)
    (isPrefix : past <+: events) : (past.foldl GrowingPoller.next poller).Sound := by
  induction past generalizing poller events with
  | nil => exact sound
  | cons event past inductionHypothesis =>
      obtain ⟨rest, rfl⟩ := isPrefix
      obtain ⟨now, later⟩ := enabled
      exact inductionHypothesis (sound.next now) later (List.prefix_append past rest)

/-! ## A channel that is ready -/

/-- The channel stays in use with an interest in events, and its descriptor is
ready all the time. What epoll does for it then: the events of others come
without it only for want of room, and no other descriptor comes twice before it
has come once. -/
structure Ready (poller : GrowingPoller Pointer) (events : List (Polling.Event Pointer))
    (fd : Int) (pointer : Pointer) : Prop where
  added : ∀ past, past <+: events → ∃ channel,
    (past.foldl next poller).polling.inUse pointer = some channel ∧ channel.fd_ = fd ∧
      channel.state_ = .kAdded
  room : ∀ past reported, past ++ [.poll reported] <+: events → reported ≠ [] →
    fd ∉ reported.map Prod.fst → reported.length = (past.foldl next poller).events_
  turns : ∀ past, past <+: events → fd ∉ (reports past).flatten →
    (reports past).flatten.Nodup

section Waiting

variable {poller : GrowingPoller Pointer} {events : List (Polling.Event Pointer)} {fd : Int}
  {pointer : Pointer}

/-- While it is left out, all the room is used and the room doubles. -/
theorem Ready.doubles (ready : poller.Ready events fd pointer)
    {past : List (Polling.Event Pointer)} (isPrefix : past <+: events)
    (waits : fd ∉ (reports past).flatten) :
    (past.foldl next poller).events_ = poller.events_ * 2 ^ (reports past).length ∧
      (reports past).flatten.length + poller.events_ = (past.foldl next poller).events_ := by
  induction past using List.reverseRecOn with
  | nil => simp [reports]
  | append_singleton past event inductionHypothesis =>
      have earlier : past <+: events := (List.prefix_append past [event]).trans isPrefix
      have split : reports (past ++ [event]) = reports past ++ reports [event] := by
        simp [reports]
      rw [split, List.flatten_append, List.mem_append, not_or] at waits
      obtain ⟨size, total⟩ := inductionHypothesis earlier waits.1
      rw [split, List.foldl_concat, List.flatten_append, List.length_append, List.length_append]
      cases event with
      | poll reported =>
          cases reported with
          | nil => exact ⟨size, total⟩
          | cons entry reported =>
              have single : reports [(.poll (entry :: reported) : Polling.Event Pointer)] =
                  [(entry :: reported).map Prod.fst] := rfl
              rw [single, List.flatten_singleton] at waits
              have full := ready.room past _ isPrefix (List.cons_ne_nil _ _) waits.2
              have doubled : ((past.foldl next poller).next (.poll (entry :: reported))).events_ =
                  (past.foldl next poller).events_ * 2 := by
                simp only [next, poll, if_pos full]
                rfl
              rw [single, doubled]
              constructor
              · rw [size, List.length_singleton, Nat.pow_succ, Nat.mul_assoc]
              · rw [List.flatten_singleton, List.length_map, full]
                omega
      | construct | operate | remove => exact ⟨size, total⟩

theorem Ready.registered (ready : poller.Ready events fd pointer) (sound : poller.Sound)
    (enabled : System.Allowed Enabled next poller events) {past : List (Polling.Event Pointer)}
    (isPrefix : past <+: events) :
    ∃ mask, (past.foldl next poller).polling.interest fd = some (mask, pointer) := by
  obtain ⟨channel, present, rfl, state⟩ := ready.added past isPrefix
  have there := (sound.foldl enabled isPrefix).consistent.agrees pointer channel present
  refine ⟨channel.channel.events_, ?_⟩
  rw [there.registered, if_pos state]

theorem registered_of_reported (enabled : System.Allowed Enabled next poller events)
    {other : Int} (comes : other ∈ (reports events).flatten) :
    ∃ past, past <+: events ∧ ((past.foldl next poller).polling.interest other).isSome := by
  obtain ⟨report, isReport, inReport⟩ := List.mem_flatten.mp comes
  obtain ⟨event, isEvent, found⟩ := List.mem_filterMap.mp isReport
  obtain ⟨past, rest, rfl⟩ := List.append_of_mem isEvent
  have isPrefix : past ++ [event] <+: past ++ event :: rest := ⟨rest, by simp⟩
  have now := (enabled.of_prefix isPrefix).2
  refine ⟨past, (List.prefix_append past [event]).trans isPrefix, ?_⟩
  cases event with
  | poll reported =>
      obtain rfl := report_eq found
      obtain ⟨entry, membership, rfl⟩ := List.mem_map.mp inReport
      exact now.2.2 entry membership
  | construct | operate | remove => cases found

/-- Those that have come before it are so many. -/
theorem Ready.polls_le (ready : poller.Ready events fd pointer) (sound : poller.Sound)
    (waits : fd ∉ (reports events).flatten) {descriptors : Finset Int} (own : fd ∈ descriptors)
    (others : ∀ other ∈ (reports events).flatten, other ∈ descriptors) :
    (reports events).length ≤
      Nat.log 2 ((descriptors.card - 1) / kInitEventListSize + 1) := by
  have positive : 0 < poller.events_ := Nat.lt_of_lt_of_le (by decide) sound.room
  obtain ⟨size, total⟩ := ready.doubles (List.prefix_refl events) waits
  have passed : (reports events).flatten.length ≤ descriptors.card - 1 := by
    have nodup := ready.turns events (List.prefix_refl events) waits
    rw [← List.toFinset_card_of_nodup nodup, ← Finset.card_erase_of_mem own]
    apply Finset.card_le_card
    intro other membership
    rw [List.mem_toFinset] at membership
    refine Finset.mem_erase.mpr ⟨?_, others other membership⟩
    rintro rfl
    exact waits membership
  have rounds : (2 ^ (reports events).length - 1) * poller.events_ ≤ descriptors.card - 1 := by
    rw [Nat.sub_mul, Nat.one_mul, Nat.mul_comm, ← size]
    omega
  have fewer : 2 ^ (reports events).length - 1 ≤
      (descriptors.card - 1) / kInitEventListSize :=
    ((Nat.le_div_iff_mul_le positive).mpr rounds).trans
      (Nat.div_le_div_left sound.room (by decide))
  apply Nat.le_log_of_pow_le (by decide)
  omega

theorem Ready.active (ready : poller.Ready events fd pointer) (sound : poller.Sound)
    (enabled : System.Allowed Enabled next poller events)
    {past : List (Polling.Event Pointer)} {reported : List (Int × BitVec 32)}
    (isPrefix : past ++ [Polling.Event.poll reported] <+: events)
    (comes : fd ∈ reported.map Prod.fst) :
    pointer ∈ ((past ++ [Polling.Event.poll reported]).foldl next poller).activeChannels := by
  have earlier : past <+: events := (List.prefix_append past _).trans isPrefix
  obtain ⟨⟨_, events_⟩, membership, rfl⟩ := List.mem_map.mp comes
  obtain ⟨mask, entry⟩ := ready.registered sound enabled earlier
  rw [List.foldl_concat]
  have filled : ((past.foldl next poller).next (.poll reported)).activeChannels =
      ((past.foldl next poller).polling.epoll_wait reported).map Prod.snd := by
    simp only [next, poll, if_pos (List.length_pos_of_mem membership),
      Polling.fillActiveChannels]
  rw [filled]
  refine List.mem_map.mpr ⟨(events_, _), List.mem_filterMap.mpr ⟨_, membership, ?_⟩, rfl⟩
  simp only [entry, Option.map_some]

end Waiting

/-- A channel whose descriptor stays ready is handed to the loop by one of the
next polls, and so many of these as the logarithm says of the descriptors that
are registered, however busy these are. -/
theorem ready_channel_active {history : List (Polling.Event Pointer)}
    {poller : GrowingPoller Pointer} (execution : system.Execution history poller)
    {events : List (Polling.Event Pointer)}
    (enabled : System.Allowed Enabled next poller events)
    {fd : Int} {pointer : Pointer} (ready : poller.Ready events fd pointer)
    (descriptors : Finset Int)
    (registered : ∀ past, past <+: events → ∀ other,
      ((past.foldl next poller).polling.interest other).isSome → other ∈ descriptors)
    (polls : Nat.log 2 ((descriptors.card - 1) / kInitEventListSize + 1) <
      (reports events).length) :
    ∃ past reported, past ++ [.poll reported] <+: events ∧
      pointer ∈ ((past ++ [Polling.Event.poll reported]).foldl next poller).activeChannels := by
  have sound := reachable_sound execution
  have comes : fd ∈ (reports events).flatten := by
    by_contra waits
    have own : fd ∈ descriptors := by
      obtain ⟨mask, entry⟩ := ready.registered sound enabled List.nil_prefix
      apply registered [] List.nil_prefix
      rw [entry]
      rfl
    have atMost := ready.polls_le sound waits own ?_
    · omega
    · intro other membership
      obtain ⟨past, isPrefix, there⟩ := registered_of_reported enabled membership
      exact registered past isPrefix other there
  obtain ⟨report, isReport, inReport⟩ := List.mem_flatten.mp comes
  obtain ⟨event, isEvent, found⟩ := List.mem_filterMap.mp isReport
  obtain ⟨past, rest, rfl⟩ := List.append_of_mem isEvent
  have isPrefix : past ++ [event] <+: past ++ event :: rest := ⟨rest, by simp⟩
  cases event with
  | poll reported =>
      obtain rfl := report_eq found
      exact ⟨past, reported, isPrefix, ready.active sound enabled isPrefix inReport⟩
  | construct | operate | remove => cases found

instance [Fintype Pointer] (poller : GrowingPoller Pointer) :
    DecidablePred poller.Enabled
  | .poll reported => inferInstanceAs (Decidable (reported.length ≤ poller.events_ ∧
      (reported.map Prod.fst).Nodup ∧
        ∀ entry ∈ reported, (poller.polling.interest entry.1).isSome))
  | .construct pointer fd =>
      inferInstanceAs (Decidable (poller.polling.Permitted (.construct pointer fd)))
  | .operate pointer operation =>
      inferInstanceAs (Decidable (poller.polling.Permitted (.operate pointer operation)))
  | .remove pointer => inferInstanceAs (Decidable (poller.polling.Permitted (.remove pointer)))

/-- Seventeen channels with an interest in reading. -/
def crowd : List (Polling.Event (Fin 17)) :=
  (List.finRange 17).flatMap fun pointer =>
    [.construct pointer pointer.val, .operate pointer .enableReading]

/-- All of them are readable; the first poll has room for sixteen. -/
def crowdPolls : List (Polling.Event (Fin 17)) :=
  [.poll ((List.range 16).map fun fd => (fd, 1)), .poll ((List.range 17).map fun fd => (fd, 1))]

theorem ready_channel_active_crowd :
    ∃ past reported, past ++ [.poll reported] <+: crowdPolls ∧
      16 ∈ ((past ++ [.poll reported]).foldl next (crowd.foldl next new)).activeChannels := by
  have execution : system.Execution crowd (crowd.foldl next new) :=
    System.Execution.foldl system Enabled (fun _ _ enabled => ⟨enabled, rfl⟩) rfl
      (by decide +kernel)
  have enabled : System.Allowed Enabled next (crowd.foldl next new) crowdPolls := by
    decide +kernel
  have prefixes : ∀ {past}, past <+: crowdPolls → past ∈ crowdPolls.inits :=
    fun isPrefix => (List.mem_inits _ _).mpr isPrefix
  have ready : (crowd.foldl next new).Ready crowdPolls 16 16 := by
    constructor
    · have added : ∀ past ∈ crowdPolls.inits,
          ∃ channel ∈ (past.foldl next (crowd.foldl next new)).polling.inUse 16,
            channel.fd_ = 16 ∧ channel.state_ = .kAdded := by
        decide +kernel
      exact fun past isPrefix => added past (prefixes isPrefix)
    · rintro past reported isPrefix - waits
      rcases past with - | ⟨first, - | ⟨second, past⟩⟩
      · obtain ⟨same, -⟩ := List.cons_prefix_cons.mp isPrefix
        obtain rfl := Polling.Event.poll.inj same
        decide +kernel
      · obtain ⟨-, later⟩ := List.cons_prefix_cons.mp isPrefix
        obtain ⟨same, -⟩ := List.cons_prefix_cons.mp later
        obtain rfl := Polling.Event.poll.inj same
        exact absurd (by decide) waits
      · obtain ⟨-, later⟩ := List.cons_prefix_cons.mp isPrefix
        obtain ⟨-, beyond⟩ := List.cons_prefix_cons.mp later
        exact absurd (List.prefix_nil.mp beyond) (by simp)
    · have turns : ∀ past ∈ crowdPolls.inits, 16 ∉ (reports past).flatten →
          (reports past).flatten.Nodup := by
        decide +kernel
      exact fun past isPrefix => turns past (prefixes isPrefix)
  let descriptors : Finset Int := (Finset.range 17).image Nat.cast
  have known : ∀ past ∈ crowdPolls.inits, ∀ pointer,
      ∀ channel ∈ (past.foldl next (crowd.foldl next new)).polling.inUse pointer,
        channel.fd_ ∈ descriptors := by
    decide +kernel
  have polls : Nat.log 2 ((descriptors.card - 1) / kInitEventListSize + 1) <
      (reports crowdPolls).length := by
    decide +kernel
  refine ready_channel_active execution enabled ready descriptors ?_ polls
  intro past isPrefix other there
  have sound := (reachable_sound execution).foldl enabled isPrefix
  obtain ⟨⟨mask, pointer⟩, entry⟩ := Option.isSome_iff_exists.mp there
  obtain ⟨channel, present, rfl⟩ :=
    Option.map_eq_some_iff.mp (sound.consistent.owned other mask pointer entry)
  exact known past (prefixes isPrefix) pointer channel present

end GrowingPoller

end GdRpc.Net
