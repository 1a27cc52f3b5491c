import GdRpc.Net.PollerTable

/-!
# Channels without interest

`updateChannel` looks at the stored state first: a channel that is new or
deleted is added whatever its mask is. Epoll reports hang-ups and errors for an
empty mask too.
-/

namespace GdRpc.Net

open GdRpc.Library

universe u

/-- The channel is in the poller exactly if it is interested in something. -/
def PolledChannel.Follows (channel : PolledChannel) : Prop :=
  channel.state_ = .kAdded ↔ channel.channel.isNoneEvent = false

theorem PolledChannel.operated_follows_iff {channel : PolledChannel} (follows : channel.Follows)
    (operation : ChannelOperation) :
    (channel.operated operation).Follows ↔
      (channel.channel.isNoneEvent → ¬ (operation.apply channel.channel).isNoneEvent) := by
  unfold Follows operated at *
  cases before : channel.channel.isNoneEvent <;>
    cases after : (operation.apply channel.channel).isNoneEvent <;> simp_all

namespace Polling

variable {Pointer : Type u} [DecidableEq Pointer]

/-- The kernel's table has the descriptors of the channels with an interest and
no others, so no other channel becomes active. -/
structure Interested (polling : Polling Pointer) : Prop where
  registered : ∀ pointer channel, polling.inUse pointer = some channel →
    ((polling.interest channel.fd_).isSome ↔ channel.channel.events_ ≠ Channel.kNoneEvent)
  active : ∀ reported, ∀ pointer ∈ (polling.fillActiveChannels (polling.epoll_wait reported)).2,
    ∃ channel, polling.inUse pointer = some channel ∧
      channel.channel.events_ ≠ Channel.kNoneEvent

/-- No operation finds a channel without interest and leaves it so. -/
def Engages (polling : Polling Pointer) : Event Pointer → Prop
  | .operate pointer operation =>
      ∀ channel, polling.inUse pointer = some channel → channel.channel.isNoneEvent →
        ¬ (operation.apply channel.channel).isNoneEvent
  | .construct _ _ | .remove _ | .poll _ => True

def AllFollow (polling : Polling Pointer) : Prop :=
  ∀ pointer channel, polling.inUse pointer = some channel → channel.Follows

theorem Consistent.interested_iff {polling : Polling Pointer} (consistent : polling.Consistent) :
    polling.Interested ↔ polling.AllFollow := by
  have none_iff : ∀ channel : PolledChannel,
      channel.channel.events_ ≠ Channel.kNoneEvent ↔ channel.channel.isNoneEvent = false := by
    intro channel
    simp [Channel.isNoneEvent]
  constructor
  · intro interested pointer channel present
    unfold PolledChannel.Follows
    rw [← consistent.present_iff present, ← none_iff]
    exact interested.registered pointer channel present
  · intro follow
    have registered : ∀ pointer channel, polling.inUse pointer = some channel →
        ((polling.interest channel.fd_).isSome ↔
          channel.channel.events_ ≠ Channel.kNoneEvent) := by
      intro pointer channel present
      rw [consistent.present_iff present, none_iff]
      exact follow pointer channel present
    apply Interested.mk registered
    intro reported pointer membership
    obtain ⟨⟨events, owner⟩, entry, rfl⟩ := List.mem_map.mp membership
    obtain ⟨⟨fd, mask⟩, -, found⟩ := List.mem_filterMap.mp entry
    obtain ⟨⟨events, holder⟩, held, same⟩ := Option.map_eq_some_iff.mp found
    obtain ⟨-, rfl⟩ := Prod.mk.inj same
    obtain ⟨channel, present, own⟩ :=
      Option.map_eq_some_iff.mp (consistent.owned fd events holder held)
    apply Exists.intro channel
    apply And.intro present
    rw [← registered holder channel present, own, held]
    rfl

theorem allFollow_update {polling after : Polling Pointer} (follow : polling.AllFollow)
    {pointer : Pointer} {slot : Option PolledChannel}
    (inUse : after.inUse = Function.update polling.inUse pointer slot) :
    after.AllFollow ↔ ∀ channel, slot = some channel → channel.Follows := by
  unfold AllFollow
  rw [inUse]
  constructor
  · intro all channel same
    apply all pointer channel
    rw [Function.update_self, same]
  · intro own other channel used
    by_cases same : other = pointer
    · subst same
      rw [Function.update_self] at used
      exact own channel used
    · rw [Function.update_of_ne same] at used
      exact follow other channel used

theorem set_revents_allFollow {polling : Polling Pointer} (follow : polling.AllFollow)
    (entry : BitVec 32 × Pointer) : (polling.set_revents entry).AllFollow := by
  cases present : polling.inUse entry.2 with
  | none =>
      simp only [set_revents, present]
      exact follow
  | some channel =>
      simp only [set_revents, present]
      apply (allFollow_update follow rfl).mpr
      rintro changed ⟨⟩
      exact follow entry.2 channel present

theorem Consistent.allFollow_next_iff {polling : Polling Pointer} (consistent : polling.Consistent)
    (follow : polling.AllFollow) {event : Event Pointer} (permitted : polling.Permitted event) :
    (polling.next event).AllFollow ↔ polling.Engages event := by
  cases event with
  | construct pointer fd =>
      apply iff_of_true _ trivial
      apply (allFollow_update follow rfl).mpr
      rintro made ⟨⟩
      simp [PolledChannel.Follows, Channel.new, Channel.isNoneEvent, Channel.kNoneEvent]
  | operate pointer operation =>
      obtain ⟨channel, present⟩ := Option.ne_none_iff_exists'.mp permitted
      obtain ⟨inUse, -, -, -⟩ := consistent.operate present operation
      rw [allFollow_update follow inUse]
      have own := PolledChannel.operated_follows_iff (follow pointer channel present) operation
      constructor
      · intro all other used
        obtain rfl := Option.some.inj (present.symm.trans used)
        exact own.mp (all _ rfl)
      · rintro engages changed ⟨⟩
        exact own.mpr (engages channel present)
  | remove pointer =>
      obtain ⟨channel, present⟩ := Option.ne_none_iff_exists'.mp permitted
      apply iff_of_true _ trivial
      apply (allFollow_update follow (next_remove_inUse present)).mpr
      rintro changed ⟨⟩
  | poll reported =>
      apply iff_of_true _ trivial
      simp only [Polling.next, fillActiveChannels]
      generalize polling.epoll_wait reported = events_
      induction events_ generalizing polling with
      | nil => exact follow
      | cons entry events_ inductionHypothesis =>
          exact inductionHypothesis (consistent.set_revents entry)
            (set_revents_allFollow follow entry) trivial

omit [DecidableEq Pointer] in
theorem new_allFollow : (new : Polling Pointer).AllFollow := by
  rintro pointer channel ⟨⟩

instance [Fintype Pointer] (polling : Polling Pointer) : DecidablePred polling.Engages
  | .operate pointer operation =>
      inferInstanceAs (Decidable (∀ channel, polling.inUse pointer = some channel →
        channel.channel.isNoneEvent → ¬ (operation.apply channel.channel).isNoneEvent))
  | .construct _ _ | .remove _ | .poll _ => inferInstanceAs (Decidable True)

/-- After every operation the kernel knows exactly the channels with an
interest, if and only if no operation finds a channel without interest and
leaves it so. -/
theorem interested_iff_engages (events : List (Event Pointer))
    (permitted : System.Allowed Permitted next new events) :
    (∀ past, past <+: events → (past.foldl next (new : Polling Pointer)).Interested) ↔
      System.Allowed Engages next new events := by
  apply System.forall_prefix_iff_allowed Interested Engages next new events
    (new_consistent.interested_iff.mpr new_allFollow)
  intro past event isPrefix interested
  obtain ⟨before, now⟩ := permitted.of_prefix isPrefix
  have consistent := new_consistent.run before
  rw [(consistent.next now).interested_iff]
  exact consistent.allFollow_next_iff (consistent.interested_iff.mp interested) now

theorem interested_iff_engages_connection :
    (∀ past, past <+: [Event.construct () 5, .operate () .enableReading,
        .operate () .enableWriting, .operate () .disableWriting, .operate () .disableAll] →
      (past.foldl next (new : Polling Unit)).Interested) ↔
    System.Allowed Engages next (new : Polling Unit) [.construct () 5,
      .operate () .enableReading, .operate () .enableWriting, .operate () .disableWriting,
      .operate () .disableAll] :=
  interested_iff_engages _ (by decide)

/-- A connection is closed and then stopped: the second `disableAll` puts the
descriptor back, with an empty mask. -/
theorem disableAll_twice_registers :
    ¬ ∀ past, past <+: [Event.construct () 5, .operate () .enableReading,
        .operate () .disableAll, .operate () .disableAll] →
      (past.foldl next (new : Polling Unit)).Interested := by
  intro interested
  have last := (interested _ (List.prefix_refl _)).registered () _ rfl
  exact absurd last (by decide)

end Polling

end GdRpc.Net
