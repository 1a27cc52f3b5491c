import Mathlib.Data.List.Perm.Basic
import GdRpc.Net.ConnectionThreads

/-!
# When a half-close truncates

The abstract side is a ledger of messages: observed, waiting, outgoing. As
long as no half-close is made over a waiting message, nothing is lost, so a
half-close is complete exactly when no non-empty message waits at it.
-/

namespace GdRpc.Net

open GdRpc.Library

universe u

namespace HalfClose

/-- The kernel has accepted the observed messages, all of them and whole. -/
def Complete (halfClose : HalfClose) : Prop :=
  ∃ order : List Bytes, order.Perm halfClose.observed ∧
    halfClose.accepted = order.flatten

/-- No byte waits in a `sendInLoop` functor or on the way to one. -/
def Quiet (halfClose : HalfClose) : Prop :=
  ∀ s ∈ halfClose.waiting, s = []

instance (halfClose : HalfClose) : Decidable halfClose.Quiet :=
  inferInstanceAs (Decidable (∀ s ∈ halfClose.waiting, s = []))

end HalfClose

/-- Where the messages seen in state `kConnected` are. -/
structure Ledger where
  observed : List Bytes
  waiting : List Bytes
  outgoing : Bytes
  halfCloses : List HalfClose

namespace Ledger

/-- The moves of a message. Until the first half-close a waiting message is
handed over whole; afterwards it may also be given up. -/
inductive Step (ledger : Ledger) : Ledger → Prop where
  | observe (s : Bytes) (waiting : List Bytes) :
      ledger.halfCloses = [] → waiting.Perm (s :: ledger.waiting) →
      Step ledger { ledger with
        observed := ledger.observed ++ [s], waiting := waiting }
  | move (waiting : List Bytes) :
      waiting.Perm ledger.waiting →
      Step ledger { ledger with waiting := waiting }
  | hand (s : Bytes) (waiting : List Bytes) :
      ledger.waiting.Perm (s :: waiting) →
      Step ledger { ledger with
        waiting := waiting, outgoing := ledger.outgoing ++ s }
  | giveUp (s : Bytes) (waiting : List Bytes) :
      ledger.halfCloses ≠ [] → ledger.waiting.Perm (s :: waiting) →
      Step ledger { ledger with waiting := waiting }
  | halfClose (waiting : List Bytes) :
      waiting.Perm ledger.waiting →
      Step ledger { ledger with
        waiting := waiting
        halfCloses := ledger.halfCloses ++
          [⟨ledger.observed, waiting, ledger.outgoing⟩] }

/-- The messages that left `waiting` make up the outgoing stream. -/
def Conserved (ledger : Ledger) : Prop :=
  ∃ handed : List Bytes, (handed ++ ledger.waiting).Perm ledger.observed ∧
    ledger.outgoing = handed.flatten

structure Balanced (ledger : Ledger) : Prop where
  conserved : (∀ halfClose ∈ ledger.halfCloses, halfClose.Quiet) →
    ledger.Conserved
  settled : (∀ halfClose ∈ ledger.halfCloses, halfClose.Quiet) →
    ledger.halfCloses ≠ [] → ∀ s ∈ ledger.waiting, s = []
  exact : (∀ halfClose ∈ ledger.halfCloses, halfClose.Complete) ↔
    ∀ halfClose ∈ ledger.halfCloses, halfClose.Quiet

/-- With nothing lost, a half-close is complete exactly when it is quiet: the
accepted bytes fall short of the observed ones by the bytes that wait. -/
theorem Conserved.complete_iff {ledger : Ledger} (conserved : ledger.Conserved)
    {waiting : List Bytes} (same : waiting.Perm ledger.waiting) :
    (HalfClose.mk ledger.observed waiting ledger.outgoing).Complete ↔
      (HalfClose.mk ledger.observed waiting ledger.outgoing).Quiet := by
  obtain ⟨handed, balance, stream⟩ := conserved
  constructor
  · rintro ⟨order, perm, accepted⟩
    have total := (balance.trans perm.symm).flatten.length_eq
    simp only at accepted
    rw [← accepted, stream, List.flatten_append, List.length_append] at total
    have nothing : ledger.waiting.flatten = [] := by
      rw [← List.length_eq_zero_iff]
      omega
    intro s membership
    exact List.flatten_eq_nil_iff.mp nothing s (same.mem_iff.mp membership)
  · intro quiet
    refine ⟨handed ++ ledger.waiting, balance, ?_⟩
    have nothing : ledger.waiting.flatten = [] :=
      List.flatten_eq_nil_iff.mpr fun s membership =>
        quiet s (same.mem_iff.mpr membership)
    simp [stream, nothing]

theorem Conserved.hand {ledger : Ledger} (conserved : ledger.Conserved) {s : Bytes}
    {waiting : List Bytes} (perm : ledger.waiting.Perm (s :: waiting)) :
    { ledger with
      waiting := waiting
      outgoing := ledger.outgoing ++ s }.Conserved := by
  obtain ⟨handed, balance, stream⟩ := conserved
  refine ⟨handed ++ [s], ?_, by simp [stream]⟩
  have regrouped := (perm.append_left handed).symm.trans balance
  simpa using regrouped

theorem Balanced.step {ledger after : Ledger} (balanced : ledger.Balanced)
    (step : ledger.Step after) : after.Balanced := by
  cases step with
  | observe s waiting first perm =>
      refine ⟨?_, ?_, balanced.exact⟩
      · intro quiet
        obtain ⟨handed, balance, stream⟩ := balanced.conserved quiet
        refine ⟨handed, ?_, stream⟩
        calc List.Perm (handed ++ waiting) (handed ++ s :: ledger.waiting) :=
              perm.append_left handed
          List.Perm _ (s :: (handed ++ ledger.waiting)) := List.perm_middle
          List.Perm _ (s :: ledger.observed) := balance.cons s
          List.Perm _ (ledger.observed ++ [s]) :=
              (List.perm_append_singleton _ _).symm
      · intro _ late
        exact absurd first late
  | move waiting perm =>
      refine ⟨?_, ?_, balanced.exact⟩
      · intro quiet
        obtain ⟨handed, balance, stream⟩ := balanced.conserved quiet
        exact ⟨handed, (perm.append_left handed).trans balance, stream⟩
      · intro quiet late s membership
        exact balanced.settled quiet late s (perm.mem_iff.mp membership)
  | hand s waiting perm =>
      refine ⟨?_, ?_, balanced.exact⟩
      · intro quiet
        exact (balanced.conserved quiet).hand perm
      · intro quiet late other membership
        exact balanced.settled quiet late other
          (perm.mem_iff.mpr (List.mem_cons_of_mem s membership))
  | giveUp s waiting late perm =>
      refine ⟨?_, ?_, balanced.exact⟩
      · intro quiet
        -- after a quiet half-close only empty messages can be given up
        have empty : s = [] := balanced.settled quiet late s
          (perm.mem_iff.mpr List.mem_cons_self)
        have handed := (balanced.conserved quiet).hand perm
        rwa [empty, List.append_nil] at handed
      · intro quiet late other membership
        exact balanced.settled quiet late other
          (perm.mem_iff.mpr (List.mem_cons_of_mem s membership))
  | halfClose waiting perm =>
      have known : (∀ halfClose ∈ ledger.halfCloses, halfClose.Quiet) →
          ((HalfClose.mk ledger.observed waiting ledger.outgoing).Complete ↔
            (HalfClose.mk ledger.observed waiting ledger.outgoing).Quiet) := by
        intro quiet
        exact (balanced.conserved quiet).complete_iff perm
      refine ⟨?_, ?_, ?_⟩
      · intro quiet
        obtain ⟨handed, balance, stream⟩ := balanced.conserved
          fun halfClose membership =>
            quiet halfClose (List.mem_append_left _ membership)
        exact ⟨handed, (perm.append_left handed).trans balance, stream⟩
      · intro quiet _ s membership
        exact quiet _ (List.mem_append_right _ List.mem_cons_self) s membership
      · simp only [List.forall_mem_append, List.forall_mem_singleton]
        rw [balanced.exact]
        exact and_congr_right known

end Ledger

/-- The functors that leave the connection open. -/
def Functor.KeepsOpen : Functor → Prop
  | .forceCloseInLoop => False
  | .connectDestroyed => False
  | _ => True

theorem Call.functor_keepsOpen (call : Call) : call.functor.KeepsOpen := by
  cases call <;> trivial

theorem Functor.Notifies.keepsOpen {functor : Functor} (notifies : functor.Notifies) :
    functor.KeepsOpen := by
  cases functor <;> simp_all [Functor.Notifies, Functor.KeepsOpen]

theorem Functor.messages_append (functors more : List Functor) :
    Functor.messages (functors ++ more) =
      Functor.messages functors ++ Functor.messages more :=
  List.filterMap_append

theorem Functor.messages_cons (functor : Functor) (functors : List Functor) :
    Functor.messages (functor :: functors) =
      functor.message?.toList ++ Functor.messages functors := by
  cases message : functor.message? with
  | none => simp [Functor.messages, message]
  | some s => simp [Functor.messages, message]

theorem Functor.messages_of_notifies {functors : List Functor}
    (notify : ∀ functor ∈ functors, functor.Notifies) :
    Functor.messages functors = [] := by
  rw [Functor.messages, List.filterMap_eq_nil_iff]
  intro functor membership
  have notifies := notify functor membership
  cases functor <;> simp_all [Functor.Notifies, Functor.message?]

namespace ConnectionThreads

variable {Thread : Type u} [DecidableEq Thread]

def ledger (threads : ConnectionThreads Thread) : Ledger where
  observed := threads.observed
  waiting := threads.waiting
  outgoing := threads.connection.outgoing
  halfCloses := threads.halfCloses

/-- The bookkeeping of the loop: nothing closes the connection, every
half-close is recorded, and a shutdown under way shows in the state. -/
structure Orderly (threads : ConnectionThreads Thread) : Prop where
  alive : threads.connection.state_ ≠ .kDisconnected
  interest : threads.connection.InterestMatchesBuffer
  keepOpen : ∀ functor ∈ threads.functors, functor.KeepsOpen
  counted : threads.connection.shutdownWrites = threads.halfCloses.length
  closing : (.shutdown ∈ threads.calls.map Prod.snd ∨
      .shutdownInLoop ∈ threads.functors ∨ threads.halfCloses ≠ []) →
    threads.connection.state_ = .kDisconnecting

section Commit

variable {threads : ConnectionThreads Thread} {s : Bytes} {after : TcpConnection}

omit [DecidableEq Thread] in
theorem commit_functors (emits : threads.connection.Emits s after) :
    ∃ added, (∀ functor ∈ added, functor.Notifies) ∧
      (threads.commit after).functors = threads.functors ++ added := by
  obtain ⟨added, notify, pending⟩ := emits.functors
  refine ⟨added, notify, ?_⟩
  simp [ConnectionThreads.functors, commit, pending]

omit [DecidableEq Thread] in
theorem commit_waiting (emits : threads.connection.Emits s after) :
    (threads.commit after).waiting = threads.waiting := by
  obtain ⟨added, notify, functors⟩ := commit_functors emits
  have noMessages := Functor.messages_of_notifies notify
  simp only [Functor.messages] at noMessages
  rw [ConnectionThreads.waiting, functors]
  simp [Functor.messages, noMessages, ConnectionThreads.waiting, commit]

omit [DecidableEq Thread] in
theorem commit_orderly (orderly : threads.Orderly)
    (emits : threads.connection.Emits s after)
    (counted : after.shutdownWrites = (threads.commit after).halfCloses.length)
    (closing : (threads.commit after).halfCloses ≠ [] → after.state_ = .kDisconnecting) :
    (threads.commit after).Orderly := by
  obtain ⟨added, notify, functors⟩ := commit_functors emits
  refine ⟨emits.alive orderly.alive, emits.interest, ?_, counted, ?_⟩
  · rw [functors]
    intro functor membership
    rcases List.mem_append.mp membership with old | new
    · exact orderly.keepOpen functor old
    · exact (notify functor new).keepsOpen
  · rw [functors]
    rintro (called | queued | made)
    · exact emits.state_.trans (orderly.closing (.inl called))
    · rcases List.mem_append.mp queued with old | new
      · exact emits.state_.trans (orderly.closing (.inr (.inl old)))
      · exact (notify _ new).elim
    · exact closing made

omit [DecidableEq Thread] in
theorem commit_plain (orderly : threads.Orderly)
    (emits : threads.connection.Emits s after)
    (same : after.shutdownWrites = threads.connection.shutdownWrites) :
    (threads.commit after).Orderly ∧
      (threads.commit after).ledger =
        { threads.ledger with outgoing := threads.connection.outgoing ++ s } := by
  have halfCloses : (threads.commit after).halfCloses = threads.halfCloses := by
    simp [commit, same]
  constructor
  · apply commit_orderly orderly emits
    · rw [halfCloses]
      exact same.trans orderly.counted
    · rw [halfCloses]
      intro made
      exact emits.state_.trans (orderly.closing (.inr (.inr made)))
  · simp only [ledger, commit_waiting emits, halfCloses]
    simp [commit, emits.outgoing]

omit [DecidableEq Thread] in
theorem commit_halfClose (orderly : threads.Orderly)
    (emits : threads.connection.Emits s after)
    (counted : after.shutdownWrites = threads.connection.shutdownWrites + 1)
    (disconnecting : threads.connection.state_ = .kDisconnecting)
    (drained : after.outputBuffer_.readable = []) :
    (threads.commit after).Orderly ∧
      (threads.commit after).ledger =
        { threads.ledger with
          outgoing := threads.connection.outgoing ++ s
          halfCloses := threads.halfCloses ++ [⟨threads.observed,
            threads.waiting, threads.connection.outgoing ++ s⟩] } := by
  have accepted : after.accepted = threads.connection.outgoing ++ s := by
    rw [← emits.outgoing, TcpConnection.outgoing, drained, List.append_nil]
  have halfCloses : (threads.commit after).halfCloses = threads.halfCloses ++
      [⟨threads.observed, threads.waiting, threads.connection.outgoing ++ s⟩] := by
    simp [commit, counted, accepted]
  constructor
  · apply commit_orderly orderly emits
    · rw [halfCloses, counted, orderly.counted, List.length_append, List.length_singleton]
    · intro _
      exact emits.state_.trans disconnecting
  · simp only [ledger, commit_waiting emits, halfCloses]
    simp [commit, emits.outgoing]

end Commit

omit [DecidableEq Thread] in
theorem Orderly.mono {threads fewer : ConnectionThreads Thread}
    (orderly : threads.Orderly) (connection : fewer.connection.state_ =
      threads.connection.state_)
    (interest : fewer.connection.InterestMatchesBuffer)
    (functors : ∀ functor ∈ fewer.functors, functor ∈ threads.functors)
    (calls : ∀ entry ∈ fewer.calls, entry ∈ threads.calls)
    (counted : fewer.connection.shutdownWrites = threads.connection.shutdownWrites)
    (halfCloses : fewer.halfCloses = threads.halfCloses) : fewer.Orderly := by
  refine ⟨?_, interest, ?_, ?_, ?_⟩
  · rw [connection]
    exact orderly.alive
  · intro functor membership
    exact orderly.keepOpen functor (functors functor membership)
  · rw [counted, halfCloses, orderly.counted]
  · intro reason
    rw [connection]
    apply orderly.closing
    rcases reason with called | queued | made
    · obtain ⟨entry, membership, isShutdown⟩ := List.mem_map.mp called
      exact .inl (List.mem_map.mpr ⟨entry, calls entry membership, isShutdown⟩)
    · exact .inr (.inl (functors _ queued))
    · exact .inr (.inr (halfCloses ▸ made))

/-! ## A functor, taken out of those `prior` had -/

section RunFunctor

variable {prior threads : ConnectionThreads Thread} (orderly : threads.Orderly)
  (same : threads.ledger = { prior.ledger with waiting := threads.waiting })
include orderly same

omit [DecidableEq Thread] in
theorem idle_step (taken : prior.waiting.Perm threads.waiting) {after : TcpConnection}
    (unchanged : after = threads.connection) :
    (threads.commit after).Orderly ∧ prior.ledger.Step (threads.commit after).ledger := by
  have unchangedThreads : threads.commit after = threads := by
    simp [commit, unchanged]
  rw [unchangedThreads]
  refine ⟨orderly, ?_⟩
  rw [same]
  exact .move _ taken.symm

omit [DecidableEq Thread] in
theorem sendInLoop_step {s : Bytes} {result : WriteResult}
    (harmless : threads.connection.shutdownWrites = 0 → ¬ result.Fault)
    (taken : prior.waiting.Perm (s :: threads.waiting)) :
    (threads.commit (threads.connection.sendInLoop s result)).Orderly ∧
      prior.ledger.Step
        (threads.commit (threads.connection.sendInLoop s result)).ledger := by
  have outgoing : threads.connection.outgoing = prior.connection.outgoing :=
    congrArg Ledger.outgoing same
  have halfCloses : threads.halfCloses = prior.halfCloses :=
    congrArg Ledger.halfCloses same
  obtain ⟨count, outcome⟩ := threads.connection.sendInLoop_cases s result
    orderly.alive orderly.interest
  rcases outcome with ⟨fault, unchanged⟩ | emits
  · have late : prior.halfCloses ≠ [] := by
      intro none
      apply harmless _ fault
      rw [orderly.counted, halfCloses, none, List.length_nil]
    have unchangedThreads : threads.commit threads.connection = threads := by
      simp [commit]
    rw [unchanged, unchangedThreads]
    refine ⟨orderly, ?_⟩
    rw [same]
    exact .giveUp s _ late taken
  · obtain ⟨kept, plain⟩ := commit_plain orderly emits count
    refine ⟨kept, ?_⟩
    rw [plain, same, outgoing]
    exact .hand s _ taken

omit [DecidableEq Thread] in
/-- The half-close is put off while `handleWrite` has bytes left. -/
theorem shutdownInLoop_step
    (closing : threads.connection.state_ = .kDisconnecting)
    (taken : prior.waiting.Perm threads.waiting) :
    (threads.commit threads.connection.shutdownInLoop).Orderly ∧
      prior.ledger.Step (threads.commit threads.connection.shutdownInLoop).ledger := by
  have observed : threads.observed = prior.observed := congrArg Ledger.observed same
  have outgoing : threads.connection.outgoing = prior.connection.outgoing :=
    congrArg Ledger.outgoing same
  have halfCloses : threads.halfCloses = prior.halfCloses :=
    congrArg Ledger.halfCloses same
  have eq := threads.connection.shutdownInLoop_eq
  cases writing : threads.connection.channel_.isWriting with
  | true =>
      apply idle_step orderly same taken
      simp [eq, writing]
  | false =>
      have drained : threads.connection.outputBuffer_.readable = [] := by
        by_contra nonempty
        simp [orderly.interest.mpr nonempty] at writing
      have emits : threads.connection.Emits [] threads.connection.shutdownInLoop := by
        rw [eq]
        exact ⟨by simp [TcpConnection.outgoing], orderly.interest, rfl, [],
          by simp, by simp⟩
      have counted : threads.connection.shutdownInLoop.shutdownWrites =
          threads.connection.shutdownWrites + 1 := by simp [eq, writing]
      obtain ⟨kept, record⟩ := commit_halfClose orderly emits counted closing
        (by rw [eq]; exact drained)
      refine ⟨kept, ?_⟩
      rw [record, same, outgoing, observed, halfCloses, List.append_nil]
      exact .halfClose _ taken.symm

omit [DecidableEq Thread] in
theorem runFunctor_step {functor : Functor} {result : WriteResult}
    (keepsOpen : functor.KeepsOpen)
    (closing : functor = .shutdownInLoop →
      threads.connection.state_ = .kDisconnecting)
    (harmless : threads.connection.shutdownWrites = 0 → ¬ result.Fault)
    (taken : prior.waiting.Perm (functor.message?.toList ++ threads.waiting)) :
    (threads.commit (threads.connection.runFunctor functor result)).Orderly ∧
      prior.ledger.Step
        (threads.commit (threads.connection.runFunctor functor result)).ledger := by
  cases functor with
  | forceCloseInLoop | connectDestroyed => exact keepsOpen.elim
  | writeCompleteCallback | highWaterMarkCallback size =>
      exact idle_step orderly same taken rfl
  | sendInLoop s => exact sendInLoop_step orderly same harmless taken
  | shutdownInLoop => exact shutdownInLoop_step orderly same (closing rfl) taken

end RunFunctor

omit [DecidableEq Thread] in
theorem waiting_eq (threads : ConnectionThreads Thread) :
    threads.waiting =
      Functor.messages (threads.calls.map fun entry => entry.2.functor) ++
        Functor.messages threads.functors :=
  Functor.messages_append _ _

theorem waiting_erase (threads : ConnectionThreads Thread) {entry : Thread × Call}
    (membership : entry ∈ threads.calls) :
    threads.waiting.Perm (entry.2.functor.message?.toList ++
      { threads with calls := threads.calls.erase entry }.waiting) := by
  have perm := (List.perm_cons_erase membership).map
    (fun entry => entry.2.functor)
  have messages := (perm.append_right threads.functors).filterMap Functor.message?
  change threads.waiting.Perm (Functor.messages (_ :: _)) at messages
  rwa [Functor.messages_cons] at messages

theorem send_step {loop thread : Thread} {threads : ConnectionThreads Thread}
    (s : Bytes) (orderly : threads.Orderly) :
    (next loop threads (.send thread s)).Orderly ∧
      threads.ledger.Step (next loop threads (.send thread s)).ledger := by
  by_cases connected : threads.connection.state_ = .kConnected
  · have calm : ¬ (.shutdown ∈ threads.calls.map Prod.snd ∨
        .shutdownInLoop ∈ threads.functors ∨ threads.halfCloses ≠ []) := by
      intro reason
      simp [orderly.closing reason] at connected
    have first : threads.halfCloses = [] := by
      by_contra made
      exact calm (.inr (.inr made))
    rw [next, if_pos connected]
    refine ⟨⟨orderly.alive, orderly.interest, orderly.keepOpen,
      orderly.counted, ?_⟩, .observe s _ first ?_⟩
    · intro reason
      exact absurd (by simpa [functors] using reason) calm
    · rw [waiting_eq, ledger, waiting_eq]
      simp [Functor.messages, functors]
  · rw [next, if_neg connected]
    exact ⟨orderly, .move _ (.refl _)⟩

theorem shutdown_step {loop thread : Thread} {threads : ConnectionThreads Thread}
    (orderly : threads.Orderly) :
    (next loop threads (.shutdown thread)).Orderly ∧
      threads.ledger.Step (next loop threads (.shutdown thread)).ledger := by
  by_cases connected : threads.connection.state_ = .kConnected
  · simp only [next, TcpConnection.compareExchange, if_pos connected, if_true]
    refine ⟨⟨by simp, orderly.interest, orderly.keepOpen, orderly.counted,
      fun _ => rfl⟩, .move _ ?_⟩
    rw [waiting_eq, ledger, waiting_eq]
    simp [Functor.messages, functors, List.filterMap_cons]
  · simp only [next, TcpConnection.compareExchange, if_neg connected]
    exact ⟨orderly, .move _ (.refl _)⟩

theorem runInLoop_step {loop thread : Thread} {call : Call} {result : WriteResult}
    {threads : ConnectionThreads Thread} (orderly : threads.Orderly)
    (underWay : (thread, call) ∈ threads.calls)
    (harmless : threads.connection.shutdownWrites = 0 → ¬ result.Fault) :
    (next loop threads (.runInLoop thread call result)).Orderly ∧
      threads.ledger.Step
        (next loop threads (.runInLoop thread call result)).ledger := by
  have keepsOpen := call.functor_keepsOpen
  have closing : call.functor = .shutdownInLoop →
      threads.connection.state_ = .kDisconnecting := by
    intro shuts
    apply orderly.closing
    cases call with
    | send s => simp [Call.functor] at shuts
    | shutdown => exact .inl (List.mem_map.mpr ⟨_, underWay, rfl⟩)
  have taken := threads.waiting_erase underWay
  have fewer : { threads with calls := threads.calls.erase (thread, call) }.Orderly :=
    orderly.mono rfl orderly.interest (fun _ membership => membership)
      (fun _ => List.mem_of_mem_erase) rfl rfl
  by_cases inLoop : thread = loop
  · rw [next, if_pos inLoop]
    exact runFunctor_step fewer rfl keepsOpen closing harmless taken
  · rw [next, if_neg inLoop]
    have functors := threads.functors_queueInLoop (threads.calls.erase (thread, call))
      call.functor
    refine ⟨⟨orderly.alive, orderly.interest, ?_, orderly.counted, ?_⟩, ?_⟩
    · rw [functors]
      intro functor membership
      rcases List.mem_append.mp membership with old | new
      · exact orderly.keepOpen functor old
      · exact List.mem_singleton.mp new ▸ keepsOpen
    · rw [functors]
      rintro (called | queued | made)
      · exact fewer.closing (.inl called)
      · rcases List.mem_append.mp queued with old | new
        · exact orderly.closing (.inr (.inl old))
        · exact closing (List.mem_singleton.mp new).symm
      · exact orderly.closing (.inr (.inr made))
    · refine .move _ (List.Perm.trans ?_ taken.symm)
      rw [waiting_eq, functors, waiting_eq]
      rw [Functor.messages_append, Functor.messages_cons, ← List.append_assoc]
      have noMore : Functor.messages [] = [] := rfl
      rw [noMore, List.append_nil]
      exact List.perm_append_comm

theorem runFunctorEvent_step {loop : Thread} {result : WriteResult}
    {threads : ConnectionThreads Thread} (orderly : threads.Orderly)
    (harmless : threads.connection.shutdownWrites = 0 → ¬ result.Fault) :
    (next loop threads (.runFunctor result)).Orderly ∧
      threads.ledger.Step (next loop threads (.runFunctor result)).ledger := by
  unfold next
  dsimp only
  split
  next functor rest batch =>
    have functors := functors_eq_cons batch
    have fewer : { threads with batch := some rest }.Orderly :=
      orderly.mono rfl orderly.interest
        (fun other membership => functors ▸ List.mem_cons_of_mem functor membership)
        (fun _ membership => membership) rfl rfl
    have isQueued : functor ∈ threads.functors := functors ▸ List.mem_cons_self
    refine runFunctor_step fewer rfl (orderly.keepOpen functor isQueued) ?_
      harmless ?_
    · rintro rfl
      exact orderly.closing (.inr (.inl isQueued))
    · rw [waiting_eq, functors, waiting_eq, Functor.messages_cons]
      exact List.perm_append_comm_assoc _ _ _
  next noFunctor => exact ⟨orderly, .move _ (.refl _)⟩

omit [DecidableEq Thread] in
theorem batch_step {threads : ConnectionThreads Thread}
    {batch : Option (List Functor)} (pending : List Functor)
    (orderly : threads.Orderly)
    (same : batch.getD [] ++ pending = threads.functors) :
    { threads with
      batch := batch
      connection := { threads.connection with
        pending_functors_ := pending } }.Orderly ∧
      threads.ledger.Step { threads with
        batch := batch
        connection := { threads.connection with
          pending_functors_ := pending } }.ledger := by
  have functors : { threads with
      batch := batch
      connection := { threads.connection with
        pending_functors_ := pending } }.functors = threads.functors := same
  refine ⟨orderly.mono rfl orderly.interest ?_ (fun _ membership => membership) rfl rfl,
    .move _ ?_⟩
  · intro functor membership
    exact functors ▸ membership
  · rw [waiting_eq, functors, ledger, waiting_eq]

theorem next_step {loop : Thread} {threads after : ConnectionThreads Thread}
    {event : Event Thread} (orderly : threads.Orderly)
    (step : (system loop).step threads event after) :
    after.Orderly ∧ threads.ledger.Step after.ledger := by
  obtain ⟨enabled, harmless, rfl⟩ := step
  cases event with
  | send thread s => exact send_step s orderly
  | shutdown thread => exact shutdown_step orderly
  | runInLoop thread call result =>
      exact runInLoop_step orderly enabled fun unshut => harmless unshut _ rfl
  | beginFunctors =>
      exact batch_step _ orderly (by simp [functors, enabled.2])
  | runFunctor result =>
      exact runFunctorEvent_step orderly fun unshut => harmless unshut _ rfl
  | endFunctors =>
      exact batch_step threads.connection.pending_functors_ orderly
        (by simp [functors, enabled.2])
  | handleWrite result =>
      obtain ⟨emits, halfClose⟩ := threads.connection.handleWrite_spec result
        orderly.interest
      unfold next
      rcases halfClose with same | ⟨counted, disconnecting, drained⟩
      · obtain ⟨kept, plain⟩ := commit_plain orderly emits same
        refine ⟨kept, ?_⟩
        rw [plain, List.append_nil]
        exact .move _ (.refl _)
      · obtain ⟨kept, record⟩ := commit_halfClose orderly emits counted disconnecting drained
        refine ⟨kept, ?_⟩
        rw [record, List.append_nil]
        exact .halfClose _ (.refl _)

theorem reachable_balanced {loop : Thread} {history : List (Event Thread)}
    {threads : ConnectionThreads Thread}
    (execution : (system loop).Execution history threads) :
    threads.Orderly ∧ threads.ledger.Balanced := by
  refine execution.invariant
    (fun threads => threads.Orderly ∧ threads.ledger.Balanced) ?_ ?_
  · rintro _ ⟨writeComplete, highWaterMark, rfl⟩
    refine ⟨⟨?_, ?_, ?_, rfl, ?_⟩, ⟨fun _ => ⟨[], ?_, ?_⟩, ?_, ?_⟩⟩
    all_goals simp [start, ledger, functors, waiting, Functor.messages,
      TcpConnection.connectEstablished, TcpConnection.callOwner,
      TcpConnection.new, TcpConnection.InterestMatchesBuffer,
      TcpConnection.outgoing]
  · rintro threads event after ⟨orderly, balanced⟩ step
    obtain ⟨kept, moved⟩ := next_step orderly step
    exact ⟨kept, balanced.step moved⟩

/-- In every interleaving the half-closes all come after the last byte of every
message whose `send` saw `kConnected` exactly when none of them is made while
a non-empty message still waits for `sendInLoop`. -/
theorem halfCloses_complete_iff_quiet {loop : Thread}
    {history : List (Event Thread)} {threads : ConnectionThreads Thread}
    (execution : (system loop).Execution history threads) :
    (∀ halfClose ∈ threads.halfCloses, halfClose.Complete) ↔
      ∀ halfClose ∈ threads.halfCloses, halfClose.Quiet :=
  (reachable_balanced execution).2.exact

/-- A message sent and a shutdown called by the loop thread itself. -/
theorem halfCloses_complete_iff_quiet_loop_thread :
    let threads := next 0 (next 0 (next 0 (next 0 (start false false)
      (.send 0 [7])) (.runInLoop 0 (.send [7]) (.wrote 1))) (.shutdown 0))
      (.runInLoop 0 .shutdown (.wrote 0))
    threads.halfCloses = [⟨[[7]], [], [7]⟩] ∧
      ∀ halfClose ∈ threads.halfCloses, halfClose.Complete := by
  have sent := System.Run.single (system 0) (start false false) (.send 0 [7])
    ⟨by decide, by simp [Event.result?], rfl⟩
  have written := sent.extend (.runInLoop 0 (.send [7]) (.wrote 1))
    ⟨by decide, by simp [Event.result?, WriteResult.Fault], rfl⟩
  have closing := written.extend (.shutdown 0)
    ⟨by decide, by simp [Event.result?], rfl⟩
  have closed := closing.extend (.runInLoop 0 .shutdown (.wrote 0))
    ⟨by decide, by simp [Event.result?, WriteResult.Fault], rfl⟩
  exact ⟨by decide, (halfCloses_complete_iff_quiet
    ⟨_, ⟨false, false, rfl⟩, closed⟩).mpr (by decide)⟩

/-- The loop thread half-closes at once although the functor of another
thread's earlier `send` is still queued. -/
theorem halfClose_truncates :
    ¬ ∀ (history : List (Event Nat)) (threads : ConnectionThreads Nat),
      (system 0).Execution history threads →
        ∀ halfClose ∈ threads.halfCloses, halfClose.Complete := by
  intro graceful
  have sent := System.Run.single (system 0) (start false false) (.send 1 [7])
    ⟨by decide, by simp [Event.result?], rfl⟩
  have queued := sent.extend (.runInLoop 1 (.send [7]) (.wrote 0))
    ⟨by decide, by simp [Event.result?, WriteResult.Fault], rfl⟩
  have closing := queued.extend (.shutdown 0)
    ⟨by decide, by simp [Event.result?], rfl⟩
  have closed := closing.extend (.runInLoop 0 .shutdown (.wrote 0))
    ⟨by decide, by simp [Event.result?, WriteResult.Fault], rfl⟩
  obtain ⟨order, perm, accepted⟩ := graceful _ _ ⟨_, ⟨false, false, rfl⟩, closed⟩
    ⟨[[7]], [[7]], []⟩ (by decide)
  rw [List.perm_singleton] at perm
  simp [perm] at accepted

end ConnectionThreads

end GdRpc.Net
