import GdRpc.Net.MessageOrder
import GdRpc.Net.OwnerCalls

/-!
# No half-close is forgotten

`shutdownInLoop` does nothing while something is still to be written and leaves
the half-close to `handleWrite`, which looks at `state_` when the buffer has
drained. At any moment one of them is still to act or has acted.
-/

namespace GdRpc.Net

open GdRpc.Library

universe u

namespace TcpConnection

/-- The half-close has been made, or there is a `handleWrite` to come. -/
def Assured (connection : TcpConnection) : Prop :=
  0 < connection.shutdownWrites ∨ connection.channel_.isWriting = true

theorem shutdownInLoop_assured (connection : TcpConnection) :
    connection.shutdownInLoop.Assured := by
  rw [Assured, shutdownInLoop_eq]
  cases writing : connection.channel_.isWriting with
  | true => exact Or.inr rfl
  | false => exact Or.inl (Nat.succ_pos _)

theorem bufferRemaining_assured (connection : TcpConnection) (rest : Bytes) :
    (connection.bufferRemaining rest).Assured :=
  Or.inr (connection.bufferRemaining_spec rest).1

theorem sendInLoop_assured {connection : TcpConnection} (assured : connection.Assured)
    (s : Bytes) (result : WriteResult) : (connection.sendInLoop s result).Assured := by
  by_cases disconnected : connection.state_ = .kDisconnected
  · rw [sendInLoop, if_pos disconnected]
    exact assured
  · rcases write : connection.writeDirectly s result with ⟨nwrote, faultError, written⟩
    obtain ⟨-, -, functors, -, writtenEq⟩ := connection.writeDirectly_spec s result write
    rw [sendInLoop, if_neg disconnected, write]
    dsimp only
    split
    · exact written.bufferRemaining_assured _
    · rw [writtenEq]
      exact assured

/-- When `handleWrite` stops writing it looks at the state. -/
theorem handleWrite_assured {connection : TcpConnection} (assured : connection.Assured)
    (disconnecting : connection.state_ = .kDisconnecting) (result : WriteResult) :
    (connection.handleWrite result).Assured := by
  unfold handleWrite
  split
  · dsimp only
    split
    · generalize read : (result.taken connection.outputBuffer_.readable).length = n
      generalize advanced : { connection with
        accepted := connection.accepted ++
          result.taken connection.outputBuffer_.readable } = argument
      have state : argument.state_ = .kDisconnecting := by
        rw [← advanced]
        exact disconnecting
      have before : argument.Assured := by
        rw [← advanced]
        exact assured
      by_cases drained : (argument.outputBuffer_.retrieve n).2.readableBytes = 0
      · obtain ⟨functors, -, eq⟩ := argument.retrieveWritten_drained n drained
        rw [eq, Assured, if_pos state]
        exact Or.inl (Nat.succ_pos _)
      · simp only [retrieveWritten, if_neg drained]
        exact before
    · exact assured
  · exact assured

theorem runFunctor_assured {connection : TcpConnection} {functor : Functor}
    (keepsOpen : functor.KeepsOpen) (result : WriteResult)
    (assured : connection.Assured ∨ functor = .shutdownInLoop) :
    (connection.runFunctor functor result).Assured := by
  cases functor with
  | forceCloseInLoop | connectDestroyed => exact keepsOpen.elim
  | shutdownInLoop => exact connection.shutdownInLoop_assured
  | sendInLoop s => exact sendInLoop_assured (assured.resolve_right (by simp)) s result
  | writeCompleteCallback => exact assured.resolve_right (by simp)
  | highWaterMarkCallback size => exact assured.resolve_right (by simp)

theorem runFunctor_state {functor : Functor} (keepsOpen : functor.KeepsOpen)
    (connection : TcpConnection) (result : WriteResult) :
    (connection.runFunctor functor result).state_ = connection.state_ := by
  cases functor with
  | forceCloseInLoop | connectDestroyed => exact keepsOpen.elim
  | shutdownInLoop => exact connection.shutdownInLoop_quiet.state_
  | sendInLoop s => exact (connection.sendInLoop_quiet s result).state_
  | writeCompleteCallback | highWaterMarkCallback => rfl

end TcpConnection

namespace ConnectionThreads

variable {Thread : Type u} [DecidableEq Thread]

/-- Who has still to see to the half-close of a connection in `kDisconnecting`. -/
def Promised (threads : ConnectionThreads Thread) : Prop :=
  threads.connection.state_ = .kDisconnecting →
    threads.connection.Assured ∨ .shutdownInLoop ∈ threads.functors ∨
      .shutdown ∈ threads.calls.map Prod.snd

variable {loop : Thread} {threads : ConnectionThreads Thread} {stream : Bytes}

omit [DecidableEq Thread] in
theorem promised_commit {functor : Functor} (keepsOpen : functor.KeepsOpen)
    (carries : threads.connection.Carries stream) (result : WriteResult)
    (promised : threads.connection.state_ = .kDisconnecting →
      (threads.connection.Assured ∨ functor = .shutdownInLoop) ∨
        .shutdownInLoop ∈ threads.functors ∨ .shutdown ∈ threads.calls.map Prod.snd) :
    (threads.commit (threads.connection.runFunctor functor result)).Promised := by
  intro disconnecting
  have before : threads.connection.state_ = .kDisconnecting := by
    rw [← TcpConnection.runFunctor_state keepsOpen threads.connection result]
    exact disconnecting
  obtain ⟨given, -, -, added, -, pending⟩ := carries.runFunctor keepsOpen result
  have functors : (threads.commit (threads.connection.runFunctor functor result)).functors =
      threads.functors ++ added := by
    simp [ConnectionThreads.functors, commit, pending]
  rcases promised before with acting | queued | called
  · exact Or.inl (TcpConnection.runFunctor_assured keepsOpen result acting)
  · rw [functors]
    exact Or.inr (Or.inl (List.mem_append_left added queued))
  · exact Or.inr (Or.inr called)

theorem promised_runInLoop (promised : threads.Promised)
    (carries : threads.connection.Carries stream) {thread : Thread} {call : Call}
    (underWay : (thread, call) ∈ threads.calls) (result : WriteResult) :
    (next loop threads (.runInLoop thread call result)).Promised := by
  have rest : .shutdown ∈ threads.calls.map Prod.snd → call = .shutdown ∨
      .shutdown ∈ (threads.calls.erase (thread, call)).map Prod.snd := by
    intro called
    obtain ⟨entry, membership, isShutdown⟩ := List.mem_map.mp called
    by_cases same : entry = (thread, call)
    · left
      rw [← isShutdown, same]
    · right
      exact List.mem_map.mpr ⟨entry, (List.mem_erase_of_ne same).mpr membership, isShutdown⟩
  have keepsOpen := call.functor_keepsOpen
  by_cases inLoop : thread = loop
  · rw [next, if_pos inLoop]
    apply @promised_commit _ { threads with calls := threads.calls.erase (thread, call) } _ _
      keepsOpen carries result
    intro disconnecting
    rcases promised disconnecting with assured | queued | called
    · exact Or.inl (Or.inl assured)
    · exact Or.inr (Or.inl queued)
    · rcases rest called with rfl | remaining
      · exact Or.inl (Or.inr rfl)
      · exact Or.inr (Or.inr remaining)
  · rw [next, if_neg inLoop]
    intro disconnecting
    have functors := threads.functors_queueInLoop (threads.calls.erase (thread, call))
      call.functor
    rw [functors]
    rcases promised disconnecting with assured | queued | called
    · exact Or.inl assured
    · exact Or.inr (Or.inl (List.mem_append_left _ queued))
    · rcases rest called with rfl | remaining
      · exact Or.inr (Or.inl (List.mem_append_right _ (List.mem_singleton_self _)))
      · exact Or.inr (Or.inr remaining)

theorem promised_runFunctor (promised : threads.Promised)
    (carries : threads.connection.Carries stream)
    (keepOpen : ∀ functor ∈ threads.functors, functor.KeepsOpen) (result : WriteResult) :
    (next loop threads (.runFunctor result)).Promised := by
  unfold next
  dsimp only
  split
  next functor rest batch =>
    have functors := functors_eq_cons batch
    have keepsOpen := keepOpen functor (functors ▸ List.mem_cons_self)
    apply @promised_commit _ { threads with batch := some rest } _ _ keepsOpen carries result
    intro disconnecting
    rcases promised disconnecting with assured | queued | called
    · exact Or.inl (Or.inl assured)
    · rw [functors] at queued
      rcases List.mem_cons.mp queued with first | later
      · exact Or.inl (Or.inr first.symm)
      · exact Or.inr (Or.inl later)
    · exact Or.inr (Or.inr called)
  next noFunctor => exact promised

theorem promised_handleWrite (promised : threads.Promised)
    (carries : threads.connection.Carries stream) (result : WriteResult) :
    (next loop threads (.handleWrite result)).Promised := by
  intro disconnecting
  have before : threads.connection.state_ = .kDisconnecting := by
    rw [← (threads.connection.handleWrite_quiet result).state_]
    exact disconnecting
  obtain ⟨given, -, -, added, -, pending⟩ := carries.handleWrite result
  have functors : (next loop threads (.handleWrite result)).functors =
      threads.functors ++ added := by
    simp [ConnectionThreads.functors, next, commit, pending]
  rcases promised before with assured | queued | called
  · exact Or.inl (TcpConnection.handleWrite_assured assured before result)
  · rw [functors]
    exact Or.inr (Or.inl (List.mem_append_left added queued))
  · exact Or.inr (Or.inr called)

omit [DecidableEq Thread] in
theorem promised_rebatch (promised : threads.Promised) (batch : Option (List Functor))
    (pending : List Functor) (same : batch.getD [] ++ pending = threads.functors) :
    Promised { threads with
      batch := batch
      connection := { threads.connection with pending_functors_ := pending } } := by
  intro disconnecting
  rcases promised disconnecting with assured | queued | called
  · exact Or.inl assured
  · rw [← same] at queued
    exact Or.inr (Or.inl queued)
  · exact Or.inr (Or.inr called)

/-- The step lemma. -/
theorem promised_step {label : Interleaved Thread} {after : ConnectionThreads Thread}
    (promised : threads.Promised) (carries : threads.connection.Carries stream)
    (keepOpen : ∀ functor ∈ threads.functors, functor.KeepsOpen)
    (taken : (interleavings loop).step threads label after) : after.Promised := by
  obtain ⟨enabled, rfl⟩ := taken
  cases label with
  | handleClose => rintro ⟨⟩
  | act event =>
      cases event with
      | send thread s =>
          unfold interleave next
          dsimp only
          split
          · intro disconnecting
            rcases promised disconnecting with assured | queued | called
            · exact Or.inl assured
            · exact Or.inr (Or.inl queued)
            · rw [List.map_append]
              exact Or.inr (Or.inr (List.mem_append_left _ called))
          · exact promised
      | shutdown thread =>
          by_cases connected : threads.connection.state_ = .kConnected
          · simp only [interleave, next, TcpConnection.compareExchange, connected, if_true]
            intro _
            right
            right
            rw [List.map_append]
            exact List.mem_append_right _ (List.mem_singleton_self _)
          · simp only [interleave, next, TcpConnection.compareExchange, connected, if_false]
            exact promised
      | runInLoop thread call result => exact promised_runInLoop promised carries enabled result
      | runFunctor result =>
          have kept : (next loop threads (.runFunctor result)).Promised :=
            promised_runFunctor promised carries keepOpen result
          exact kept
      | handleWrite result =>
          have kept : (next loop threads (.handleWrite result)).Promised :=
            promised_handleWrite promised carries result
          exact kept
      | beginFunctors =>
          exact promised_rebatch promised (some threads.connection.pending_functors_) []
            (by simp [ConnectionThreads.functors, enabled.2])
      | endFunctors =>
          exact promised_rebatch promised none threads.connection.pending_functors_
            (by simp [ConnectionThreads.functors, enabled.2])

/-- The run lemma, with the facts about messages that its steps rest on. -/
theorem reachable_promised {history : List (Interleaved Thread)}
    (execution : (interleavings loop).Execution history threads) :
    threads.Promised ∧ ∃ sent, Ordered loop sent threads := by
  apply execution.invariant fun threads => threads.Promised ∧ ∃ sent, Ordered loop sent threads
  · rintro _ ⟨writeComplete, highWaterMark, rfl⟩
    apply And.intro _ ⟨[], start_ordered loop writeComplete highWaterMark⟩
    rintro ⟨⟩
  · rintro threads label after ⟨promised, sent, handed, queued, invariant⟩ step
    apply And.intro (promised_step promised invariant.carries invariant.keepOpen step)
    exact ⟨_, invariant.step step⟩

/-- In every interleaving a connection in `kDisconnecting` whose output buffer
is empty, with no functor left and no `shutdown` before its `runInLoop`, has
made its half-close. -/
theorem half_close_not_forgotten {history : List (Interleaved Thread)}
    (execution : (interleavings loop).Execution history threads)
    (disconnecting : threads.connection.state_ = .kDisconnecting)
    (empty : threads.connection.outputBuffer_.readable = [])
    (idle : threads.functors = [])
    (returned : .shutdown ∉ threads.calls.map Prod.snd) :
    0 < threads.connection.shutdownWrites := by
  obtain ⟨promised, sent, handed, queued, invariant⟩ := reachable_promised execution
  have alive : threads.connection.state_ ≠ .kDisconnected := by simp [disconnecting]
  have quiet : ¬ threads.connection.channel_.isWriting = true :=
    fun writing => (invariant.carries.interest alive).mp writing empty
  rw [Promised, idle] at promised
  rcases promised disconnecting with (made | writing) | queued | called
  · exact made
  · exact absurd writing quiet
  · cases queued
  · exact absurd called returned

theorem execution_of_allowed (loop : Thread) {labels : List (Interleaved Thread)}
    (allowed : System.Allowed (fun threads label => label.Enabled loop threads)
      (interleave loop) (start false false) labels) :
    (interleavings loop).Execution labels (labels.foldl (interleave loop) (start false false)) :=
  System.Execution.foldl (interleavings loop) (fun threads label => label.Enabled loop threads)
    (fun _ _ enabled => ⟨enabled, rfl⟩) ⟨false, false, rfl⟩ allowed

/-- Of a message only a part is written at once; the half-close is left to the
`handleWrite` that writes the rest. -/
def partialWrite : List (Interleaved Nat) :=
  [.act (.send 0 [7, 8]), .act (.runInLoop 0 (.send [7, 8]) (.wrote 1)),
    .act (.shutdown 1), .act (.runInLoop 1 .shutdown (.wrote 0)), .act .beginFunctors,
    .act (.runFunctor (.wrote 0)), .act .endFunctors, .act (.handleWrite (.wrote 1))]

theorem half_close_not_forgotten_partial_write :
    0 < (partialWrite.foldl (interleave 0) (start false false)).connection.shutdownWrites :=
  half_close_not_forgotten (execution_of_allowed 0 (by decide)) (by decide +kernel)
    (by decide +kernel) (by decide +kernel) (by decide +kernel)

/-- Between the exchange of `state_` and `runInLoop` nobody knows of the
half-close but the thread that has called `shutdown`. -/
theorem half_close_under_way :
    ¬ ∀ (history : List (Interleaved Nat)) (threads : ConnectionThreads Nat),
      (interleavings 0).Execution history threads →
        threads.connection.state_ = .kDisconnecting →
        threads.connection.outputBuffer_.readable = [] → threads.functors = [] →
        0 < threads.connection.shutdownWrites := by
  intro always
  have execution := execution_of_allowed 0
    (by decide : System.Allowed (fun threads label => label.Enabled 0 threads)
      (interleave 0) (start false false) [.act (.shutdown 1)])
  exact absurd (always _ _ execution (by decide) (by decide) (by decide)) (by decide)

end ConnectionThreads

end GdRpc.Net
