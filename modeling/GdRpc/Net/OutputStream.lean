import GdRpc.Library.Transition
import GdRpc.Net.TcpConnection

/-!
# The outgoing byte stream

Bytes leave a connection on two paths, the direct write of `sendInLoop` and
the buffered write of `handleWrite`. Write interest couples them: it is
enabled exactly while the output buffer holds something, and then the direct
path is closed.
-/

namespace GdRpc.Net

open GdRpc.Library GdRpc.Library.System

theorem WriteResult.taken_eq_take (result : WriteResult) (argument : Bytes) :
    result.taken argument = argument.take (result.taken argument).length := by
  cases result with
  | failed errno => simp [WriteResult.taken]
  | wrote n =>
      simp only [WriteResult.taken, List.length_take]
      rw [List.take_eq_take_iff]
      omega

/-- The functors that only run a callback set by the user. -/
def Functor.Notifies : Functor → Prop
  | .writeCompleteCallback => True
  | .highWaterMarkCallback _ => True
  | _ => False

namespace TcpConnection

/-- The bytes the kernel took, followed by those that wait in the buffer. -/
def outgoing (connection : TcpConnection) : Bytes :=
  connection.accepted ++ connection.outputBuffer_.readable

/-- Write interest is enabled exactly while the output buffer is non-empty. -/
def InterestMatchesBuffer (connection : TcpConnection) : Prop :=
  connection.channel_.isWriting = true ↔
    connection.outputBuffer_.readable ≠ []

/-! ## The direct write -/

/-- What the direct write can do: it takes a prefix, and a non-empty one only
when the buffer is empty; only the accepted bytes and the queue of functors
change. -/
theorem writeDirectly_spec (connection : TcpConnection) (s : Bytes)
    (result : WriteResult) {nwrote : Nat} {faultError : Bool}
    {written : TcpConnection}
    (write : connection.writeDirectly s result = (nwrote, faultError, written)) :
    (nwrote = 0 ∨ connection.outputBuffer_.readable = []) ∧
    (faultError = true → result.Fault ∧ written = connection) ∧
    ∃ functors : List Functor, (∀ functor ∈ functors, functor.Notifies) ∧
      written = { connection with
        accepted := connection.accepted ++ s.take nwrote
        pending_functors_ := connection.pending_functors_ ++ functors } := by
  unfold writeDirectly at write
  split at write
  next idle =>
    have empty := (Buffer.readable_eq_nil_iff _).mpr idle.2
    split at write
    next nonneg =>
      have isPrefix := WriteResult.taken_eq_take result s
      dsimp only at write
      split at write
      next complete =>
        cases write
        refine ⟨.inr empty, by simp, [.writeCompleteCallback],
          by simp [Functor.Notifies], ?_⟩
        rw [← isPrefix]
        rfl
      next partly =>
        cases write
        refine ⟨.inr empty, by simp, [], by simp, ?_⟩
        rw [← isPrefix]
        simp
    next failed =>
      cases write
      refine ⟨.inl rfl, ?_, [], by simp, by simp⟩
      intro fault
      exact ⟨of_decide_eq_true fault, rfl⟩
  next busy =>
    cases write
    exact ⟨.inl rfl, by simp, [], by simp, by simp⟩

theorem bufferRemaining_spec (connection : TcpConnection) (rest : Bytes) :
    (connection.bufferRemaining rest).channel_.isWriting = true ∧
    ∃ functors : List Functor, (∀ functor ∈ functors, functor.Notifies) ∧
      connection.bufferRemaining rest = { connection with
        outputBuffer_ := connection.outputBuffer_.append rest
        channel_ := (connection.bufferRemaining rest).channel_
        pending_functors_ := connection.pending_functors_ ++ functors } := by
  constructor
  · unfold bufferRemaining
    dsimp only
    split
    next writing => exact writing
    next notWriting => exact Channel.isWriting_enableWriting _
  · unfold bufferRemaining
    dsimp only
    split
    next warn =>
      exact ⟨[.highWaterMarkCallback _], by simp [Functor.Notifies], rfl⟩
    next quiet =>
      exact ⟨[], by simp, by simp⟩

/-! ## One step of each kind -/

/-- A step that adds `s` to the outgoing stream: write interest stays in step
with the buffer, the state does not change, and only notifications are queued. -/
structure Emits (before : TcpConnection) (s : Bytes) (after : TcpConnection) :
    Prop where
  outgoing : after.outgoing = before.outgoing ++ s
  interest : after.InterestMatchesBuffer
  state_ : after.state_ = before.state_
  functors : ∃ added, (∀ functor ∈ added, functor.Notifies) ∧
    after.pending_functors_ = before.pending_functors_ ++ added

theorem Emits.refl (connection : TcpConnection)
    (interest : connection.InterestMatchesBuffer) :
    connection.Emits [] connection :=
  ⟨by simp, interest, rfl, [], by simp, by simp⟩

theorem Emits.alive {before after : TcpConnection} {s : Bytes}
    (emits : before.Emits s after) (alive : before.state_ ≠ .kDisconnected) :
    after.state_ ≠ .kDisconnected := by
  rw [emits.state_]
  exact alive

theorem sendInLoop_cases (connection : TcpConnection) (s : Bytes)
    (result : WriteResult) (alive : connection.state_ ≠ .kDisconnected)
    (interest : connection.InterestMatchesBuffer) :
    (connection.sendInLoop s result).shutdownWrites = connection.shutdownWrites ∧
    ((result.Fault ∧ connection.sendInLoop s result = connection) ∨
      connection.Emits s (connection.sendInLoop s result)) := by
  rcases write : connection.writeDirectly s result with
    ⟨nwrote, faultError, written⟩
  obtain ⟨behind, fault, functors, notify, writtenEq⟩ :=
    connection.writeDirectly_spec s result write
  rw [sendInLoop, if_neg alive, write]
  dsimp only
  split
  next remaining =>
    -- the rest goes behind what the buffer holds, the direct prefix in front
    obtain ⟨writing, warnings, warn, bufferedEq⟩ :=
      written.bufferRemaining_spec (s.drop nwrote)
    subst writtenEq
    refine ⟨by rw [bufferedEq], .inr ⟨?_, ?_, by rw [bufferedEq],
      functors ++ warnings, ?_, by rw [bufferedEq]; simp⟩⟩
    · rw [bufferedEq]
      simp only [outgoing, Buffer.readable_append]
      rcases behind with rfl | empty
      · simp
      · simp [empty]
    · have rest : s.drop nwrote ≠ [] := by
        rw [Ne, List.drop_eq_nil_iff]
        omega
      rw [InterestMatchesBuffer, writing, bufferedEq]
      simp [rest]
    · intro functor membership
      rcases List.mem_append.mp membership with direct | warning
      · exact notify functor direct
      · exact warn functor warning
  next complete =>
    cases faultError with
    | true =>
        obtain ⟨failed, unchanged⟩ := fault rfl
        subst unchanged
        exact ⟨rfl, .inl ⟨failed, rfl⟩⟩
    | false =>
        have whole : s.take nwrote = s := by
          apply List.take_of_length_le
          simp at complete
          omega
        subst writtenEq
        refine ⟨rfl, .inr ⟨?_, interest, rfl, functors, notify, rfl⟩⟩
        simp only [outgoing, whole]
        rcases behind with rfl | empty
        · have nothing : s = [] := by simpa using whole.symm
          simp [nothing]
        · simp [empty]

theorem shutdownInLoop_eq (connection : TcpConnection) :
    connection.shutdownInLoop = { connection with
      shutdownWrites := connection.shutdownWrites +
        if connection.channel_.isWriting then 0 else 1 } := by
  unfold shutdownInLoop
  cases connection.channel_.isWriting with
  | true => rfl
  | false => rfl

theorem retrieveWritten_drained (connection : TcpConnection) (n : Nat)
    (drained : (connection.outputBuffer_.retrieve n).2.readableBytes = 0) :
    ∃ functors : List Functor, (∀ functor ∈ functors, functor.Notifies) ∧
      connection.retrieveWritten n = { connection with
        outputBuffer_ := (connection.outputBuffer_.retrieve n).2
        channel_ := connection.channel_.disableWriting
        pending_functors_ := connection.pending_functors_ ++ functors
        shutdownWrites := connection.shutdownWrites +
          if connection.state_ = .kDisconnecting then 1 else 0 } := by
  refine ⟨if connection.writeCompleteCallback_ then [.writeCompleteCallback]
    else [], ?_, ?_⟩
  · split <;> simp [Functor.Notifies]
  · unfold retrieveWritten
    simp only [drained, if_true, shutdownInLoop_eq]
    cases connection.writeCompleteCallback_ <;>
      by_cases closing : connection.state_ = .kDisconnecting <;>
      simp [queueInLoop, closing]

theorem retrieveWritten_spec (connection : TcpConnection) {n : Nat}
    (writing : connection.channel_.isWriting = true)
    (fits : n ≤ connection.outputBuffer_.readableBytes) :
    (connection.retrieveWritten n).accepted = connection.accepted ∧
    (connection.retrieveWritten n).outputBuffer_.readable =
      connection.outputBuffer_.readable.drop n ∧
    (connection.retrieveWritten n).InterestMatchesBuffer ∧
    (connection.retrieveWritten n).state_ = connection.state_ ∧
    (∃ added : List Functor, (∀ functor ∈ added, functor.Notifies) ∧
      (connection.retrieveWritten n).pending_functors_ =
        connection.pending_functors_ ++ added) ∧
    ((connection.retrieveWritten n).shutdownWrites = connection.shutdownWrites ∨
      (connection.retrieveWritten n).shutdownWrites =
        connection.shutdownWrites + 1 ∧
      connection.state_ = .kDisconnecting ∧
      (connection.retrieveWritten n).outputBuffer_.readable = []) := by
  have retrieved := (connection.outputBuffer_.retrieve_of_le fits).2
  by_cases drained : (connection.outputBuffer_.retrieve n).2.readableBytes = 0
  · have empty := (Buffer.readable_eq_nil_iff _).mpr drained
    obtain ⟨functors, notify, eq⟩ := connection.retrieveWritten_drained n drained
    rw [eq]
    refine ⟨rfl, retrieved, ?_, rfl, ⟨functors, notify, rfl⟩, ?_⟩
    · simp [InterestMatchesBuffer, empty]
    · by_cases closing : connection.state_ = .kDisconnecting <;>
        simp [closing, empty]
  · have nonempty := mt (Buffer.readable_eq_nil_iff _).mp drained
    have eq : connection.retrieveWritten n = { connection with
        outputBuffer_ := (connection.outputBuffer_.retrieve n).2 } := by
      simp [retrieveWritten, drained]
    rw [eq]
    refine ⟨rfl, retrieved, ?_, rfl, ⟨[], by simp, by simp⟩, .inl rfl⟩
    simpa [InterestMatchesBuffer, writing] using nonempty

theorem handleWrite_spec (connection : TcpConnection) (result : WriteResult)
    (interest : connection.InterestMatchesBuffer) :
    connection.Emits [] (connection.handleWrite result) ∧
    ((connection.handleWrite result).shutdownWrites = connection.shutdownWrites ∨
      (connection.handleWrite result).shutdownWrites =
        connection.shutdownWrites + 1 ∧
      connection.state_ = .kDisconnecting ∧
      (connection.handleWrite result).outputBuffer_.readable = []) := by
  have unchanged := Emits.refl connection interest
  unfold handleWrite
  split
  next writing =>
    dsimp only
    split
    next progress =>
      have isPrefix := WriteResult.taken_eq_take result
        connection.outputBuffer_.readable
      have fits : (result.taken connection.outputBuffer_.readable).length ≤
          connection.outputBuffer_.readableBytes := by
        rw [isPrefix, List.length_take, Buffer.length_readable]
        omega
      obtain ⟨accepted, readable, matched, state, functors, halfClose⟩ :=
        retrieveWritten_spec { connection with
          accepted := connection.accepted ++
            result.taken connection.outputBuffer_.readable } writing fits
      refine ⟨⟨?_, matched, state, functors⟩, halfClose⟩
      rw [outgoing, accepted, readable]
      conv => lhs; lhs; rw [isPrefix]
      simp [outgoing, List.append_assoc]
    next stalled => exact ⟨unchanged, .inl rfl⟩
  next notWriting => exact ⟨unchanged, .inl rfl⟩

/-! ## Runs -/

/-- What can happen to the outgoing side of a connection that is not closed.
`shutdown` is the change of state, `shutdownInLoop` its functor. -/
inductive OutputEvent where
  | connectEstablished
  | sendInLoop (s : Bytes) (result : WriteResult)
  | handleWrite (result : WriteResult)
  | shutdown
  | shutdownInLoop
  deriving DecidableEq, Repr

def applyOutput (connection : TcpConnection) : OutputEvent → TcpConnection
  | .connectEstablished => connection.connectEstablished
  | .sendInLoop s result => connection.sendInLoop s result
  | .handleWrite result => connection.handleWrite result
  | .shutdown => (connection.compareExchange .kConnected .kDisconnecting).2
  | .shutdownInLoop => connection.shutdownInLoop

/-- A write of this event does not fail with `EPIPE` or `ECONNRESET`. -/
def OutputEvent.Harmless : OutputEvent → Prop
  | .sendInLoop _ result => ¬ result.Fault
  | .handleWrite result => ¬ result.Fault
  | _ => True

instance (event : OutputEvent) : Decidable event.Harmless := by
  unfold OutputEvent.Harmless
  split <;> infer_instance

/-- The message an event passes to `sendInLoop`. -/
def OutputEvent.message : OutputEvent → Bytes
  | .sendInLoop s _ => s
  | _ => []

/-- The runs of a newly constructed connection. -/
def outputSystem : System TcpConnection OutputEvent where
  initial connection :=
    ∃ writeComplete highWaterMark, connection = .new writeComplete highWaterMark
  step connection event next :=
    event.Harmless ∧ next = connection.applyOutput event

theorem applyOutput_emits {connection : TcpConnection} {event : OutputEvent}
    (harmless : event.Harmless) (alive : connection.state_ ≠ .kDisconnected)
    (interest : connection.InterestMatchesBuffer) :
    (connection.applyOutput event).outgoing =
        connection.outgoing ++ event.message ∧
      (connection.applyOutput event).InterestMatchesBuffer ∧
      (connection.applyOutput event).state_ ≠ .kDisconnected := by
  cases event with
  | connectEstablished =>
      refine ⟨?_, ?_, ?_⟩
      · simp [applyOutput, connectEstablished, callOwner, outgoing,
          OutputEvent.message]
      · simpa [applyOutput, connectEstablished, callOwner,
          InterestMatchesBuffer] using interest
      · simp [applyOutput, connectEstablished, callOwner]
  | sendInLoop s result =>
      rcases (connection.sendInLoop_cases s result alive interest).2 with
        ⟨fault, _⟩ | emits
      · exact absurd fault harmless
      · exact ⟨emits.outgoing, emits.interest, emits.alive alive⟩
  | handleWrite result =>
      have emits := (connection.handleWrite_spec result interest).1
      exact ⟨emits.outgoing, emits.interest, emits.alive alive⟩
  | shutdown =>
      by_cases connected : connection.state_ = .kConnected
      · simp only [applyOutput, compareExchange, connected, if_true]
        exact ⟨by simp [outgoing, OutputEvent.message], interest, by simp⟩
      · simp only [applyOutput, compareExchange, connected, if_false]
        exact ⟨by simp [OutputEvent.message], interest, alive⟩
  | shutdownInLoop =>
      rw [applyOutput, shutdownInLoop_eq]
      exact ⟨by simp [outgoing, OutputEvent.message], interest, alive⟩

/-- Over any run of `sendInLoop` calls and `handleWrite` events on a connection
that has not been disconnected, whatever prefixes the kernel takes, the bytes
it took followed by the readable bytes of the output buffer are the messages
sent, in order, and write interest is enabled exactly while the buffer is
non-empty. -/
theorem output_stream_exact {history : List OutputEvent}
    {connection : TcpConnection}
    (execution : outputSystem.Execution history connection) :
    connection.accepted ++ connection.outputBuffer_.readable =
        history.flatMap OutputEvent.message ∧
      (connection.channel_.isWriting = true ↔
        connection.outputBuffer_.readable ≠ []) := by
  have invariant := execution.history
    (fun past reached =>
      reached.outgoing = past.flatMap OutputEvent.message ∧
        reached.InterestMatchesBuffer ∧ reached.state_ ≠ .kDisconnected) ?_ ?_
  · exact ⟨invariant.1, invariant.2.1⟩
  · rintro start ⟨writeComplete, highWaterMark, rfl⟩
    simp [outgoing, new, InterestMatchesBuffer]
  · rintro past middle event next ⟨stream, interest, alive⟩ ⟨harmless, rfl⟩
    obtain ⟨emitted, matched, stillOpen⟩ :=
      applyOutput_emits harmless alive interest
    refine ⟨?_, matched, stillOpen⟩
    rw [emitted, stream]
    simp

/-- Two messages, a partial direct write, a refused one and a partial buffered
write. -/
theorem output_stream_exact_partial_writes :
    let connection :=
      ((((new false false).applyOutput .connectEstablished).applyOutput
        (.sendInLoop [1, 2, 3] (.wrote 1))).applyOutput
        (.sendInLoop [4] (.failed EWOULDBLOCK))).applyOutput
        (.handleWrite (.wrote 2))
    connection.accepted ++ connection.outputBuffer_.readable =
        [1] ++ [2, 3] ++ [4] ∧
      (connection.channel_.isWriting = true ↔
        connection.outputBuffer_.readable ≠ []) := by
  have start := Run.single outputSystem (new false false) .connectEstablished
    ⟨trivial, rfl⟩
  have first := start.extend (.sendInLoop [1, 2, 3] (.wrote 1))
    ⟨by decide, rfl⟩
  have second := first.extend (.sendInLoop [4] (.failed EWOULDBLOCK))
    ⟨by decide, rfl⟩
  have third := second.extend (.handleWrite (.wrote 2)) ⟨by decide, rfl⟩
  exact output_stream_exact ⟨_, ⟨false, false, rfl⟩, third⟩

end TcpConnection

end GdRpc.Net
