import GdRpc.Net.BufferStorage
import GdRpc.Net.OutputStream
import GdRpc.Net.ReadAll

/-!
# A connection whose input is read at once

A user who calls `readAll` whenever data arrives finds each time what has just
arrived: the input buffer never grows beyond two fillings of `extrabuf`, and the
count of `readAll` fits its `int`. On the way out a connection that stays open
takes over whatever it is given.
-/

namespace GdRpc.Net

open GdRpc.Library

namespace Buffer

/-- Nothing is readable, and the vector is small. -/
structure Drained (buffer : Buffer) : Prop where
  readable : buffer.readable = []
  small : buffer.size ≤ 262144

theorem drained_new : (ofSize kInitialSize).Drained :=
  ⟨readable_ofSize kInitialSize, by
    unfold ofSize size
    rw [List.length_replicate]
    decide⟩

theorem Drained.readFd {buffer : Buffer} (drained : buffer.Drained) {data : Bytes}
    (fits : data.length ≤ buffer.readvLength) :
    (buffer.readFd (.delivered data)).2.2.size ≤ 262144 := by
  have small := drained.small
  have readable := (buffer.readFd_delivered data).2
  by_cases room : data.length ≤ buffer.writableBytes
  · have same : (buffer.readFd (.delivered data)).2.2.size = buffer.size := by
      rw [Buffer.readFd, dif_pos room]
      exact size_write room
    omega
  · -- more than the writable bytes have come, so `extrabuf` was offered
    have offered : data.length < 131072 := by
      unfold readvLength extrabufSize at fits
      split at fits <;> omega
    have length : (buffer.readFd (.delivered data)).2.2.readableBytes = data.length := by
      rw [← length_readable, readable, drained.readable, List.nil_append]
    rcases @grows_readFd buffer (.delivered data) with same | ⟨-, twice⟩ <;> omega

theorem Drained.data_lt {buffer : Buffer} (drained : buffer.Drained) {data : Bytes}
    (fits : data.length ≤ buffer.readvLength) : data.length < 2 ^ 31 := by
  have small := drained.small
  unfold readvLength extrabufSize writableBytes at fits
  unfold size at small
  split at fits <;> omega

end Buffer

namespace TcpConnection

variable {connection : TcpConnection}

/-- What neither a send nor a write event does: take accepted bytes back, touch
the input buffer. -/
structure Writes (before after : TcpConnection) : Prop where
  accepted : before.accepted <+: after.accepted
  inputBuffer_ : after.inputBuffer_ = before.inputBuffer_

theorem writeDirectly_writes (s : Bytes) (result : WriteResult) :
    Writes connection (connection.writeDirectly s result).2.2 := by
  unfold writeDirectly queueInLoop
  split
  · split
    · dsimp only
      split <;> exact ⟨List.prefix_append _ _, rfl⟩
    · exact ⟨List.prefix_refl _, rfl⟩
  · exact ⟨List.prefix_refl _, rfl⟩

theorem bufferRemaining_writes (rest : Bytes) :
    Writes connection (connection.bufferRemaining rest) := by
  unfold bufferRemaining queueInLoop
  dsimp only
  split <;> exact ⟨List.prefix_refl _, rfl⟩

theorem Writes.trans {before middle after : TcpConnection} (first : Writes before middle)
    (second : Writes middle after) : Writes before after :=
  ⟨first.accepted.trans second.accepted, second.inputBuffer_.trans first.inputBuffer_⟩

theorem sendInLoop_writes (s : Bytes) (result : WriteResult) :
    Writes connection (connection.sendInLoop s result) := by
  have direct := @writeDirectly_writes connection s result
  unfold sendInLoop
  split
  · exact ⟨List.prefix_refl _, rfl⟩
  · dsimp only
    split
    · exact direct.trans (bufferRemaining_writes _)
    · exact direct

theorem retrieveWritten_writes (n : Nat) : Writes connection (connection.retrieveWritten n) := by
  by_cases drained : (connection.outputBuffer_.retrieve n).2.readableBytes = 0
  · obtain ⟨functors, -, eq⟩ := connection.retrieveWritten_drained n drained
    rw [eq]
    exact ⟨List.prefix_refl _, rfl⟩
  · simp only [retrieveWritten, drained, if_false]
    exact ⟨List.prefix_refl _, rfl⟩

theorem handleWrite_writes (result : WriteResult) :
    Writes connection (connection.handleWrite result) := by
  unfold handleWrite
  split
  · dsimp only
    split
    · have taken : Writes connection { connection with
          accepted := connection.accepted ++
            result.taken connection.outputBuffer_.readable } :=
        ⟨List.prefix_append _ _, rfl⟩
      exact taken.trans (retrieveWritten_writes _)
    · exact ⟨List.prefix_refl _, rfl⟩
  · exact ⟨List.prefix_refl _, rfl⟩

/-- A connection that nobody has closed, with nothing left to read. -/
structure Open (connection : TcpConnection) : Prop where
  state_ : connection.state_ = .kConnected
  interest : connection.InterestMatchesBuffer
  input : connection.inputBuffer_.Drained
  shutdownWrites : connection.shutdownWrites = 0

/-- `after` is `before` with `s` behind what goes out. -/
structure Puts (before : TcpConnection) (s : Bytes) (after : TcpConnection) : Prop where
  isOpen : after.Open
  outgoing : after.outgoing = before.outgoing ++ s
  accepted : before.accepted <+: after.accepted
  functors : ∃ added, (∀ functor ∈ added, functor.Notifies) ∧
    after.pending_functors_ = before.pending_functors_ ++ added

theorem Puts.trans {before middle after : TcpConnection} {s rest : Bytes}
    (first : Puts before s middle) (second : Puts middle rest after) :
    Puts before (s ++ rest) after := by
  obtain ⟨added, notify, functors⟩ := first.functors
  obtain ⟨more, notifyMore, functorsMore⟩ := second.functors
  refine ⟨second.isOpen, ?_, first.accepted.trans second.accepted, added ++ more, ?_, ?_⟩
  · rw [second.outgoing, first.outgoing, List.append_assoc]
  · intro functor membership
    rcases List.mem_append.mp membership with earlier | later
    · exact notify functor earlier
    · exact notifyMore functor later
  · rw [functorsMore, functors, List.append_assoc]

theorem open_new (writeCompleteCallback_ highWaterMarkCallback_ : Bool) :
    (new writeCompleteCallback_ highWaterMarkCallback_).connectEstablished.Open := by
  refine ⟨rfl, ?_, Buffer.drained_new, rfl⟩
  simp [InterestMatchesBuffer, connectEstablished, callOwner, new]

theorem Open.puts_of_emits (isOpen : connection.Open) {s : Bytes} {after : TcpConnection}
    (emits : connection.Emits s after) (writes : Writes connection after)
    (same : after.shutdownWrites = connection.shutdownWrites) : Puts connection s after := by
  refine ⟨⟨?_, emits.interest, ?_, ?_⟩, emits.outgoing, writes.accepted, emits.functors⟩
  · rw [emits.state_]
    exact isOpen.state_
  · rw [writes.inputBuffer_]
    exact isOpen.input
  · rw [same]
    exact isOpen.shutdownWrites

theorem Open.sendInLoop (isOpen : connection.Open) (s : Bytes) {result : WriteResult}
    (harmless : ¬ result.Fault) : Puts connection s (connection.sendInLoop s result) := by
  have alive : connection.state_ ≠ .kDisconnected := by
    rw [isOpen.state_]
    decide
  obtain ⟨same, fault | emits⟩ := connection.sendInLoop_cases s result alive isOpen.interest
  · exact absurd fault.1 harmless
  · exact isOpen.puts_of_emits emits (sendInLoop_writes s result) same

theorem Open.handleWrite (isOpen : connection.Open) (result : WriteResult) :
    Puts connection [] (connection.handleWrite result) := by
  obtain ⟨emits, same | ⟨-, closing, -⟩⟩ := connection.handleWrite_spec result isOpen.interest
  · exact isOpen.puts_of_emits emits (handleWrite_writes result) same
  · rw [isOpen.state_] at closing
    exact absurd closing (by decide)

theorem Open.handleWrite_takes (isOpen : connection.Open)
    (writing : connection.channel_.isWriting = true) :
    connection.accepted.length < (connection.handleWrite (.wrote 1)).accepted.length := by
  have nonempty := isOpen.interest.mp writing
  obtain ⟨first, rest, split⟩ := List.exists_cons_of_ne_nil nonempty
  have progress : 0 < (WriteResult.wrote 1).value connection.outputBuffer_.readable := by
    rw [split]
    simp [WriteResult.value]
  unfold TcpConnection.handleWrite
  rw [if_pos writing]
  dsimp only
  rw [if_pos progress]
  refine Nat.lt_of_lt_of_le ?_ (retrieveWritten_writes _).accepted.length_le
  simp [split, WriteResult.taken]

theorem handleRead_delivered {data : Bytes} (some : data ≠ []) :
    connection.handleRead (.delivered data) = { connection with
      inputBuffer_ := (connection.inputBuffer_.readFd (.delivered data)).2.2
      ownerCalls := connection.ownerCalls ++ [.messageCallback] } := by
  have positive : (0 : Int) < data.length := by
    exact_mod_cast List.length_pos_of_ne_nil some
  have count := (connection.inputBuffer_.readFd_delivered data).1
  unfold handleRead
  dsimp only
  rw [count, if_pos positive]
  rfl

theorem readAll_connection :
    ∃ inputBuffer_, connection.readAll.2.2 = { connection with inputBuffer_ := inputBuffer_ } ∧
      inputBuffer_.size = connection.inputBuffer_.size := by
  unfold readAll retrieve
  exact ⟨_, rfl, Buffer.size_retrieve _⟩

theorem Open.readAll_handleRead (isOpen : connection.Open) {data : Bytes} (some : data ≠ [])
    (fits : data.length ≤ connection.inputBuffer_.readvLength) :
    let received := connection.handleRead (.delivered data)
    received.readAll.2.1 = data ∧ Puts connection [] received.readAll.2.2 ∧
      received.readAll.2.2.accepted = connection.accepted ∧
      received.readAll.2.2.pending_functors_ = connection.pending_functors_ := by
  intro received
  have readable : received.inputBuffer_.readable = data := by
    rw [Reader.handleRead_readable, isOpen.input.readable, List.nil_append]
    rfl
  have small : received.inputBuffer_.readableBytes < 2 ^ 31 := by
    rw [← Buffer.length_readable, readable]
    exact isOpen.input.data_lt fits
  have emptied := (Reader.readAll_of_lt received small).2
  have isReceived := @handleRead_delivered connection data some
  obtain ⟨inputBuffer_, after, size⟩ := @readAll_connection received
  rw [after] at emptied ⊢
  have grown := isOpen.input.readFd fits
  have receivedSize : received.inputBuffer_.size =
      (connection.inputBuffer_.readFd (.delivered data)).2.2.size := by
    rw [show received = _ from isReceived]
  rw [← receivedSize, ← size] at grown
  refine ⟨readable, ?_⟩
  rw [show received = _ from isReceived]
  refine ⟨⟨⟨isOpen.state_, isOpen.interest, ⟨emptied, grown⟩, isOpen.shutdownWrites⟩, ?_, ?_,
    [], by simp, ?_⟩, rfl, rfl⟩
  · exact (List.append_nil _).symm
  · exact List.prefix_refl _
  · exact (List.append_nil _).symm

end TcpConnection

end GdRpc.Net
