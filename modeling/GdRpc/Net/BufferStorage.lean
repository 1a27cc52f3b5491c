import GdRpc.Net.BufferRefinement

/-!
# How far a buffer grows

`makeSpace` grows the vector behind `writerIndex_`, consumed bytes in front
included, but only for a request that is longer than these and the free space
together. What is readable after such a growth is therefore more than half of
the vector.
-/

namespace GdRpc.Net

open GdRpc.Library

namespace Buffer

/-- `buffer_.size()` -/
def size (buffer : Buffer) : Nat :=
  buffer.buffer_.length

variable {buffer : Buffer}

theorem size_write {data : Bytes} (room : data.length ≤ buffer.writableBytes) :
    (buffer.write data room).size = buffer.size := by
  have bound := buffer.writer_le_size
  unfold writableBytes at room
  apply length_overwrite
  omega

theorem size_fill {data : Bytes} (full : buffer.writableBytes ≤ data.length) :
    (buffer.fill data full).size = buffer.size := by
  have bound := buffer.writer_le_size
  apply length_overwrite
  rw [List.length_take_of_le full]
  unfold writableBytes
  omega

theorem size_retrieve (len : Nat) : (buffer.retrieve len).2.size = buffer.size := by
  unfold retrieve
  split_ifs <;> rfl

theorem readableBytes_append (data : Bytes) :
    (buffer.append data).readableBytes = buffer.readableBytes + data.length := by
  rw [← length_readable, readable_append, List.length_append, length_readable]

/-- The vector stays as it is, or it grows and is less than twice as long as
what the request makes readable. -/
theorem size_ensureWritableBytes (len : Nat) :
    (buffer.ensureWritableBytes len).size = buffer.size ∨
      buffer.size ≤ (buffer.ensureWritableBytes len).size ∧
      (buffer.ensureWritableBytes len).size ≤ 2 * (buffer.readableBytes + len) := by
  have order := buffer.reader_le_writer
  have bound := buffer.writer_le_size
  unfold ensureWritableBytes makeSpace
  by_cases enough : buffer.writableBytes < len
  · by_cases grows : buffer.writableBytes + buffer.prependableBytes < len
    · right
      simp only [if_pos enough, if_pos grows, size, length_resize]
      unfold writableBytes prependableBytes at grows
      unfold readableBytes
      omega
    · left
      simp only [if_pos enough, if_neg grows, size, length_copyWithin]
  · left
    rw [if_neg enough]

/-- The operations that bring bytes in or take them out. -/
def Operation.Moves : Operation → Prop
  | .ensureWritableBytes _ => False
  | _ => True

instance : DecidablePred Operation.Moves
  | .ensureWritableBytes _ => inferInstanceAs (Decidable False)
  | .append _ | .readFd _ | .retrieve _ | .retrieveAll => inferInstanceAs (Decidable True)

/-- The vector does not change its size, or it grows to at most twice what is
readable then. -/
def Grows (before after : Buffer) : Prop :=
  after.size = before.size ∨ before.size ≤ after.size ∧ after.size ≤ 2 * after.readableBytes

theorem grows_append (data : Bytes) : Grows buffer (buffer.append data) := by
  have written : (buffer.append data).size = (buffer.ensureWritableBytes data.length).size :=
    size_write _
  unfold Grows
  rw [written, readableBytes_append]
  exact buffer.size_ensureWritableBytes data.length

theorem grows_readFd (result : ReadvResult) : Grows buffer (buffer.readFd result).2.2 := by
  cases result with
  | failed errno => exact .inl rfl
  | delivered data =>
      by_cases fits : data.length ≤ buffer.writableBytes
      · rw [readFd, dif_pos fits]
        exact .inl (size_write fits)
      · rw [readFd, dif_neg fits]
        have full := Nat.le_of_not_le fits
        have spilled := @grows_append (buffer.fill data full) (data.drop buffer.writableBytes)
        rw [Grows, size_fill] at spilled
        exact spilled

theorem grows_perform {operation : Operation} (moves : operation.Moves) :
    Grows buffer (buffer.perform operation).2 := by
  cases operation with
  | append data => exact grows_append data
  | ensureWritableBytes len => exact moves.elim
  | readFd result => exact grows_readFd result
  | retrieve len => exact .inl (size_retrieve len)
  | retrieveAll => exact .inl rfl

/-! ## Over a whole run -/

/-- A buffer and the most that has been readable in it. -/
structure Watched where
  buffer : Buffer
  peak : Nat
  deriving DecidableEq, Repr

def Watched.new (initalSize : Nat) : Watched where
  buffer := ofSize initalSize
  peak := (ofSize initalSize).readableBytes

def Watched.next (watched : Watched) (operation : Operation) : Watched where
  buffer := (watched.buffer.perform operation).2
  peak := max watched.peak (watched.buffer.perform operation).2.readableBytes

/-- The runs of a buffer of which no space is requested in advance, whatever
`::readv` delivers. -/
def watchedSystem (initalSize : Nat) : System Watched Operation where
  initial watched := watched = .new initalSize
  step watched operation after := operation.Moves ∧ after = watched.next operation

/-- The storage is the initial one, or grown to at most twice the peak. -/
structure Bounded (initalSize : Nat) (watched : Watched) : Prop where
  readable : watched.buffer.readableBytes ≤ watched.peak
  initial : initalSize ≤ watched.buffer.size
  size : watched.buffer.size = initalSize ∨ watched.buffer.size ≤ 2 * watched.peak

theorem Bounded.next {initalSize : Nat} {watched : Watched} {operation : Operation}
    (bounded : Bounded initalSize watched) (moves : operation.Moves) :
    Bounded initalSize (watched.next operation) := by
  have readable : (watched.next operation).buffer.readableBytes ≤
      (watched.next operation).peak := Nat.le_max_right _ _
  have peak : watched.peak ≤ (watched.next operation).peak := Nat.le_max_left _ _
  have before := bounded.initial
  have grows : Grows watched.buffer (watched.next operation).buffer := grows_perform moves
  rcases grows with same | ⟨longer, twice⟩
  · refine ⟨readable, ?_, ?_⟩
    · rw [same]
      exact before
    · rw [same]
      rcases bounded.size with unchanged | grown
      · exact .inl unchanged
      · exact .inr (Nat.le_trans grown (Nat.mul_le_mul_left 2 peak))
  · refine ⟨readable, Nat.le_trans before longer, .inr ?_⟩
    exact Nat.le_trans twice (Nat.mul_le_mul_left 2 readable)

theorem bounded_new (initalSize : Nat) : Bounded initalSize (.new initalSize) :=
  ⟨Nat.le_refl _, Nat.le_of_eq List.length_replicate.symm, .inl List.length_replicate⟩

/-- The storage is never longer than it was at first and than twice the most
that has been readable; while the latter stays within the former, it does not
grow at all. -/
theorem storage_bounded_by_peak (initalSize : Nat) {operations : List Operation}
    {watched : Watched}
    (execution : (watchedSystem initalSize).Execution operations watched) :
    watched.buffer.buffer_.length ≤ max initalSize (2 * watched.peak) ∧
    (2 * watched.peak ≤ initalSize → watched.buffer.buffer_.length = initalSize) := by
  have bounded : Bounded initalSize watched := by
    apply execution.invariant (Bounded initalSize)
    · rintro _ rfl
      exact bounded_new initalSize
    · rintro watched operation _ bounded ⟨moves, rfl⟩
      exact bounded.next moves
  have initial := bounded.initial
  have size := bounded.size
  change initalSize ≤ watched.buffer.buffer_.length at initial
  change watched.buffer.buffer_.length = initalSize ∨
    watched.buffer.buffer_.length ≤ 2 * watched.peak at size
  constructor <;> omega

/-- The vector grows for four bytes, two consumed ones in front, and again for
what does not fit behind them. -/
theorem storage_bounded_by_peak_spill :
    let operations : List Operation := [.append [1, 2, 3], .retrieve 2, .append [4, 5, 6, 7],
      .readFd (.delivered [8, 9, 10])]
    let watched := operations.foldl Watched.next (.new 4)
    watched.buffer.buffer_.length = 10 ∧ watched.peak = 8 ∧
      watched.buffer.buffer_.length ≤ max 4 (2 * watched.peak) := by
  intro operations watched
  have execution : (watchedSystem 4).Execution operations watched :=
    System.Execution.foldl (watchedSystem 4) (fun _ operation => operation.Moves)
      (fun _ _ moves => ⟨moves, rfl⟩) rfl (by decide)
  exact ⟨by decide, by decide, (storage_bounded_by_peak 4 execution).1⟩

end Buffer

end GdRpc.Net
