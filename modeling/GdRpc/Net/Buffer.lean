import GdRpc.Library.Bytes
import GdRpc.Library.Memory

/-!
# `TcpConnection::Buffer`

The storage `buffer_` with the two indices that split it into prependable,
readable and writable space. Their order is a field, so every operation below
has to establish it for the buffer it returns.

Sizes are natural numbers: the lengths handed to a buffer are lengths of
objects in memory and stay below `PTRDIFF_MAX`, so the sum of two of them does
not wrap a `size_t`.
-/

namespace GdRpc.Net

open GdRpc.Library

/-- What `::readv` reports: an error, or the bytes it stored. -/
inductive ReadvResult where
  | failed (errno : Nat)
  | delivered (data : Bytes)
  deriving DecidableEq, Repr

structure Buffer where
  buffer_ : Bytes
  readerIndex_ : Nat
  writerIndex_ : Nat
  reader_le_writer : readerIndex_ ≤ writerIndex_
  writer_le_size : writerIndex_ ≤ buffer_.length
  deriving Repr, DecidableEq

namespace Buffer

def kInitialSize : Nat := 1024

/-- The spill area `extrabuf` on the stack of `readFd`. -/
def extrabufSize : Nat := 65536

/-- The constructor, which value-initialises the vector. -/
def ofSize (initalSize : Nat) : Buffer where
  buffer_ := List.replicate initalSize 0
  readerIndex_ := 0
  writerIndex_ := 0
  reader_le_writer := Nat.le_refl 0
  writer_le_size := Nat.zero_le _

def readableBytes (buffer : Buffer) : Nat :=
  buffer.writerIndex_ - buffer.readerIndex_

def writableBytes (buffer : Buffer) : Nat :=
  buffer.buffer_.length - buffer.writerIndex_

def prependableBytes (buffer : Buffer) : Nat :=
  buffer.readerIndex_

/-- The bytes `[peek(), peek() + readableBytes())`. -/
def readable (buffer : Buffer) : Bytes :=
  slice buffer.buffer_ buffer.readerIndex_ buffer.writerIndex_

def retrieveAll (buffer : Buffer) : Buffer where
  buffer_ := buffer.buffer_
  readerIndex_ := 0
  writerIndex_ := 0
  reader_le_writer := Nat.le_refl 0
  writer_le_size := Nat.zero_le _

def retrieve (buffer : Buffer) (len : Nat) : Bool × Buffer :=
  if less : len < buffer.readableBytes then
    (true, { buffer with
      readerIndex_ := buffer.readerIndex_ + len
      reader_le_writer := by
        unfold readableBytes at less
        omega })
  else if len = buffer.readableBytes then
    (true, buffer.retrieveAll)
  else
    (false, buffer)

/-- Grow the vector when the free space in front and behind together is too
small, else move the readable bytes to the front. -/
def makeSpace (buffer : Buffer) (len : Nat) : Buffer :=
  if buffer.writableBytes + buffer.prependableBytes < len then
    { buffer with
      buffer_ := resize buffer.buffer_ (buffer.writerIndex_ + len) 0
      writer_le_size := by simp }
  else
    { buffer_ := copyWithin buffer.readableBytes buffer.readerIndex_ 0
        buffer.buffer_
      readerIndex_ := 0
      writerIndex_ := buffer.readableBytes
      reader_le_writer := Nat.zero_le _
      writer_le_size := by
        have bound := buffer.writer_le_size
        unfold readableBytes
        simp only [length_copyWithin]
        omega }

def ensureWritableBytes (buffer : Buffer) (len : Nat) : Buffer :=
  if buffer.writableBytes < len then buffer.makeSpace len else buffer

theorem makeSpace_writableBytes (buffer : Buffer) (len : Nat) :
    len ≤ (buffer.makeSpace len).writableBytes := by
  have order := buffer.reader_le_writer
  have bound := buffer.writer_le_size
  unfold makeSpace
  split
  · simp [writableBytes]
  · rename_i enough
    simp only [writableBytes, prependableBytes, readableBytes,
      length_copyWithin] at enough ⊢
    omega

theorem ensureWritableBytes_writableBytes (buffer : Buffer) (len : Nat) :
    len ≤ (buffer.ensureWritableBytes len).writableBytes := by
  unfold ensureWritableBytes
  split
  · exact buffer.makeSpace_writableBytes len
  · omega

/-- Store `data` from the writer index on and advance the index. -/
def write (buffer : Buffer) (data : Bytes)
    (room : data.length ≤ buffer.writableBytes) : Buffer where
  buffer_ := overwrite buffer.buffer_ buffer.writerIndex_ data
  readerIndex_ := buffer.readerIndex_
  writerIndex_ := buffer.writerIndex_ + data.length
  reader_le_writer := Nat.le_add_right_of_le buffer.reader_le_writer
  writer_le_size := by
    have bound := buffer.writer_le_size
    unfold writableBytes at room
    rw [length_overwrite] <;> omega

def append (buffer : Buffer) (data : Bytes) : Buffer :=
  (buffer.ensureWritableBytes data.length).write data
    (buffer.ensureWritableBytes_writableBytes data.length)

/-- Store the first `writableBytes()` bytes of `data` in the rest of the
vector and set the writer index to its end. -/
def fill (buffer : Buffer) (data : Bytes)
    (full : buffer.writableBytes ≤ data.length) : Buffer where
  buffer_ := overwrite buffer.buffer_ buffer.writerIndex_
    (data.take buffer.writableBytes)
  readerIndex_ := buffer.readerIndex_
  writerIndex_ := buffer.buffer_.length
  reader_le_writer := Nat.le_trans buffer.reader_le_writer buffer.writer_le_size
  writer_le_size := by
    have fits : buffer.writerIndex_ + (data.take buffer.writableBytes).length ≤
        buffer.buffer_.length := by
      rw [List.length_take_of_le full]
      exact Nat.le_of_eq (Nat.add_sub_of_le buffer.writer_le_size)
    exact Nat.le_of_eq (length_overwrite _ _ _ fits).symm

/-- The total length of the iovecs `readFd` offers: the writable space, and
the spill area unless the writable space is at least as large. -/
def readvLength (buffer : Buffer) : Nat :=
  buffer.writableBytes +
    if buffer.writableBytes < extrabufSize then extrabufSize else 0

/-- `readFd` after `::readv` answered `result`: the returned count, the saved
`errno` and the buffer. The first iovec is the writable space, so the bytes
beyond it are the ones `::readv` left in `extrabuf`. -/
def readFd (buffer : Buffer) (result : ReadvResult) :
    Int × Option Nat × Buffer :=
  match result with
  | .failed errno => (-1, some errno, buffer)
  | .delivered data =>
      if fits : data.length ≤ buffer.writableBytes then
        (data.length, none, buffer.write data fits)
      else
        let filled := buffer.fill data (Nat.le_of_not_le fits)
        (data.length, none, filled.append (data.drop buffer.writableBytes))

/-! ## The readable bytes after each operation -/

@[simp]
theorem length_readable (buffer : Buffer) :
    buffer.readable.length = buffer.readableBytes := by
  have bound := buffer.writer_le_size
  simp only [readable, readableBytes, length_slice]
  omega

theorem readable_eq_nil_iff (buffer : Buffer) :
    buffer.readable = [] ↔ buffer.readableBytes = 0 := by
  rw [← List.length_eq_zero_iff, length_readable]

@[simp]
theorem readable_ofSize (initalSize : Nat) : (ofSize initalSize).readable = [] := by
  simp [readable, ofSize]

@[simp]
theorem readable_retrieveAll (buffer : Buffer) : buffer.retrieveAll.readable = [] := by
  simp [readable, retrieveAll]

theorem retrieve_of_lt (buffer : Buffer) {len : Nat}
    (short : buffer.readableBytes < len) :
    buffer.retrieve len = (false, buffer) := by
  have notLess : ¬ len < buffer.readableBytes := by omega
  have notEqual : len ≠ buffer.readableBytes := by omega
  simp [retrieve, notLess, notEqual]

theorem retrieve_of_le (buffer : Buffer) {len : Nat}
    (fits : len ≤ buffer.readableBytes) :
    (buffer.retrieve len).1 = true ∧
      (buffer.retrieve len).2.readable = buffer.readable.drop len := by
  by_cases less : len < buffer.readableBytes
  · simp [retrieve, less, readable, slice, List.drop_drop]
  · have equal : len = buffer.readableBytes := by omega
    have drained : buffer.readable.drop len = [] := by
      rw [List.drop_eq_nil_iff, length_readable]
      omega
    rw [drained, retrieve, dif_neg less, if_pos equal]
    exact ⟨rfl, buffer.readable_retrieveAll⟩

@[simp]
theorem readable_makeSpace (buffer : Buffer) (len : Nat) :
    (buffer.makeSpace len).readable = buffer.readable := by
  have order := buffer.reader_le_writer
  have bound := buffer.writer_le_size
  unfold makeSpace
  split
  · exact slice_resize _ _ (Nat.le_add_right _ _) bound
  · have moved := slice_copyWithin buffer.readableBytes buffer.readerIndex_ 0
      buffer.buffer_ (Nat.zero_le _) (by unfold readableBytes; omega)
    have last : buffer.readerIndex_ + buffer.readableBytes =
        buffer.writerIndex_ := by
      unfold readableBytes
      omega
    rw [Nat.zero_add, last] at moved
    exact moved

@[simp]
theorem readable_ensureWritableBytes (buffer : Buffer) (len : Nat) :
    (buffer.ensureWritableBytes len).readable = buffer.readable := by
  unfold ensureWritableBytes
  split
  · exact buffer.readable_makeSpace len
  · rfl

@[simp]
theorem readable_write (buffer : Buffer) (data : Bytes)
    (room : data.length ≤ buffer.writableBytes) :
    (buffer.write data room).readable = buffer.readable ++ data := by
  have bound := buffer.writer_le_size
  have kept := slice_overwrite_before buffer.buffer_ data buffer.readerIndex_
    (Nat.le_refl buffer.writerIndex_) bound
  have stored := slice_overwrite buffer.buffer_ data buffer.writerIndex_ bound
  have joined := slice_append_slice
    (overwrite buffer.buffer_ buffer.writerIndex_ data)
    buffer.reader_le_writer (Nat.le_add_right _ data.length)
  rw [kept, stored] at joined
  exact joined.symm

@[simp]
theorem readable_fill (buffer : Buffer) (data : Bytes)
    (full : buffer.writableBytes ≤ data.length) :
    (buffer.fill data full).readable =
      buffer.readable ++ data.take buffer.writableBytes := by
  have bound := buffer.writer_le_size
  have last : buffer.buffer_.length = buffer.writerIndex_ +
      (data.take buffer.writableBytes).length := by
    simp only [List.length_take, writableBytes] at full ⊢
    omega
  have same : (buffer.fill data full).readable =
      (buffer.write (data.take buffer.writableBytes) (List.length_take_le _ _)).readable := by
    simp only [readable, fill, write]
    rw [← last]
  rw [same, readable_write]

@[simp]
theorem readable_append (buffer : Buffer) (data : Bytes) :
    (buffer.append data).readable = buffer.readable ++ data := by
  simp [append]

@[simp]
theorem readFd_failed (buffer : Buffer) (errno : Nat) :
    buffer.readFd (.failed errno) = (-1, some errno, buffer) := rfl

theorem readFd_delivered (buffer : Buffer) (data : Bytes) :
    (buffer.readFd (.delivered data)).1 = data.length ∧
      (buffer.readFd (.delivered data)).2.2.readable =
        buffer.readable ++ data := by
  by_cases fits : data.length ≤ buffer.writableBytes
  · simp [readFd, fits]
  · simp [readFd, fits, List.append_assoc]

end Buffer

end GdRpc.Net
