import GdRpc.Library.Transition
import GdRpc.Net.TcpConnection

/-!
# `readAll`

What the user of a connection gets by `readAll` while data arrives. The count
goes through an `int` on its way from `tryRead` to `retrieve`, which refuses a
count that is too large; nobody looks at the refusal.
-/

namespace GdRpc.Net

open GdRpc.Library

/-- The bytes that `::readv` has stored. -/
def ReadvResult.stored : ReadvResult → Bytes
  | .failed _ => []
  | .delivered data => data

namespace TcpConnection

/-- The count and what `s` holds after. -/
def tryRead (connection : TcpConnection) : Nat × Bytes :=
  (connection.inputBuffer_.readableBytes, connection.inputBuffer_.readable)

def retrieve (connection : TcpConnection) (n : Nat) : Bool × TcpConnection :=
  ((connection.inputBuffer_.retrieve n).1,
    { connection with inputBuffer_ := (connection.inputBuffer_.retrieve n).2 })

/-- The returned count, what `s` holds after, and the connection. -/
def readAll (connection : TcpConnection) : Nat × Bytes × TcpConnection :=
  let n := toInt connection.tryRead.1
  (toUInt64 n, connection.tryRead.2, (connection.retrieve (toUInt64 n)).2)

end TcpConnection

/-- One return of `readAll`: its result, its argument and what is readable
then. -/
structure Reading where
  n : Nat
  s : Bytes
  left : Bytes
  deriving DecidableEq, Repr

/-- A connection with the stream received so far and the returns of `readAll`. -/
structure Reader where
  connection : TcpConnection
  received : Bytes
  readings : List Reading
  deriving Repr

namespace Reader

inductive Event where
  | handleRead (result : ReadvResult)
  | readAll
  deriving DecidableEq, Repr

def new (writeCompleteCallback_ highWaterMarkCallback_ : Bool) : Reader where
  connection := .new writeCompleteCallback_ highWaterMarkCallback_
  received := []
  readings := []

def next (reader : Reader) : Event → Reader
  | .handleRead result =>
      { reader with
        connection := reader.connection.handleRead result
        received := reader.received ++ result.stored }
  | .readAll =>
      let connection := reader.connection.readAll.2.2
      { reader with
        connection := connection
        readings := reader.readings ++ [{
          n := reader.connection.readAll.1
          s := reader.connection.readAll.2.1
          left := connection.inputBuffer_.readable }] }

/-- Every `readAll` has emptied the buffer and returned the length of its
string, and the strings with the readable bytes behind them are the stream. -/
structure Delivers (reader : Reader) : Prop where
  emptied : ∀ reading ∈ reader.readings, reading.left = []
  counted : ∀ reading ∈ reader.readings, reading.n = reading.s.length
  stream : reader.readings.flatMap Reading.s ++ reader.connection.inputBuffer_.readable =
    reader.received

/-- `readAll` finds fewer bytes than an `int` can count. -/
def Countable (reader : Reader) : Event → Prop
  | .handleRead _ => True
  | .readAll => reader.connection.inputBuffer_.readableBytes < 2 ^ 31

theorem handleRead_readable (connection : TcpConnection) (result : ReadvResult) :
    (connection.handleRead result).inputBuffer_.readable =
      connection.inputBuffer_.readable ++ result.stored := by
  cases result with
  | failed errno =>
      simp [TcpConnection.handleRead, ReadvResult.stored]
  | delivered data =>
      obtain ⟨count, readable⟩ := connection.inputBuffer_.readFd_delivered data
      unfold TcpConnection.handleRead
      dsimp only
      rw [count]
      split_ifs
      · exact readable
      · exact readable
      · exact readable

theorem readAll_of_lt (connection : TcpConnection)
    (small : connection.inputBuffer_.readableBytes < 2 ^ 31) :
    connection.readAll.1 = connection.inputBuffer_.readableBytes ∧
      connection.readAll.2.2.inputBuffer_.readable = [] := by
  have same : toUInt64 (toInt connection.inputBuffer_.readableBytes) =
      connection.inputBuffer_.readableBytes := (toUInt64_toInt_iff (by omega)).mpr small
  obtain ⟨-, rest⟩ := connection.inputBuffer_.retrieve_of_le (Nat.le_refl _)
  simp only [TcpConnection.readAll, TcpConnection.tryRead, TcpConnection.retrieve, same]
  apply And.intro trivial
  rw [rest, ← Buffer.length_readable, List.drop_length]

theorem next_handleRead_delivers {reader : Reader} (delivers : reader.Delivers)
    (result : ReadvResult) : (reader.next (.handleRead result)).Delivers := by
  obtain ⟨emptied, counted, stream⟩ := delivers
  constructor
  · exact emptied
  · exact counted
  · simp only [next, handleRead_readable]
    rw [← List.append_assoc, stream]

theorem readings_readAll (reader : Reader) :
    (reader.next .readAll).readings = reader.readings ++ [{
      n := reader.connection.readAll.1
      s := reader.connection.inputBuffer_.readable
      left := reader.connection.readAll.2.2.inputBuffer_.readable }] := rfl

theorem connection_readAll (reader : Reader) :
    (reader.next .readAll).connection = reader.connection.readAll.2.2 := rfl

theorem received_readAll (reader : Reader) :
    (reader.next .readAll).received = reader.received := by
  cases reader
  rfl

theorem next_readAll_delivers {reader : Reader} (delivers : reader.Delivers)
    (small : reader.connection.inputBuffer_.readableBytes < 2 ^ 31) :
    (reader.next .readAll).Delivers := by
  obtain ⟨emptied, counted, stream⟩ := delivers
  obtain ⟨count, left⟩ := readAll_of_lt reader.connection small
  have readings := readings_readAll reader
  rw [count, left] at readings
  constructor
  · rw [readings]
    intro reading membership
    rcases List.mem_append.mp membership with before | last
    · exact emptied reading before
    · rw [List.mem_singleton.mp last]
  · rw [readings]
    intro reading membership
    rcases List.mem_append.mp membership with before | last
    · exact counted reading before
    · rw [List.mem_singleton.mp last]
      exact (Buffer.length_readable _).symm
  · rw [readings, connection_readAll, received_readAll, left, List.flatMap_append,
      List.append_nil, List.flatMap_singleton]
    exact stream

theorem counted_last {reader : Reader} (delivers : (reader.next .readAll).Delivers) :
    toUInt64 (toInt reader.connection.inputBuffer_.readableBytes) =
      reader.connection.inputBuffer_.readableBytes := by
  have counted := delivers.counted
  rw [readings_readAll] at counted
  have same := counted _ (List.mem_append_right _ (List.mem_singleton_self _))
  simpa only [TcpConnection.readAll, TcpConnection.tryRead, Buffer.length_readable] using same

theorem next_delivers_iff (reader : Reader) (event : Event) (delivers : reader.Delivers)
    (fits : reader.connection.inputBuffer_.readableBytes < 2 ^ 63) :
    (reader.next event).Delivers ↔ reader.Countable event := by
  cases event with
  | handleRead result =>
      exact iff_of_true (next_handleRead_delivers delivers result) trivial
  | readAll =>
      constructor
      · intro after
        exact (toUInt64_toInt_iff fits).mp (counted_last after)
      · exact next_readAll_delivers delivers

theorem new_delivers (writeComplete highWater : Bool) :
    (new writeComplete highWater).Delivers where
  emptied := by simp [new]
  counted := by simp [new]
  stream := by simp [new, TcpConnection.new]

/-- Through any arrivals and reads every `readAll` delivers what has come since
the last one, exactly if none of them finds `2 ^ 31` bytes or more. A vector
has fewer than `2 ^ 63` elements. -/
theorem readAll_delivers_iff (writeComplete highWater : Bool) (events : List Event)
    (bounded : ∀ past, past <+: events →
      (past.foldl next (new writeComplete highWater)).connection.inputBuffer_.buffer_.length <
        2 ^ 63) :
    (∀ past, past <+: events → (past.foldl next (new writeComplete highWater)).Delivers) ↔
      System.Allowed Countable next (new writeComplete highWater) events := by
  apply System.forall_prefix_iff_allowed Delivers Countable next _ events
    (new_delivers writeComplete highWater)
  intro past event isPrefix delivers
  apply next_delivers_iff _ event delivers
  have room := bounded past ((List.prefix_append past [event]).trans isPrefix)
  have inside :=
    (past.foldl next (new writeComplete highWater)).connection.inputBuffer_.writer_le_size
  unfold Buffer.readableBytes
  omega

/-- Two reads, each of what arrived in several pieces before it. -/
theorem readAll_delivers_iff_pieces :
    let events : List Event :=
      [.handleRead (.delivered [97]), .handleRead (.delivered [98, 99]), .readAll,
        .handleRead (.delivered [100]), .handleRead (.failed 11),
        .handleRead (.delivered [101, 102]), .readAll, .handleRead (.delivered [103])]
    (events.foldl next (new false false)).readings =
        [⟨3, [97, 98, 99], []⟩, ⟨3, [100, 101, 102], []⟩] ∧
      ((∀ past, past <+: events → (past.foldl next (new false false)).Delivers) ↔
        System.Allowed Countable next (new false false) events) := by
  intro events
  have bounded : ∀ past ∈ events.inits,
      (past.foldl next (new false false)).connection.inputBuffer_.buffer_.length < 2 ^ 63 := by
    decide +kernel
  apply And.intro (by decide +kernel)
  apply readAll_delivers_iff false false events
  intro past isPrefix
  exact bounded past ((List.mem_inits past events).mpr isPrefix)

/-! ## A backlog of 2 GiB -/

theorem foldl_handleRead_readable (reader : Reader) (results : List ReadvResult) :
    ((results.map Event.handleRead).foldl next reader).connection.inputBuffer_.readable =
      reader.connection.inputBuffer_.readable ++ results.flatMap ReadvResult.stored := by
  induction results generalizing reader with
  | nil => rw [List.map_nil, List.foldl_nil, List.flatMap_nil, List.append_nil]
  | cons result results inductionHypothesis =>
      rw [List.map_cons, List.foldl_cons, inductionHypothesis, List.flatMap_cons,
        ← List.append_assoc]
      rw [next, handleRead_readable]

theorem length_arrivals (count length : Nat) :
    ((List.replicate count (ReadvResult.delivered (List.replicate length 0))).flatMap
      ReadvResult.stored).length = count * length := by
  simp [List.length_flatMap, ReadvResult.stored]

/-- As many full `extrabuf`s as make up `2 ^ 31` bytes. -/
def backlog : List ReadvResult :=
  List.replicate 32768 (.delivered (List.replicate Buffer.extrabufSize 0))

/-- They are delivered once more by the next `readAll`, and the count that is
returned is another one. -/
theorem readAll_repeats :
    ¬ ∀ past, past <+: backlog.map Event.handleRead ++ [.readAll] →
      (past.foldl next (new false false)).Delivers := by
  intro delivers
  have last := delivers _ (List.prefix_refl _)
  rw [List.foldl_append, List.foldl_cons, List.foldl_nil] at last
  have empty : (new false false).connection.inputBuffer_.readable = [] :=
    Buffer.readable_ofSize _
  have length : (backlog.flatMap ReadvResult.stored).length = 2 ^ 31 := by
    rw [backlog, length_arrivals, Buffer.extrabufSize]
    decide
  have counted := counted_last last
  rw [← Buffer.length_readable, foldl_handleRead_readable, empty, List.nil_append,
    length] at counted
  exact absurd ((toUInt64_toInt_iff (by decide)).mp counted) (by decide)

end Reader

end GdRpc.Net
