import GdRpc.Library.Transition
import GdRpc.Library.StreamQueue
import GdRpc.Net.Buffer

/-!
# A buffer is a byte queue

The abstract component is a queue of bytes: appended and received bytes enter
it at the back, retrieved ones leave it at the front, and preparing space does
nothing. Every run of the buffer is a run of that queue with the same answers.
-/

namespace GdRpc.Net

open GdRpc.Library

namespace Buffer

inductive Operation where
  | append (data : Bytes)
  | ensureWritableBytes (len : Nat)
  | readFd (result : ReadvResult)
  | retrieve (len : Nat)
  | retrieveAll
  deriving DecidableEq, Repr

/-- What an operation returns to its caller. -/
inductive Answer where
  | nothing
  | accepted (flag : Bool)
  | count (n : Int) (savedErrno : Option Nat)
  deriving DecidableEq, Repr

def perform (buffer : Buffer) : Operation → Answer × Buffer
  | .append data => (.nothing, buffer.append data)
  | .ensureWritableBytes len => (.nothing, buffer.ensureWritableBytes len)
  | .readFd result =>
      let (n, savedErrno, next) := buffer.readFd result
      (.count n savedErrno, next)
  | .retrieve len =>
      let (flag, next) := buffer.retrieve len
      (.accepted flag, next)
  | .retrieveAll => (.nothing, buffer.retrieveAll)

/-- `::readv` delivers at most the total length of the iovecs it was offered;
every other operation is possible in every state. -/
def Possible (buffer : Buffer) : Operation → Prop
  | .readFd (.delivered data) => data.length ≤ buffer.readvLength
  | _ => True

instance (buffer : Buffer) (operation : Operation) :
    Decidable (buffer.Possible operation) := by
  unfold Possible
  split <;> infer_instance

/-- The runs of a buffer built with `initalSize` bytes of storage. -/
def system (initalSize : Nat) : System Buffer (Operation × Answer) where
  initial buffer := buffer = ofSize initalSize
  step buffer label next :=
    buffer.Possible label.1 ∧ buffer.perform label.1 = (label.2, next)

/-- The bytes an operation brings in. -/
def Operation.incoming : Operation → Bytes
  | .append data => data
  | .readFd (.delivered data) => data
  | _ => []

/-- Everything the operations of a history brought in, in order. -/
def received (history : List (Operation × Answer)) : Bytes :=
  history.flatMap fun label => label.1.incoming

/-- The purpose of the buffer: the same operations on a plain byte queue. -/
def performQueue (queue : StreamQueue UInt8) :
    Operation → Answer × StreamQueue UInt8
  | .append data => (.nothing, queue.enqueue data)
  | .ensureWritableBytes _ => (.nothing, queue)
  | .readFd (.failed errno) => (.count (-1) (some errno), queue)
  | .readFd (.delivered data) =>
      (.count data.length none, queue.enqueue data)
  | .retrieve len =>
      let (flag, next) := queue.dequeue len
      (.accepted flag, next)
  | .retrieveAll => (.nothing, queue.clear)

def queueSystem : System (StreamQueue UInt8) (Operation × Answer) where
  initial queue := queue = .empty
  step queue label next := performQueue queue label.1 = (label.2, next)

/-- The readable bytes are the content of the queue. -/
def Represents (buffer : Buffer) (queue : StreamQueue UInt8) : Prop :=
  buffer.readable = queue.content

theorem Represents.length {buffer : Buffer} {queue : StreamQueue UInt8}
    (represents : buffer.Represents queue) :
    queue.content.length = buffer.readableBytes := by
  rw [← represents, length_readable]

theorem perform_refines {buffer : Buffer} {queue : StreamQueue UInt8}
    (represents : buffer.Represents queue) (operation : Operation) :
    (performQueue queue operation).1 = (buffer.perform operation).1 ∧
      (buffer.perform operation).2.Represents (performQueue queue operation).2 := by
  cases operation with
  | append data =>
      refine ⟨rfl, ?_⟩
      simp [perform, performQueue, Represents, represents.symm]
  | ensureWritableBytes len =>
      refine ⟨rfl, ?_⟩
      simpa [perform, performQueue, Represents] using represents
  | readFd result =>
      cases result with
      | failed errno => exact ⟨rfl, represents⟩
      | delivered data =>
          have count := (buffer.readFd_delivered data).1
          have stored := (buffer.readFd_delivered data).2
          have noErrno : (buffer.readFd (.delivered data)).2.1 = none := by
            unfold readFd
            dsimp only
            split <;> rfl
          refine ⟨by simp [perform, performQueue, count, noErrno], ?_⟩
          simp only [perform, performQueue, Represents, stored,
            StreamQueue.content_enqueue]
          rw [represents]
  | retrieve len =>
      by_cases fits : len ≤ buffer.readableBytes
      · have concrete := buffer.retrieve_of_le fits
        have abstract := queue.dequeue_of_le (represents.length ▸ fits)
        refine ⟨by simp [perform, performQueue, concrete.1, abstract.1], ?_⟩
        simp only [perform, performQueue, Represents, concrete.2, abstract.2]
        rw [represents]
      · have short : buffer.readableBytes < len := by omega
        have concrete := buffer.retrieve_of_lt short
        have abstract := queue.dequeue_of_lt (represents.length ▸ short)
        simp only [perform, performQueue, concrete, abstract, true_and]
        exact represents
  | retrieveAll =>
      refine ⟨rfl, ?_⟩
      simp [perform, performQueue, Represents]

def simulation (initalSize : Nat) :
    Simulation (system initalSize) queueSystem where
  Related := Represents
  initial := by
    rintro buffer rfl
    exact ⟨.empty, rfl, readable_ofSize initalSize⟩
  step := by
    rintro buffer queue ⟨operation, answer⟩ next represents ⟨_, performed⟩
    obtain ⟨sameAnswer, related⟩ := perform_refines represents operation
    rw [performed] at sameAnswer related
    exact ⟨(performQueue queue operation).2, Prod.ext sameAnswer rfl, related⟩

theorem stream_performQueue (queue : StreamQueue UInt8) (operation : Operation) :
    (performQueue queue operation).2.stream =
      queue.stream ++ operation.incoming := by
  unfold performQueue
  split <;>
    simp [Operation.incoming, StreamQueue.enqueue, StreamQueue.clear]

theorem queue_stream {history : List (Operation × Answer)}
    {queue : StreamQueue UInt8} (execution : queueSystem.Execution history queue) :
    queue.stream = received history := by
  refine execution.history
    (fun past queue => queue.stream = received past) ?_ ?_
  · rintro queue rfl
    rfl
  · rintro past middle ⟨operation, answer⟩ next stream step
    have grown := stream_performQueue middle operation
    rw [show performQueue middle operation = (answer, next) from step] at grown
    simpa [received, stream] using grown

/-- Whatever the initial size and the sequence of operations, the indices stay
in order and the readable bytes are everything appended or received minus the
prefix retrieved, as in a byte queue that gives the same answers. A retrieve
beyond the readable bytes and a failing `::readv` change nothing. -/
theorem refines_byte_queue (initalSize : Nat)
    {history : List (Operation × Answer)} {buffer : Buffer}
    (execution : (system initalSize).Execution history buffer) :
    (buffer.readerIndex_ ≤ buffer.writerIndex_ ∧
      buffer.writerIndex_ ≤ buffer.buffer_.length) ∧
    (∃ queue, queueSystem.Execution history queue ∧
      queue.stream = received history ∧
      buffer.readable = (received history).drop queue.retrieved) ∧
    (∀ len, buffer.readableBytes < len → buffer.retrieve len = (false, buffer)) ∧
    ∀ errno, buffer.readFd (.failed errno) = (-1, some errno, buffer) := by
  refine ⟨⟨buffer.reader_le_writer, buffer.writer_le_size⟩, ?_,
    fun len => buffer.retrieve_of_lt, buffer.readFd_failed⟩
  obtain ⟨queue, reached, represents⟩ := (simulation initalSize).execution execution
  have stream := queue_stream reached
  refine ⟨queue, reached, stream, ?_⟩
  rw [← stream]
  exact represents

/-- Four bytes into two bytes of storage, one taken out, one more received. -/
theorem refines_byte_queue_four_bytes :
    (∃ queue, queueSystem.Execution
        [(.append [1, 2, 3, 4], .nothing), (.retrieve 1, .accepted true),
          (.readFd (.delivered [5]), .count 1 none)] queue ∧
      queue.stream = [1, 2, 3, 4, 5] ∧
      (((((ofSize 2).append [1, 2, 3, 4]).retrieve 1).2.readFd
        (.delivered [5])).2.2).readable = [1, 2, 3, 4, 5].drop queue.retrieved) := by
  have first : (system 2).step (ofSize 2) (.append [1, 2, 3, 4], .nothing)
      ((ofSize 2).append [1, 2, 3, 4]) := ⟨trivial, rfl⟩
  have second : (system 2).step ((ofSize 2).append [1, 2, 3, 4])
      (.retrieve 1, .accepted true)
      (((ofSize 2).append [1, 2, 3, 4]).retrieve 1).2 := ⟨trivial, by decide⟩
  have third : (system 2).step (((ofSize 2).append [1, 2, 3, 4]).retrieve 1).2
      (.readFd (.delivered [5]), .count 1 none)
      (((((ofSize 2).append [1, 2, 3, 4]).retrieve 1).2.readFd
        (.delivered [5])).2.2) := ⟨by decide, by decide⟩
  exact (refines_byte_queue 2
    ⟨_, rfl, .snoc (.snoc (.snoc .nil first) second) third⟩).2.1

end Buffer

end GdRpc.Net
