import Mathlib.Data.List.Basic

/-!
# Queues seen as a stream and a position

What has ever entered the queue is kept, together with how much of it has
left again. The content is what lies between the two.
-/

namespace GdRpc.Library

universe u

/-- Everything enqueued so far and the length of the prefix taken out. -/
structure StreamQueue (Alpha : Type u) where
  stream : List Alpha
  retrieved : Nat
  retrieved_le : retrieved ≤ stream.length

namespace StreamQueue

variable {Alpha : Type u}

def empty : StreamQueue Alpha where
  stream := []
  retrieved := 0
  retrieved_le := Nat.zero_le _

def content (queue : StreamQueue Alpha) : List Alpha :=
  queue.stream.drop queue.retrieved

def enqueue (queue : StreamQueue Alpha) (elements : List Alpha) :
    StreamQueue Alpha where
  stream := queue.stream ++ elements
  retrieved := queue.retrieved
  retrieved_le := by
    have bound := queue.retrieved_le
    simp only [List.length_append]
    omega

/-- Take `count` elements out if that many are there, else refuse. -/
def dequeue (queue : StreamQueue Alpha) (count : Nat) :
    Bool × StreamQueue Alpha :=
  if fits : queue.retrieved + count ≤ queue.stream.length then
    (true, { queue with
      retrieved := queue.retrieved + count
      retrieved_le := fits })
  else
    (false, queue)

def clear (queue : StreamQueue Alpha) : StreamQueue Alpha where
  stream := queue.stream
  retrieved := queue.stream.length
  retrieved_le := Nat.le_refl _

@[simp]
theorem content_empty : (empty : StreamQueue Alpha).content = [] := rfl

@[simp]
theorem content_clear (queue : StreamQueue Alpha) : queue.clear.content = [] := by
  simp [content, clear]

@[simp]
theorem content_enqueue (queue : StreamQueue Alpha) (elements : List Alpha) :
    (queue.enqueue elements).content = queue.content ++ elements := by
  simp [content, enqueue, List.drop_append_of_le_length queue.retrieved_le]

@[simp]
theorem length_content (queue : StreamQueue Alpha) :
    queue.content.length = queue.stream.length - queue.retrieved := by
  simp [content]

theorem dequeue_of_le (queue : StreamQueue Alpha) {count : Nat}
    (fits : count ≤ queue.content.length) :
    (queue.dequeue count).1 = true ∧
      (queue.dequeue count).2.content = queue.content.drop count := by
  have bound := queue.retrieved_le
  rw [length_content] at fits
  have enough : queue.retrieved + count ≤ queue.stream.length := by omega
  simp [dequeue, enough, content, List.drop_drop]

theorem dequeue_of_lt (queue : StreamQueue Alpha) {count : Nat}
    (short : queue.content.length < count) :
    queue.dequeue count = (false, queue) := by
  rw [length_content] at short
  have missing : ¬ queue.retrieved + count ≤ queue.stream.length := by omega
  simp [dequeue, missing]

@[simp]
theorem stream_dequeue (queue : StreamQueue Alpha) (count : Nat) :
    (queue.dequeue count).2.stream = queue.stream := by
  unfold dequeue
  split <;> rfl

end StreamQueue

end GdRpc.Library
