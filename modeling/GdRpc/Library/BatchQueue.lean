import Mathlib.Data.List.Basic

/-!
# A queue drained in batches

Items are added at the back of `pending`; a batch is everything that was
pending when it was begun, and it is taken item by item while new items
gather behind it. The two histories `added` and `taken` carry the number of
batches begun when an item was added and the number of the batch it left in.
-/

namespace GdRpc.Library

universe u

structure BatchQueue (Item : Type u) where
  pending : List Item
  batch : List Item
  begun : Nat
  added : List (Item × Nat)
  taken : List (Item × Nat)
  deriving DecidableEq, Repr

namespace BatchQueue

variable {Item : Type u}

def empty : BatchQueue Item where
  pending := []
  batch := []
  begun := 0
  added := []
  taken := []

def add (queue : BatchQueue Item) (item : Item) : BatchQueue Item :=
  { queue with
    pending := queue.pending ++ [item]
    added := queue.added ++ [(item, queue.begun)] }

/-- Begin a batch with all that is pending. -/
def swap (queue : BatchQueue Item) : BatchQueue Item :=
  { queue with
    pending := []
    batch := queue.pending
    begun := queue.begun + 1 }

/-- Take the front of the batch, if there is one. -/
def take (queue : BatchQueue Item) : BatchQueue Item :=
  match queue.batch with
  | [] => queue
  | item :: rest =>
      { queue with
        batch := rest
        taken := queue.taken ++ [(item, queue.begun)] }

/-- Every item added was taken in the batch after the one it was added in,
or is in the current batch and was added in the one before, or is pending. -/
def Accounted (queue : BatchQueue Item) : Prop :=
  queue.added.map (Prod.map id (· + 1)) =
    queue.taken ++ queue.batch.map (·, queue.begun) ++
      queue.pending.map (·, queue.begun + 1)

theorem accounted_empty : (empty : BatchQueue Item).Accounted := rfl

theorem Accounted.add {queue : BatchQueue Item} (accounted : queue.Accounted)
    (item : Item) : (queue.add item).Accounted := by
  unfold Accounted at accounted ⊢
  simp [BatchQueue.add, accounted]

theorem Accounted.swap {queue : BatchQueue Item} (accounted : queue.Accounted)
    (finished : queue.batch = []) : queue.swap.Accounted := by
  unfold Accounted at accounted ⊢
  simpa [BatchQueue.swap, finished] using accounted

theorem Accounted.take {queue : BatchQueue Item} (accounted : queue.Accounted) :
    queue.take.Accounted := by
  unfold BatchQueue.take
  split
  next => exact accounted
  next item rest batch =>
    unfold Accounted at accounted ⊢
    simpa [batch] using accounted

/-- Nothing is lost, repeated or reordered. -/
theorem Accounted.items {queue : BatchQueue Item} (accounted : queue.Accounted) :
    queue.taken.map Prod.fst ++ queue.batch ++ queue.pending =
      queue.added.map Prod.fst := by
  have items := congrArg (List.map Prod.fst) accounted
  simpa [Function.comp_def] using items.symm

/-- An item leaves in the batch after those begun when it was added. -/
theorem Accounted.batch_of_taken {queue : BatchQueue Item}
    (accounted : queue.Accounted) {index : Nat} {entry left : Item × Nat}
    (wasAdded : queue.added[index]? = some entry)
    (wasTaken : queue.taken[index]? = some left) :
    left = (entry.1, entry.2 + 1) := by
  have bound : index < queue.taken.length :=
    (List.getElem?_eq_some_iff.mp wasTaken).1
  have located := congrArg (·[index]?) accounted
  simp only [List.getElem?_map, wasAdded, Option.map_some, List.append_assoc,
    List.getElem?_append_left bound, wasTaken] at located
  exact (Option.some.inj located).symm

end BatchQueue

end GdRpc.Library
