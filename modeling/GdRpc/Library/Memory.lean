import Mathlib.Data.List.Basic

/-!
# Ranges of a contiguous memory block

A block is a list. `slice` names the elements between two indices, `overwrite`
copies a foreign range into the block and `copyWithin` moves a range inside
it, one element after the other from the front, as `std::copy` does; its
source and destination may overlap.
-/

namespace GdRpc.Library

universe u

variable {Alpha : Type u}

/-- The elements with index in `[first, last)`. -/
def slice (block : List Alpha) (first last : Nat) : List Alpha :=
  (block.take last).drop first

/-- Grow with copies of `filler`, or cut, to exactly `size` elements. -/
def resize (block : List Alpha) (size : Nat) (filler : Alpha) : List Alpha :=
  block.take size ++ List.replicate (size - block.length) filler

/-- Copy `source` into the block from index `position` on. -/
def overwrite (block : List Alpha) (position : Nat) (source : List Alpha) :
    List Alpha :=
  block.take position ++ source ++ block.drop (position + source.length)

/-- Copy `count` elements from index `first` to index `target`, front first. -/
def copyWithin : Nat → Nat → Nat → List Alpha → List Alpha
  | 0, _, _, block => block
  | count + 1, first, target, block =>
      copyWithin count (first + 1) (target + 1)
        (match block[first]? with
          | some element => block.set target element
          | none => block)

@[simp]
theorem length_slice (block : List Alpha) (first last : Nat) :
    (slice block first last).length = min last block.length - first := by
  simp [slice]

@[simp]
theorem slice_self (block : List Alpha) (index : Nat) :
    slice block index index = [] := by
  simp [slice]

theorem getElem?_slice (block : List Alpha) (first last index : Nat) :
    (slice block first last)[index]? =
      if first + index < last then block[first + index]? else none := by
  simp [slice, List.getElem?_drop, List.getElem?_take]

theorem slice_append_slice (block : List Alpha) {first middle last : Nat}
    (left : first ≤ middle) (right : middle ≤ last) :
    slice block first middle ++ slice block middle last =
      slice block first last := by
  apply List.ext_getElem?
  intro index
  simp only [List.getElem?_append, length_slice, getElem?_slice]
  grind

@[simp]
theorem length_resize (block : List Alpha) (size : Nat) (filler : Alpha) :
    (resize block size filler).length = size := by
  simp only [resize, List.length_append, List.length_take,
    List.length_replicate]
  omega

theorem slice_resize (block : List Alpha) {first last size : Nat}
    (filler : Alpha) (fits : last ≤ size) (inside : last ≤ block.length) :
    slice (resize block size filler) first last = slice block first last := by
  have head : (block.take size ++
      List.replicate (size - block.length) filler).take last =
        block.take last := by
    rw [List.take_append_of_le_length (by simp; omega), List.take_take]
    simp [fits]
  simp [slice, resize, head]

theorem length_overwrite (block source : List Alpha) (position : Nat)
    (fits : position + source.length ≤ block.length) :
    (overwrite block position source).length = block.length := by
  simp [overwrite]
  omega

theorem slice_overwrite (block source : List Alpha) (position : Nat)
    (fits : position ≤ block.length) :
    slice (overwrite block position source) position
      (position + source.length) = source := by
  have front : (block.take position).length = position := by simp [fits]
  have written : (overwrite block position source).take
      (position + source.length) = block.take position ++ source := by
    rw [overwrite, List.take_append_of_le_length (by simp [fits]),
      List.take_of_length_le (by simp [fits])]
  rw [slice, written, List.drop_append_of_le_length (by simp [fits])]
  simp

theorem slice_overwrite_before (block source : List Alpha) (first : Nat)
    {last position : Nat} (before : last ≤ position)
    (fits : position ≤ block.length) :
    slice (overwrite block position source) first last =
      slice block first last := by
  have kept : (overwrite block position source).take last =
      block.take last := by
    rw [overwrite, List.append_assoc,
      List.take_append_of_le_length (by simp; omega), List.take_take,
      Nat.min_eq_left before]
  rw [slice, kept, slice]

@[simp]
theorem length_copyWithin (count first target : Nat) (block : List Alpha) :
    (copyWithin count first target block).length = block.length := by
  induction count generalizing first target block with
  | zero => rfl
  | succ count inductionHypothesis =>
      rw [copyWithin, inductionHypothesis]
      split <;> simp

/-- What each index holds after a copy towards the front. The hypothesis
`target ≤ first` is what makes a front-first copy safe on overlapping ranges:
no element is overwritten before it has been read. -/
theorem getElem?_copyWithin (count first target index : Nat)
    (block : List Alpha) (downwards : target ≤ first)
    (fits : first + count ≤ block.length) :
    (copyWithin count first target block)[index]? =
      if target ≤ index ∧ index < target + count then
        block[first + (index - target)]?
      else
        block[index]? := by
  induction count generalizing first target block with
  | zero =>
      have outside : ¬ (target ≤ index ∧ index < target + 0) := by omega
      rw [if_neg outside, copyWithin]
  | succ count inductionHypothesis =>
      have inside : first < block.length := by omega
      rw [copyWithin, List.getElem?_eq_getElem inside,
        inductionHypothesis _ _ _ (by omega) (by simp; omega)]
      clear inductionHypothesis
      simp only [List.getElem?_set]
      rcases Nat.lt_trichotomy index target with before | equal | after
      · simp [show ¬ target ≤ index by omega, show ¬ target + 1 ≤ index by omega,
          show target ≠ index by omega]
      · subst equal
        simp [show index < block.length by omega, inside,
          show ¬ index + 1 ≤ index by omega]
      · have shifted : first + 1 + (index - (target + 1)) =
            first + (index - target) := by omega
        have unread : target ≠ first + (index - target) := by omega
        have untouched : target ≠ index := by omega
        simp only [shifted, unread, untouched, if_false]
        grind

theorem slice_copyWithin (count first target : Nat) (block : List Alpha)
    (downwards : target ≤ first) (fits : first + count ≤ block.length) :
    slice (copyWithin count first target block) target (target + count) =
      slice block first (first + count) := by
  apply List.ext_getElem?
  intro index
  rw [getElem?_slice, getElem?_slice,
    getElem?_copyWithin _ _ _ _ _ downwards fits]
  grind

end GdRpc.Library
