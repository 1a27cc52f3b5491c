import GdRpc.Library.Bytes
import Mathlib.Data.List.Lex

/-!
# Numbers of a fixed width

Numbers padded with zeros, with the same text between them each time: the
resulting texts have the order of the numbers.
-/

namespace GdRpc.Library

/-- The last `width` decimal digits of a number. -/
def padded : Nat → Nat → Bytes
  | 0, _ => []
  | width + 1, value => padded width (value / 10) ++ [UInt8.ofNat (48 + value % 10)]

@[simp]
theorem length_padded (width value : Nat) : (padded width value).length = width := by
  induction width generalizing value with
  | zero => rfl
  | succ width inductionHypothesis => simp [padded, inductionHypothesis]

theorem append_lt_append {first second : Bytes} (length : first.length = second.length)
    (order : first < second) (firstRest secondRest : Bytes) :
    first ++ firstRest < second ++ secondRest := by
  induction first generalizing second with
  | nil =>
      rw [List.length_nil, eq_comm, List.length_eq_zero_iff] at length
      rw [length] at order
      exact absurd order (List.not_lt_nil _)
  | cons head first inductionHypothesis =>
      cases second with
      | nil => cases length
      | cons other second =>
          rw [List.cons_append, List.cons_append, List.cons_lt_cons_iff]
          refine (List.cons_lt_cons_iff.mp order).imp_right ?_
          rintro ⟨same, later⟩
          exact ⟨same, inductionHypothesis (Nat.succ.inj length) later⟩

theorem digit_lt {first second : Nat} (order : first < second) (small : second < 10) :
    UInt8.ofNat (48 + first) < UInt8.ofNat (48 + second) := by
  rw [UInt8.lt_iff_toNat_lt, UInt8.toNat_ofNat', UInt8.toNat_ofNat']
  omega

theorem padded_lt {width first second : Nat} (order : first < second)
    (fits : second < 10 ^ width) : padded width first < padded width second := by
  induction width generalizing first second with
  | zero => omega
  | succ width inductionHypothesis =>
      rw [padded, padded]
      rcases Nat.lt_or_ge (first / 10) (second / 10) with higher | level
      · apply append_lt_append (by simp)
        apply inductionHypothesis higher
        rw [Nat.pow_succ] at fits
        omega
      · have same : first / 10 = second / 10 := by omega
        rw [same]
        apply List.append_left_lt
        rw [List.cons_lt_cons_iff]
        exact Or.inl (digit_lt (by omega) (Nat.mod_lt _ (by decide)))

/-- Each number in its width, with the text that follows it. -/
def render : List (Nat × Bytes) → List Nat → Bytes
  | (width, text) :: layout, value :: values => padded width value ++ text ++ render layout values
  | _, _ => []

/-- A width for each number, in which it fits. -/
def Fits (layout : List (Nat × Bytes)) (values : List Nat) : Prop :=
  List.Forall₂ (fun entry value => value < 10 ^ entry.1) layout values

theorem length_render {layout : List (Nat × Bytes)} {first second : List Nat}
    (fitsFirst : Fits layout first) (fitsSecond : Fits layout second) :
    (render layout first).length = (render layout second).length := by
  induction fitsFirst generalizing second with
  | nil =>
      cases fitsSecond
      rfl
  | cons _ _ inductionHypothesis =>
      cases fitsSecond with
      | cons _ rest => simp [render, inductionHypothesis rest]

theorem render_lt {layout : List (Nat × Bytes)} {first second : List Nat}
    (fitsFirst : Fits layout first) (fitsSecond : Fits layout second)
    (order : first < second) : render layout first < render layout second := by
  induction fitsFirst generalizing second with
  | nil =>
      cases fitsSecond
      exact absurd order (List.not_lt_nil _)
  | @cons entry value layout values _ _ inductionHypothesis =>
      cases fitsSecond with
      | @cons _ other _ others fits rest =>
          rw [render, render, List.append_assoc, List.append_assoc]
          rcases List.cons_lt_cons_iff.mp order with less | ⟨rfl, later⟩
          · exact append_lt_append (by simp) (padded_lt less fits) _ _
          · exact List.append_left_lt (List.append_left_lt (inductionHypothesis rest later))

end GdRpc.Library
