import Mathlib

/-!
# Crossing a mark from below

The values at which a sequence comes to lie at or above a mark, having been
below it just before.
-/

namespace GdRpc.Library

universe u

variable {α : Type u} [LinearOrder α]

/-- The step from `before` to `after` reaches the mark from below. -/
def Rises (mark before after : α) : Prop :=
  before < mark ∧ mark ≤ after

instance (mark before after : α) : Decidable (Rises mark before after) :=
  inferInstanceAs (Decidable (_ ∧ _))

/-- The values a sequence takes where it reaches the mark from below. -/
def risings (mark : α) : List α → List α
  | before :: after :: rest =>
      (if Rises mark before after then [after] else []) ++ risings mark (after :: rest)
  | _ => []

theorem le_of_mem_risings {mark value : α} {values : List α}
    (membership : value ∈ risings mark values) : mark ≤ value := by
  induction values using risings.induct with
  | case1 before after rest inductionHypothesis =>
      rw [risings, List.mem_append] at membership
      rcases membership with now | later
      · split at now
        next rises =>
          rw [List.mem_singleton] at now
          rw [now]
          exact rises.2
        next => exact absurd now List.not_mem_nil
      · exact inductionHypothesis later
  | case2 values short =>
      rw [risings.eq_2 mark values short] at membership
      exact absurd membership List.not_mem_nil

end GdRpc.Library
