import Mathlib.Algebra.BigOperators.Group.Finset.Piecewise
import Mathlib.Algebra.BigOperators.Ring.Finset
import Mathlib.Algebra.Order.BigOperators.Group.Finset
import Mathlib.Data.Int.GCD
import Mathlib.Tactic.Linarith
import Mathlib.Tactic.Ring
import GdRpc.Library.Transition

/-!
# Smooth weighting

Each step credits every member with its weight, picks a member whose credit is
then greatest and charges it the total weight. How ties are broken does not
matter here. A credit is the difference between the share a member was to have
and the share it got, so that vanishing credits mean exact shares.
-/

namespace GdRpc.Library

universe u

/-- The members that take turns and their positive weights. -/
structure SmoothWeighting (Member : Type u) where
  members : Finset Member
  weight : Member → ℤ
  positive : ∀ member ∈ members, 0 < weight member

namespace SmoothWeighting

variable {Member : Type u} [DecidableEq Member]
  (weighting : SmoothWeighting Member)

omit [DecidableEq Member] in
/-- The total weight. -/
def total : ℤ :=
  ∑ member ∈ weighting.members, weighting.weight member

/-- Credit every member and charge the picked one. -/
def charge (credit : Member → ℤ) (picked : Member) : Member → ℤ :=
  fun member => credit member + weighting.weight member -
    if member = picked then weighting.total else 0

structure Step (credit : Member → ℤ) (picked : Member) (after : Member → ℤ) :
    Prop where
  isMember : picked ∈ weighting.members
  greatest : ∀ member ∈ weighting.members,
    credit member + weighting.weight member ≤
      credit picked + weighting.weight picked
  charged : ∀ member ∈ weighting.members,
    after member = weighting.charge credit picked member

/-- All credits start at zero. -/
def system : System (Member → ℤ) Member where
  initial credit := ∀ member ∈ weighting.members, credit member = 0
  step := weighting.Step

variable {weighting}

theorem Step.total_pos {credit after : Member → ℤ} {picked : Member}
    (step : weighting.Step credit picked after) : 0 < weighting.total :=
  Finset.sum_pos weighting.positive ⟨picked, step.isMember⟩

theorem Step.sum_eq {credit after : Member → ℤ} {picked : Member}
    (step : weighting.Step credit picked after) :
    ∑ member ∈ weighting.members, after member =
      ∑ member ∈ weighting.members, credit member := by
  calc ∑ member ∈ weighting.members, after member
      = ∑ member ∈ weighting.members, (credit member + weighting.weight member -
          if member = picked then weighting.total else 0) :=
        Finset.sum_congr rfl step.charged
    _ = ∑ member ∈ weighting.members, credit member + weighting.total -
          weighting.total := by
        rw [Finset.sum_sub_distrib, Finset.sum_add_distrib, Finset.sum_ite_eq',
          if_pos step.isMember, total]
    _ = ∑ member ∈ weighting.members, credit member := add_sub_cancel_right _ _

/-- The picked member had a positive credit, for the credits sum to the total
weight once all have been credited. -/
theorem Step.picked_pos {credit after : Member → ℤ} {picked : Member}
    (step : weighting.Step credit picked after)
    (balanced : ∑ member ∈ weighting.members, credit member = 0) :
    0 < credit picked + weighting.weight picked := by
  by_contra notPositive
  have nonpositive : ∑ member ∈ weighting.members,
      (credit member + weighting.weight member) ≤ 0 :=
    Finset.sum_nonpos fun member membership =>
      (step.greatest member membership).trans (not_lt.mp notPositive)
  rw [Finset.sum_add_distrib, balanced, zero_add] at nonpositive
  exact absurd step.total_pos (not_lt.mpr nonpositive)

/-- The credits sum to zero and no member is more than a turn in debt. -/
structure Balanced (weighting : SmoothWeighting Member) (credit : Member → ℤ) :
    Prop where
  sum_zero : ∑ member ∈ weighting.members, credit member = 0
  above : ∀ member ∈ weighting.members, -weighting.total < credit member

theorem Balanced.step {credit after : Member → ℤ} {picked : Member}
    (balanced : weighting.Balanced credit)
    (step : weighting.Step credit picked after) : weighting.Balanced after := by
  refine ⟨step.sum_eq.trans balanced.sum_zero, ?_⟩
  intro member membership
  rw [step.charged member membership, charge]
  by_cases same : member = picked
  · have positive := step.picked_pos balanced.sum_zero
    rw [if_pos same, same]
    linarith
  · have lower := balanced.above member membership
    have positive := weighting.positive member membership
    rw [if_neg same]
    linarith

/-- As no other member is a turn in debt, none has more than a turn of each. -/
theorem Balanced.below {credit : Member → ℤ} (balanced : weighting.Balanced credit)
    {member : Member} (membership : member ∈ weighting.members) :
    credit member < weighting.members.card * weighting.total := by
  have total : 0 < weighting.total := Finset.sum_pos weighting.positive ⟨member, membership⟩
  have others : ∑ other ∈ weighting.members.erase member, -credit other ≤
      (weighting.members.erase member).card • weighting.total := by
    apply Finset.sum_le_card_nsmul
    intro other isOther
    have above := balanced.above other (Finset.mem_of_mem_erase isOther)
    linarith
  have split := Finset.add_sum_erase weighting.members credit membership
  rw [balanced.sum_zero] at split
  rw [Finset.sum_neg_distrib, Finset.card_erase_of_mem membership, nsmul_eq_mul,
    Nat.cast_pred (Finset.card_pos.mpr ⟨member, membership⟩)] at others
  linarith

theorem balanced_of_execution {picks : List Member} {credit : Member → ℤ}
    (nonempty : weighting.members.Nonempty)
    (execution : weighting.system.Execution picks credit) :
    weighting.Balanced credit := by
  refine execution.invariant weighting.Balanced ?_ ?_
  · intro start isZero
    have total : 0 < weighting.total := Finset.sum_pos weighting.positive nonempty
    refine ⟨Finset.sum_eq_zero isZero, ?_⟩
    intro member membership
    rw [isZero member membership]
    exact neg_lt_zero.mpr total
  · intro _ _ _ balanced step
    exact balanced.step step

theorem credit_of_run {picks : List Member} {start credit : Member → ℤ}
    (run : weighting.system.Run start picks credit) :
    ∀ member ∈ weighting.members, credit member = start member +
      picks.length * weighting.weight member -
        weighting.total * picks.count member := by
  induction run with
  | nil => simp
  | @snoc picks middle picked credit _ step inductionHypothesis =>
      intro member membership
      have before := inductionHypothesis member membership
      rw [step.charged member membership, charge, before, List.length_append,
        List.count_append, List.count_singleton]
      by_cases same : member = picked
      · simp only [same, if_true, beq_self_eq_true, List.length_singleton]
        push_cast
        ring
      · rw [if_neg same, if_neg (by simpa using Ne.symm same)]
        simp only [List.length_singleton]
        push_cast
        ring

theorem credit_zero {picks : List Member} {credit : Member → ℤ}
    (nonempty : weighting.members.Nonempty)
    (execution : weighting.system.Execution picks credit)
    (whole : ∀ member ∈ weighting.members,
      weighting.total ∣ picks.length * weighting.weight member) :
    ∀ member ∈ weighting.members, credit member = 0 := by
  have balanced := balanced_of_execution nonempty execution
  have total : 0 < weighting.total := Finset.sum_pos weighting.positive nonempty
  obtain ⟨start, isZero, run⟩ := execution
  -- A multiple of the total weight above its negative is not negative.
  have nonneg : ∀ member ∈ weighting.members, 0 ≤ credit member := by
    intro member membership
    have lower := balanced.above member membership
    have divides : weighting.total ∣ credit member := by
      rw [credit_of_run run member membership, isZero member membership, zero_add]
      exact dvd_sub (whole member membership) (dvd_mul_right _ _)
    obtain ⟨turns, eq⟩ := divides
    rw [eq] at lower ⊢
    have above : -1 < turns := by
      by_contra atMost
      nlinarith [not_lt.mp atMost]
    exact mul_nonneg total.le (by omega)
  exact (Finset.sum_eq_zero_iff_of_nonneg nonneg).mp balanced.sum_zero

/-- No member is ahead of its share by a whole turn. -/
theorem count_lt {picks : List Member} {credit : Member → ℤ}
    (nonempty : weighting.members.Nonempty)
    (execution : weighting.system.Execution picks credit) {member : Member}
    (membership : member ∈ weighting.members) :
    weighting.total * picks.count member <
      picks.length * weighting.weight member + weighting.total := by
  have above := (balanced_of_execution nonempty execution).above member membership
  obtain ⟨start, isZero, run⟩ := execution
  rw [credit_of_run run member membership, isZero member membership] at above
  linarith

theorem count_of_return {picks : List Member} {start finish : Member → ℤ}
    (run : weighting.system.Run start picks finish) {member : Member}
    (membership : member ∈ weighting.members)
    (returns : finish member = start member) :
    weighting.total * picks.count member =
      picks.length * weighting.weight member := by
  have credit := credit_of_run run member membership
  rw [returns] at credit
  linarith

end SmoothWeighting

end GdRpc.Library
