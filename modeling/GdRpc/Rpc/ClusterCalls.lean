import GdRpc.Rpc.WeightedShares

/-!
# The shares of `RpcCluster::call`

`call` asks the balancer twice and uses the second answer, so that it sees
every second pick. Over a period of odd length these are all picks, over two
turns; over a period of even length they are the same half of it every time.
-/

namespace GdRpc.Rpc

open GdRpc.Library

universe u

variable {T : Type u}

namespace RoundRobin

theorem Next_none {balancer : RoundRobin T} (none : balancer.Next.1 = .none) :
    balancer.Next.2 = balancer := by
  by_cases empty : balancer.elements_ = []
  · simp [Next, empty]
  · by_cases single : balancer.elements_.length = 1
    · simp [Next, empty, single] at none
    · simp [Next, empty, single] at none

/-- The greatest common divisor of the weights. -/
def divisor (balancer : RoundRobin T) : Nat :=
  balancer.weights.foldr (fun weight divisor => Nat.gcd weight.toNat divisor) 0

theorem dvd_divisor_iff {balancer : RoundRobin T} {number : Nat} :
    number ∣ balancer.divisor ↔ ∀ weight ∈ balancer.weights, number ∣ weight.toNat := by
  unfold divisor
  induction balancer.weights with
  | nil => simp
  | cons weight weights inductionHypothesis =>
      rw [List.foldr_cons, Nat.dvd_gcd_iff, inductionHypothesis, List.forall_mem_cons]

/-- After how many calls the picks begin to repeat. -/
def period (balancer : RoundRobin T) : Nat :=
  balancer.cycle / balancer.divisor

theorem Fresh.period_mul {balancer : RoundRobin T} (fresh : balancer.Fresh) :
    balancer.period * balancer.divisor = balancer.cycle := by
  apply Nat.div_mul_cancel
  have divides := dvd_divisor_iff.mp (dvd_refl balancer.divisor)
  rw [← Int.natCast_dvd_natCast, fresh.cycle_eq]
  apply List.dvd_sum
  intro weight membership
  rw [← Int.toNat_of_nonneg (fresh.weights_pos weight membership).le]
  exact Int.natCast_dvd_natCast.mpr (divides weight membership)

theorem Fresh.final_period {balancer : RoundRobin T} (fresh : balancer.Fresh) :
    final Next balancer.period balancer = balancer := by
  apply fresh.final_eq
  intro weight membership
  obtain ⟨share, weightEq⟩ := dvd_divisor_iff.mp (dvd_refl balancer.divisor) weight membership
  rw [← Int.toNat_of_nonneg (fresh.weights_pos weight membership).le, weightEq,
    ← fresh.period_mul]
  exact ⟨share, by push_cast; ring⟩

theorem Fresh.count_period {balancer : RoundRobin T} (fresh : balancer.Fresh) {i : Nat}
    {element : Client T} (found : balancer.elements_[i]? = some element) :
    (balancer.divisor * (outputs Next balancer.period balancer).count (some i) : Int) =
      element.weight_ := by
  have shares := count_of_return fresh.weights_pos fresh.final_period found
  rw [← fresh.cycle_eq, ← fresh.period_mul] at shares
  have periodPos : (balancer.period : Int) ≠ 0 := by
    rintro zero
    have weightPos : 0 < balancer.weights.sum := by
      apply List.sum_pos _ fresh.weights_pos
      intro empty
      have noElement : balancer.elements_ = [] := List.map_eq_nil_iff.mp empty
      simp [noElement] at found
    rw [← fresh.cycle_eq, ← fresh.period_mul] at weightPos
    push_cast at weightPos
    rw [zero, zero_mul] at weightPos
    exact absurd weightPos (lt_irrefl 0)
  apply mul_left_cancel₀ periodPos
  rw [← shares]
  push_cast
  ring

end RoundRobin

namespace RpcCluster

/-- `call` asks for two elements and uses the second. -/
theorem call_eq (balancer : RoundRobin T) :
    (RpcCluster.mk balancer).call =
      ((callTwice RoundRobin.Next balancer).1,
        ⟨(callTwice RoundRobin.Next balancer).2⟩) := by
  unfold call callTwice
  cases result : balancer.Next with
  | mk picked after =>
      cases picked with
      | some picked => rfl
      | none =>
          have same : after = balancer := by
            have := RoundRobin.Next_none (congrArg Prod.fst result)
            rwa [result] at this
          subst same
          simp [result]

theorem outputs_call (count : Nat) (balancer : RoundRobin T) :
    outputs call count ⟨balancer⟩ =
      seconds (outputs RoundRobin.Next (2 * count) balancer) := by
  rw [← outputs_callTwice]
  induction count generalizing balancer with
  | zero => rfl
  | succ count inductionHypothesis =>
      rw [outputs, outputs, call_eq, inductionHypothesis]

/-- Over a cycle of calls, `fn` is applied to every endpoint as often as its
weight says. -/
def FollowsWeights (balancer : RoundRobin T) : Prop :=
  ∀ (i : Nat) (endpoint : Client T), balancer.elements_[i]? = some endpoint →
    ((outputs call balancer.cycle ⟨balancer⟩).count (some i) : Int) = endpoint.weight_

theorem followsWeights_of_odd {balancer : RoundRobin T} (fresh : balancer.Fresh)
    (odd : Odd balancer.period) : FollowsWeights balancer := by
  intro i endpoint found
  have returns := fresh.final_period
  let block := outputs RoundRobin.Next balancer.period balancer
  have twice : outputs RoundRobin.Next (balancer.period + balancer.period) balancer =
      block ++ block := by
    rw [outputs_add, returns]
  have returnsTwice : final RoundRobin.Next (balancer.period + balancer.period) balancer =
      balancer := by
    rw [final_add, returns, returns]
  have calls : 2 * balancer.cycle =
      (balancer.period + balancer.period) * balancer.divisor := by
    rw [← fresh.period_mul]
    ring
  have isOdd : ¬ Even block.length := by
    rw [length_outputs]
    exact Nat.not_even_iff_odd.mpr odd
  rw [outputs_call, calls, outputs_mul_period returnsTwice, twice,
    seconds_replicate (by simp), count_replicate_flatten, count_seconds_twice isOdd,
    ← fresh.count_period found, Nat.cast_mul]

/-- Over an even period twice the divisor would divide every weight. -/
theorem odd_of_followsWeights {balancer : RoundRobin T} (fresh : balancer.Fresh)
    (nonempty : balancer.elements_ ≠ []) (follows : FollowsWeights balancer) :
    Odd balancer.period := by
  rw [← Nat.not_even_iff_odd]
  intro even
  have calls : 2 * balancer.cycle = balancer.period * (2 * balancer.divisor) := by
    rw [← fresh.period_mul]
    ring
  have divides : 2 * balancer.divisor ∣ balancer.divisor := by
    apply RoundRobin.dvd_divisor_iff.mpr
    intro weight membership
    obtain ⟨endpoint, isEndpoint, rfl⟩ := List.mem_map.mp membership
    obtain ⟨i, found⟩ := List.mem_iff_getElem?.mp isEndpoint
    have share := follows i endpoint found
    rw [outputs_call, calls, outputs_mul_period fresh.final_period,
      seconds_replicate (by simpa using even), count_replicate_flatten] at share
    rw [← share, Int.toNat_natCast]
    exact dvd_mul_right _ _
  have divisorPos : 0 < balancer.divisor := by
    obtain ⟨endpoint, isEndpoint⟩ := List.exists_mem_of_ne_nil _ nonempty
    have weightMem : endpoint.weight_ ∈ balancer.weights := List.mem_map_of_mem isEndpoint
    have weightPos := fresh.weights_pos _ weightMem
    have divisorDvd := RoundRobin.dvd_divisor_iff.mp (dvd_refl balancer.divisor) _ weightMem
    exact Nat.pos_of_dvd_of_pos divisorDvd (by omega)
  have := Nat.le_of_dvd divisorPos divides
  omega

/-- The calls follow the weights exactly when there is no endpoint or the
weights, divided by their greatest common divisor, have an odd sum. For `n`
endpoints of total weight `W` nothing overflows in the `int`s of the source as
long as `(n + 1) * W < 2 ^ 31`. -/
theorem followsWeights_iff {balancer : RoundRobin T} (fresh : balancer.Fresh) :
    FollowsWeights balancer ↔ balancer.elements_ = [] ∨ Odd balancer.period := by
  constructor
  · intro follows
    by_cases empty : balancer.elements_ = []
    · exact .inl empty
    · exact .inr (odd_of_followsWeights fresh empty follows)
  · rintro (empty | odd)
    · intro i endpoint found
      simp [empty] at found
    · exact followsWeights_of_odd fresh odd

/-- Weights that sum to seven are followed. -/
theorem followsWeights_iff_five_one_one :
    let balancer : RoundRobin Nat := ⟨[⟨5, 0, 0⟩, ⟨1, 0, 1⟩, ⟨1, 0, 2⟩]⟩
    balancer.Fresh ∧ FollowsWeights balancer := by
  have fresh : (RoundRobin.mk [⟨5, 0, 0⟩, ⟨1, 0, 1⟩, ⟨1, 0, 2⟩] :
      RoundRobin Nat).Fresh := ⟨by decide, by decide⟩
  exact ⟨fresh, (followsWeights_iff fresh).mpr (.inr (by decide))⟩

/-- Of two endpoints of weight one, the second takes both calls. -/
theorem calls_miss_first_of_two :
    ¬ ∀ balancer : RoundRobin Nat, balancer.Fresh → FollowsWeights balancer := by
  intro follows
  have share := follows ⟨[⟨1, 0, 0⟩, ⟨1, 0, 1⟩]⟩ ⟨by decide, by decide⟩ 0 ⟨1, 0, 0⟩ rfl
  exact absurd share (by decide)

end RpcCluster

end GdRpc.Rpc
