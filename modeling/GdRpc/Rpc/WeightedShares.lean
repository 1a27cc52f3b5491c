import Mathlib.Data.Rat.Floor
import GdRpc.Library.SmoothWeighting
import GdRpc.Rpc.ClusterCli

/-!
# `RoundRobin` gives exact shares

`Next` makes one step of the smooth weighting in which `currentWeight_` is the
credit. After as many calls as the weights sum to, the balancer is back where
it was, so that every window of this length has the same shares.
-/

namespace GdRpc.Rpc

open GdRpc.Library

universe u

variable {T : Type u}

namespace RoundRobin

def advance (element : Client T) : Client T :=
  { element with currentWeight_ := element.currentWeight_ + element.weight_ }

/-- The loop of `Next` after `count` turns. -/
structure Scanned (start : List (Client T)) (count : Nat) (loop : NextLoop T) :
    Prop where
  elements : loop.elements_ = (start.take count).map advance ++ start.drop count
  total : loop.total = ((start.take count).map Client.weight_).sum
  inside : loop.p < count ∨ count = 0 ∧ loop.p = 0
  greatest : ∀ i < count,
    currentWeight loop.elements_ i ≤ currentWeight loop.elements_ loop.p

theorem Scanned.here {start : List (Client T)} {count : Nat} {loop : NextLoop T}
    (scanned : Scanned start count loop) (inside : count < start.length) :
    loop.elements_[count]? = some start[count] := by
  have length : ((start.take count).map advance).length = count := by
    simp [Nat.le_of_lt inside]
  rw [scanned.elements, List.getElem?_append_right (Nat.le_of_eq length), length]
  simp [inside]

theorem Scanned.body {start : List (Client T)} {count : Nat} {loop : NextLoop T}
    (scanned : Scanned start count loop) (inside : count < start.length) :
    Scanned start (count + 1) (loop.body count) := by
  have length : ((start.take count).map advance).length = count := by
    simp [Nat.le_of_lt inside]
  have here := scanned.here inside
  have updated : loop.elements_.set count (advance start[count]) =
      (start.take (count + 1)).map advance ++ start.drop (count + 1) := by
    rw [scanned.elements, List.set_append_right _ _ (Nat.le_of_eq length), length,
      Nat.sub_self, List.drop_eq_getElem_cons inside, List.set_cons_zero,
      ← List.take_append_getElem inside, List.map_append, List.append_assoc]
    rfl
  have before : ∀ i < count,
      currentWeight (loop.elements_.set count (advance start[count])) i =
        currentWeight loop.elements_ i := by
    intro i isBefore
    unfold currentWeight
    rw [List.getElem?_set_ne (Nat.ne_of_gt isBefore)]
  have body : loop.body count = {
      elements_ := loop.elements_.set count (advance start[count])
      total := loop.total + start[count].weight_
      p :=
        if currentWeight (loop.elements_.set count (advance start[count])) count >
            currentWeight (loop.elements_.set count (advance start[count])) loop.p
        then count else loop.p } := by
    unfold NextLoop.body
    simp only [here]
    rfl
  rw [body]
  refine ⟨updated, ?_, ?_, ?_⟩
  · rw [← List.take_append_getElem inside, List.map_append, List.sum_append,
      ← scanned.total]
    exact congrArg (loop.total + ·) (Int.add_zero _).symm
  · refine .inl ?_
    have old := scanned.inside
    change (if _ then count else loop.p) < count + 1
    split <;> omega
  · intro i isInside
    change currentWeight _ i ≤ currentWeight _ (if _ then count else loop.p)
    rcases Nat.lt_succ_iff_lt_or_eq.mp isInside with isBefore | isLast
    · have pInside : loop.p < count := by
        have old := scanned.inside
        omega
      have old := scanned.greatest i isBefore
      split
      next more =>
        rw [before _ pInside] at more
        rw [before i isBefore]
        exact old.trans (Int.le_of_lt more)
      next => rwa [before i isBefore, before _ pInside]
    · subst isLast
      split
      next => exact le_rfl
      next notMore => exact Int.not_lt.mp notMore

theorem scanned_foldl (start : List (Client T)) :
    ∀ count ≤ start.length, Scanned start count
      ((List.range count).foldl NextLoop.body ⟨start, 0, 0⟩) := by
  intro count
  induction count with
  | zero =>
      intro _
      refine ⟨rfl, rfl, .inr ⟨rfl, rfl⟩, ?_⟩
      intro i impossible
      cases impossible
  | succ count inductionHypothesis =>
      intro inside
      rw [List.range_succ, List.foldl_append]
      exact (inductionHypothesis (Nat.le_of_succ_le inside)).body inside

def weights (balancer : RoundRobin T) : List Int :=
  balancer.elements_.map Client.weight_

/-- The weights as weights of the positions. -/
def weighting (weights : List Int) (positive : ∀ weight ∈ weights, 0 < weight) :
    SmoothWeighting Nat where
  members := Finset.range weights.length
  weight i := weights.getD i 0
  positive := by
    intro i membership
    have inside := Finset.mem_range.mp membership
    rw [List.getD_eq_getElem?_getD, List.getElem?_eq_getElem inside]
    exact positive _ (List.getElem_mem inside)

theorem sum_range_getD (values : List Int) :
    ∑ i ∈ Finset.range values.length, values.getD i 0 = values.sum := by
  induction values with
  | nil => rfl
  | cons value values inductionHypothesis =>
      rw [List.length_cons, Finset.sum_range_succ', List.sum_cons, Int.add_comm]
      simpa using inductionHypothesis

theorem weighting_total (weights : List Int)
    (positive : ∀ weight ∈ weights, 0 < weight) :
    (weighting weights positive).total = weights.sum :=
  sum_range_getD weights

/-- `currentWeight_` as a credit of the positions. -/
def credit (balancer : RoundRobin T) : Nat → Int :=
  currentWeight balancer.elements_

/-- The last statement of `Next`: the chosen element pays the total. -/
def pay (elements_ : List (Client T)) (p : Nat) (total : Int) : List (Client T) :=
  elements_.modify p fun element =>
    { element with currentWeight_ := element.currentWeight_ - total }

theorem currentWeight_pay {elements_ : List (Client T)} {i : Nat} (p : Nat)
    (total : Int) (inside : i < elements_.length) :
    currentWeight (pay elements_ p total) i =
      currentWeight elements_ i - if i = p then total else 0 := by
  by_cases same : p = i
  · simp [currentWeight, pay, inside, same]
  · simp [currentWeight, pay, inside, same, Ne.symm same]

theorem currentWeight_advance {elements_ : List (Client T)} {i : Nat}
    (inside : i < elements_.length) :
    currentWeight (elements_.map advance) i =
      currentWeight elements_ i + (elements_.map Client.weight_).getD i 0 := by
  simp [currentWeight, inside, advance]

theorem Next_of_two_le (balancer : RoundRobin T)
    (two : 2 ≤ balancer.elements_.length) :
    ∃ p < balancer.elements_.length,
      (∀ i < balancer.elements_.length,
        currentWeight (balancer.elements_.map advance) i ≤
          currentWeight (balancer.elements_.map advance) p) ∧
      balancer.Next = (some p,
        ⟨pay (balancer.elements_.map advance) p balancer.weights.sum⟩) := by
  have scanned := scanned_foldl balancer.elements_ _ le_rfl
  generalize loopEq : (List.range balancer.elements_.length).foldl NextLoop.body
    ⟨balancer.elements_, 0, 0⟩ = loop at scanned
  obtain ⟨elements, total, inside, greatest⟩ := scanned
  rw [List.take_length, List.drop_length, List.append_nil] at elements
  rw [List.take_length] at total
  refine ⟨loop.p, by omega, ?_, ?_⟩
  · intro i isInside
    rw [← elements]
    exact greatest i isInside
  · have notEmpty : balancer.elements_.isEmpty = false := by
      rw [List.isEmpty_eq_false_iff]
      exact List.ne_nil_of_length_pos (by omega)
    rw [Next, notEmpty, if_neg Bool.false_ne_true, if_neg (by omega), loopEq]
    rw [← elements]
    exact congrArg (fun total => (some loop.p, RoundRobin.mk (pay loop.elements_ loop.p
      total))) total

/-- The elements without their `currentWeight_`, which is all `Next` changes. -/
def kept (balancer : RoundRobin T) : List (Int × T) :=
  balancer.elements_.map fun element => (element.weight_, element.client_)

theorem weights_of_kept {balancer other : RoundRobin T}
    (same : balancer.kept = other.kept) : balancer.weights = other.weights := by
  have projected := congrArg (List.map Prod.fst) same
  rwa [kept, kept, List.map_map, List.map_map] at projected

theorem length_of_kept {balancer other : RoundRobin T}
    (same : balancer.kept = other.kept) :
    balancer.elements_.length = other.elements_.length := by
  simpa [kept] using congrArg List.length same

/-- A call of `Next` is a step of the smooth weighting. -/
theorem Next_step {balancer : RoundRobin T}
    (positive : ∀ weight ∈ balancer.weights, 0 < weight)
    (nonempty : balancer.elements_ ≠ []) :
    ∃ picked, balancer.Next.1 = some picked ∧
      balancer.Next.2.kept = balancer.kept ∧
      (weighting balancer.weights positive).Step balancer.credit picked
        balancer.Next.2.credit := by
  have total := weighting_total balancer.weights positive
  have members : ∀ i, i ∈ (weighting balancer.weights positive).members ↔
      i < balancer.elements_.length := by
    simp [weighting, weights]
  rcases Nat.lt_or_ge balancer.elements_.length 2 with small | two
  · -- A single element would be credited and charged the same weight.
    obtain ⟨element, single⟩ := List.length_eq_one_iff.mp
      (show balancer.elements_.length = 1 by
        have := List.length_pos_iff.mpr nonempty
        omega)
    have next : balancer.Next = (some 0, balancer) := by simp [Next, single]
    rw [next]
    refine ⟨0, rfl, rfl, (members 0).mpr (by simp [single]), ?_, ?_⟩
    · intro i membership
      have inside := (members i).mp membership
      obtain rfl : i = 0 := by simpa [single] using inside
      exact le_rfl
    · intro i membership
      have inside := (members i).mp membership
      obtain rfl : i = 0 := by simpa [single] using inside
      have charged : (weighting balancer.weights positive).weight 0 =
          (weighting balancer.weights positive).total := by
        rw [total]
        simp [weighting, weights, single]
      rw [SmoothWeighting.charge, if_pos rfl, charged, add_sub_cancel_right]
  · obtain ⟨p, inside, greatest, next⟩ := balancer.Next_of_two_le two
    rw [next]
    refine ⟨p, rfl, ?_, (members p).mpr inside, ?_, ?_⟩
    · apply List.ext_getElem?
      intro i
      simp only [kept, pay, List.getElem?_map, List.getElem?_modify]
      cases balancer.elements_[i]? with
      | none => rfl
      | some element =>
          by_cases same : p = i
          · simp [advance, same]
          · simp [advance, same]
    · intro i membership
      have bound := greatest i ((members i).mp membership)
      rwa [currentWeight_advance ((members i).mp membership),
        currentWeight_advance inside] at bound
    · intro i membership
      have isInside := (members i).mp membership
      change currentWeight (pay _ p _) i = _
      rw [currentWeight_pay _ _ (by simpa using isInside),
        currentWeight_advance isInside, SmoothWeighting.charge, total]
      rfl

theorem Next_run {weights : List Int} (positive : ∀ weight ∈ weights, 0 < weight)
    (count : Nat) {balancer : RoundRobin T} (same : balancer.weights = weights)
    (nonempty : balancer.elements_ ≠ []) :
    ∃ picks, outputs Next count balancer = picks.map some ∧
      (final Next count balancer).kept = balancer.kept ∧
      (weighting weights positive).system.Run balancer.credit picks
        (final Next count balancer).credit := by
  subst same
  induction count with
  | zero => exact ⟨[], rfl, rfl, .nil⟩
  | succ count inductionHypothesis =>
      obtain ⟨picks, returned, kept, run⟩ := inductionHypothesis
      have weightsEq := weights_of_kept kept
      have stillNonempty : (final Next count balancer).elements_ ≠ [] := by
        apply List.ne_nil_of_length_pos
        rw [length_of_kept kept]
        exact List.length_pos_iff.mpr nonempty
      obtain ⟨picked, result, keptNow, step⟩ :=
        Next_step (weightsEq ▸ positive) stillNonempty
      refine ⟨picks ++ [picked], ?_, ?_, ?_⟩
      · rw [outputs_add, returned, List.map_append]
        simp [outputs, result]
      · rw [final_add]
        exact keptNow.trans kept
      · rw [final_add]
        apply run.snoc
        simp only [weightsEq] at step
        exact step

/-- The sum of the weights, as a number of calls. -/
def cycle (balancer : RoundRobin T) : Nat :=
  balancer.weights.sum.toNat

/-- The weights are positive and no call has been made. -/
structure Fresh (balancer : RoundRobin T) : Prop where
  positive : ∀ element ∈ balancer.elements_, 0 < element.weight_
  zero : ∀ element ∈ balancer.elements_, element.currentWeight_ = 0

theorem Fresh.weights_pos {balancer : RoundRobin T} (fresh : balancer.Fresh) :
    ∀ weight ∈ balancer.weights, 0 < weight := by
  intro weight membership
  obtain ⟨element, isElement, rfl⟩ := List.mem_map.mp membership
  exact fresh.positive element isElement

theorem Fresh.cycle_eq {balancer : RoundRobin T} (fresh : balancer.Fresh) :
    (balancer.cycle : Int) = balancer.weights.sum := by
  apply Int.toNat_of_nonneg
  apply List.sum_nonneg
  intro weight membership
  exact (fresh.weights_pos weight membership).le

theorem Fresh.initial {balancer : RoundRobin T} (fresh : balancer.Fresh) :
    (weighting balancer.weights fresh.weights_pos).system.initial balancer.credit := by
  intro i membership
  have inside : i < balancer.elements_.length := by
    simpa [weighting, weights] using membership
  simpa [credit, currentWeight, inside] using fresh.zero _ (List.getElem_mem inside)

theorem Fresh.eq_of_credit_zero {balancer after : RoundRobin T}
    (fresh : balancer.Fresh) (same : after.kept = balancer.kept)
    (zero : ∀ i < after.elements_.length, after.credit i = 0) : after = balancer := by
  obtain ⟨elements_⟩ := balancer
  obtain ⟨after⟩ := after
  have length : after.length = elements_.length := length_of_kept same
  congr 1
  apply List.ext_getElem length
  intro i inside insideBefore
  have keptEq : (after[i].weight_, after[i].client_) =
      (elements_[i].weight_, elements_[i].client_) := by
    have := List.getElem_of_eq same (i := i) (by simpa [kept] using inside)
    simpa [kept] using this
  have nowZero : after[i].currentWeight_ = 0 := by
    simpa [credit, currentWeight, inside] using zero i inside
  have wasZero := fresh.zero _ (List.getElem_mem insideBefore)
  obtain ⟨weightEq, clientEq⟩ := Prod.mk.inj keptEq
  cases afterElement : after[i] with
  | mk => cases element : elements_[i] with | mk => simp_all

/-- The balancer comes back once every share due is whole. -/
theorem Fresh.final_eq {balancer : RoundRobin T} (fresh : balancer.Fresh)
    {count : Nat} (whole : ∀ weight ∈ balancer.weights,
      (balancer.cycle : Int) ∣ count * weight) :
    final Next count balancer = balancer := by
  by_cases empty : balancer.elements_ = []
  · have next : balancer.Next = (none, balancer) := by simp [Next, empty]
    have returns : final Next 1 balancer = balancer := by simp [final, next]
    simpa using final_mul_period returns count
  · obtain ⟨picks, returned, kept, run⟩ :=
      Next_run fresh.weights_pos count rfl empty
    have called : picks.length = count := by
      simpa using (congrArg List.length returned).symm
    have inside : 0 < balancer.weights.length := by
      simpa [weights] using List.length_pos_iff.mpr empty
    apply fresh.eq_of_credit_zero kept
    intro i bound
    rw [length_of_kept kept] at bound
    refine SmoothWeighting.credit_zero ⟨0, Finset.mem_range.mpr inside⟩
      ⟨_, fresh.initial, run⟩ ?_ i (Finset.mem_range.mpr (by simpa [weights] using bound))
    intro j membership
    have isInside := Finset.mem_range.mp membership
    rw [weighting_total, ← fresh.cycle_eq, called]
    change (balancer.cycle : Int) ∣ count * balancer.weights.getD j 0
    rw [List.getD_eq_getElem?_getD, List.getElem?_eq_getElem isInside]
    exact whole _ (List.getElem_mem isInside)

theorem count_of_return {balancer : RoundRobin T}
    (positive : ∀ weight ∈ balancer.weights, 0 < weight) {count : Nat}
    (returns : final Next count balancer = balancer) {i : Nat} {element : Client T}
    (found : balancer.elements_[i]? = some element) :
    balancer.weights.sum * (outputs Next count balancer).count (some i) =
      count * element.weight_ := by
  have inside := (List.getElem?_eq_some_iff.mp found).1
  have nonempty : balancer.elements_ ≠ [] := List.ne_nil_of_length_pos (by omega)
  obtain ⟨picks, returned, _, run⟩ := Next_run positive count rfl nonempty
  have called : picks.length = count := by
    simpa using (congrArg List.length returned).symm
  have shares := SmoothWeighting.count_of_return run
    (Finset.mem_range.mpr (by simpa [weights] using inside))
    (congrArg (credit · i) returns)
  rw [weighting_total, called] at shares
  rw [returned, List.count_map_of_injective _ _ (Option.some_injective _), shares]
  simp [weighting, weights, found]

/-- After a cycle of calls all credits are zero again, and any window of a
cycle's length returns every element as often as its weight says. -/
theorem Next_exact_over_cycle (balancer : RoundRobin T) (fresh : balancer.Fresh) :
    (∀ element ∈ (final Next balancer.cycle balancer).elements_,
      element.currentWeight_ = 0) ∧
    ∀ (start i : Nat) (element : Client T), balancer.elements_[i]? = some element →
      ((outputs Next balancer.cycle (final Next start balancer)).count (some i) : Int) =
        element.weight_ := by
  have returns : final Next balancer.cycle balancer = balancer :=
    fresh.final_eq fun weight _ => dvd_mul_right _ _
  refine ⟨returns.symm ▸ fresh.zero, ?_⟩
  intro start i element found
  have nonempty : balancer.elements_ ≠ [] := by
    rintro empty
    simp [empty] at found
  obtain ⟨_, _, kept, _⟩ := Next_run fresh.weights_pos start rfl nonempty
  have weightsEq := weights_of_kept kept
  have windowReturns : final Next balancer.cycle (final Next start balancer) =
      final Next start balancer := by
    rw [← final_add, Nat.add_comm, final_period_add returns]
  obtain ⟨moved, foundMoved, weightEq⟩ :
      ∃ moved, (final Next start balancer).elements_[i]? = some moved ∧
        moved.weight_ = element.weight_ := by
    have := congrArg (·[i]?) weightsEq
    simpa [weights, found] using this
  have shares := count_of_return (weightsEq ▸ fresh.weights_pos) windowReturns foundMoved
  rw [weightsEq, ← fresh.cycle_eq, weightEq] at shares
  have cyclePos : (balancer.cycle : Int) ≠ 0 := by
    rw [fresh.cycle_eq]
    refine (List.sum_pos _ fresh.weights_pos ?_).ne'
    simpa [weights] using nonempty
  exact mul_left_cancel₀ cyclePos shares

/-- Three elements, from the start and from inside the cycle. -/
theorem Next_exact_over_cycle_five_one_one :
    let balancer : RoundRobin Nat := ⟨[⟨5, 0, 0⟩, ⟨1, 0, 1⟩, ⟨1, 0, 2⟩]⟩
    balancer.Fresh ∧ balancer.cycle = 7 ∧
      (∀ element ∈ (final Next 7 balancer).elements_, element.currentWeight_ = 0) ∧
      ((outputs Next 7 (final Next 3 balancer)).count (some 0) : Int) = 5 := by
  have fresh : (RoundRobin.mk [⟨5, 0, 0⟩, ⟨1, 0, 1⟩, ⟨1, 0, 2⟩] :
      RoundRobin Nat).Fresh := ⟨by decide, by decide⟩
  obtain ⟨returns, shares⟩ := Next_exact_over_cycle _ fresh
  exact ⟨fresh, by decide, returns, shares 3 0 ⟨5, 0, 0⟩ rfl⟩

/-- After any number of calls no element has been returned more often than its
share of the calls, rounded up. -/
theorem Next_never_overserves (balancer : RoundRobin T) (fresh : balancer.Fresh)
    (k i : Nat) (element : Client T) (found : balancer.elements_[i]? = some element) :
    ((outputs Next k balancer).count (some i) : ℚ) <
        k * element.weight_ / balancer.weights.sum + 1 ∧
      ((outputs Next k balancer).count (some i) : ℤ) ≤
        ⌈(k * element.weight_ / balancer.weights.sum : ℚ)⌉ := by
  have inside := (List.getElem?_eq_some_iff.mp found).1
  have nonempty : balancer.elements_ ≠ [] := List.ne_nil_of_length_pos (by omega)
  obtain ⟨picks, returned, _, run⟩ := Next_run fresh.weights_pos k rfl nonempty
  have called : picks.length = k := by
    simpa using (congrArg List.length returned).symm
  have isMember : i ∈ (weighting balancer.weights fresh.weights_pos).members :=
    Finset.mem_range.mpr (by simpa [weights] using inside)
  have bound := SmoothWeighting.count_lt ⟨i, isMember⟩ ⟨_, fresh.initial, run⟩ isMember
  have weight : (weighting balancer.weights fresh.weights_pos).weight i = element.weight_ := by
    simp [weighting, weights, found]
  rw [weighting_total, weight, called] at bound
  have total : 0 < balancer.weights.sum :=
    List.sum_pos _ fresh.weights_pos (by simpa [weights] using nonempty)
  have share : (picks.count i : ℚ) < k * element.weight_ / balancer.weights.sum + 1 := by
    rw [div_add_one (by exact_mod_cast total.ne'), lt_div_iff₀ (by exact_mod_cast total)]
    rw [mul_comm]
    exact_mod_cast bound
  rw [returned, List.count_map_of_injective _ _ (Option.some_injective _)]
  refine ⟨share, ?_⟩
  generalize (k * element.weight_ / balancer.weights.sum : ℚ) = due at share ⊢
  rw [← Int.lt_add_one_iff]
  have below : (picks.count i : ℚ) < ⌈due⌉ + 1 :=
    share.trans_le (by gcongr; exact Int.le_ceil due)
  exact_mod_cast below

/-- Four calls on three elements. -/
theorem Next_never_overserves_five_one_one :
    let balancer : RoundRobin Nat := ⟨[⟨5, 0, 0⟩, ⟨1, 0, 1⟩, ⟨1, 0, 2⟩]⟩
    balancer.Fresh ∧
      ((outputs Next 4 balancer).count (some 0) : ℚ) <
        (4 : ℕ) * (5 : ℤ) / balancer.weights.sum + 1 := by
  have fresh : (RoundRobin.mk [⟨5, 0, 0⟩, ⟨1, 0, 1⟩, ⟨1, 0, 2⟩] :
      RoundRobin Nat).Fresh := ⟨by decide, by decide⟩
  exact ⟨fresh, (Next_never_overserves _ fresh 4 0 ⟨5, 0, 0⟩ rfl).1⟩

end RoundRobin

end GdRpc.Rpc
