import GdRpc.Rpc.WeightedShares

/-!
# The weights of `RoundRobin` stay bounded

`Next` is run once more with every sum and difference checked against two
bounds, which is what it is to run on an `int`. New elements come in between
the calls.
-/

namespace GdRpc.Rpc

open GdRpc.Library

universe u

variable {T : Type u}

namespace RoundRobin

/-- The result of an addition or subtraction, if it lies between the bounds. -/
def within (low high result : Int) : Option Int :=
  if low < result ∧ result < high then some result else none

/-- The loop body of `Next` with its two additions checked. -/
def NextLoop.bodyWithin (low high : Int) (loop : NextLoop T) (i : Nat) :
    Option (NextLoop T) :=
  match loop.elements_[i]? with
  | none => some loop
  | some element =>
      (within low high (loop.total + element.weight_)).bind fun total =>
      (within low high (element.currentWeight_ + element.weight_)).bind fun currentWeight_ =>
      let elements_ := loop.elements_.set i { element with currentWeight_ := currentWeight_ }
      some {
        elements_ := elements_
        total := total
        p :=
          if currentWeight elements_ i > currentWeight elements_ loop.p then i
          else loop.p }

/-- `Next`, or nothing if one of its results is not between the bounds. -/
def NextWithin (low high : Int) (balancer : RoundRobin T) :
    Option (Option Nat × RoundRobin T) :=
  if balancer.elements_.isEmpty then
    some (none, balancer)
  else if balancer.elements_.length = 1 then
    some (some 0, balancer)
  else
    ((List.range balancer.elements_.length).foldlM (NextLoop.bodyWithin low high)
      { elements_ := balancer.elements_, total := 0, p := 0 }).bind fun loop =>
    (within low high (currentWeight loop.elements_ loop.p - loop.total)).bind fun paid =>
    some (some loop.p, { elements_ := loop.elements_.modify loop.p fun element =>
      { element with currentWeight_ := paid } })

/-- `Next` on an `int`. -/
def NextInt (balancer : RoundRobin T) : Option (Option Nat × RoundRobin T) :=
  balancer.NextWithin (-2 ^ 31 - 1) (2 ^ 31)

inductive Operation (T : Type u) where
  | Add (t : Client T)
  | Next
  deriving DecidableEq, Repr

/-- A new element has a positive weight and has not been credited. -/
def Operation.Fresh : Operation T → Prop
  | .Add t => 0 < t.weight_ ∧ t.currentWeight_ = 0
  | .Next => True

instance : ∀ operation : Operation T, Decidable operation.Fresh
  | .Add t => inferInstanceAs (Decidable (0 < t.weight_ ∧ t.currentWeight_ = 0))
  | .Next => inferInstanceAs (Decidable True)

def operate (balancer : RoundRobin T) : Operation T → RoundRobin T
  | .Add t => balancer.Add t
  | .Next => balancer.Next.2

/-! ## Between the calls -/

/-- The credits sum to zero and none is more than a turn in debt. -/
structure Steady (balancer : RoundRobin T) : Prop where
  positive : ∀ weight ∈ balancer.weights, 0 < weight
  sum_zero : (balancer.elements_.map Client.currentWeight_).sum = 0
  above : ∀ element ∈ balancer.elements_, -balancer.weights.sum < element.currentWeight_

variable {balancer : RoundRobin T}

theorem credit_eq_getD (i : Nat) :
    balancer.credit i = (balancer.elements_.map Client.currentWeight_).getD i 0 := by
  rw [credit, currentWeight, List.getD_eq_getElem?_getD, List.getElem?_map]

theorem steady_iff (positive : ∀ weight ∈ balancer.weights, 0 < weight) :
    balancer.Steady ↔ (weighting balancer.weights positive).Balanced balancer.credit := by
  have length : balancer.weights.length = balancer.elements_.length := List.length_map _
  have sum : ∑ i ∈ (weighting balancer.weights positive).members, balancer.credit i =
      (balancer.elements_.map Client.currentWeight_).sum := by
    rw [← sum_range_getD, List.length_map, ← length]
    exact Finset.sum_congr rfl fun i _ => credit_eq_getD i
  have total := weighting_total balancer.weights positive
  have creditAt : ∀ (i : Nat) (inside : i < balancer.elements_.length),
      balancer.credit i = balancer.elements_[i].currentWeight_ := by
    intro i inside
    simp [credit, currentWeight, inside]
  constructor
  · intro steady
    refine ⟨sum.trans steady.sum_zero, ?_⟩
    intro i membership
    have inside : i < balancer.elements_.length := length ▸ Finset.mem_range.mp membership
    rw [total, creditAt i inside]
    exact steady.above _ (List.getElem_mem inside)
  · intro balanced
    refine ⟨positive, sum.symm.trans balanced.sum_zero, ?_⟩
    intro element membership
    obtain ⟨i, inside, rfl⟩ := List.mem_iff_getElem.mp membership
    have above := balanced.above i (Finset.mem_range.mpr (length.symm ▸ inside))
    rwa [total, creditAt i inside] at above

theorem Steady.below (steady : balancer.Steady) {element : Client T}
    (membership : element ∈ balancer.elements_) :
    element.currentWeight_ < balancer.elements_.length * balancer.weights.sum := by
  have length : balancer.weights.length = balancer.elements_.length := List.length_map _
  have balanced := (steady_iff steady.positive).mp steady
  obtain ⟨i, inside, rfl⟩ := List.mem_iff_getElem.mp membership
  have below := balanced.below (Finset.mem_range.mpr (length.symm ▸ inside))
  rw [weighting_total] at below
  simpa [weighting, length, credit, currentWeight, inside] using below

theorem Steady.sum_nonneg (steady : balancer.Steady) : 0 ≤ balancer.weights.sum :=
  List.sum_nonneg fun weight membership => (steady.positive weight membership).le

theorem Steady.add (steady : balancer.Steady) {t : Client T} (positive : 0 < t.weight_)
    (zero : t.currentWeight_ = 0) : (balancer.Add t).Steady := by
  have weights : (balancer.Add t).weights = balancer.weights ++ [t.weight_] := by
    simp [RoundRobin.weights, Add]
  have nonneg := steady.sum_nonneg
  refine ⟨?_, ?_, ?_⟩
  · rw [weights]
    intro weight membership
    rcases List.mem_append.mp membership with old | new
    · exact steady.positive weight old
    · rwa [List.mem_singleton.mp new]
  · simp [Add, steady.sum_zero, zero]
  · rw [weights, List.sum_append, List.sum_singleton]
    intro element membership
    rcases List.mem_append.mp membership with old | new
    · have above := steady.above element old
      linarith
    · rw [List.mem_singleton.mp new, zero]
      linarith

theorem Next_of_empty (empty : balancer.elements_ = []) : balancer.Next = (none, balancer) := by
  simp [Next, empty]

theorem Steady.next_kept (steady : balancer.Steady) :
    balancer.Next.2.kept = balancer.kept := by
  by_cases empty : balancer.elements_ = []
  · rw [Next_of_empty empty]
  · obtain ⟨picked, _, kept, _⟩ := Next_step steady.positive empty
    exact kept

theorem Steady.next (steady : balancer.Steady) : balancer.Next.2.Steady := by
  have same := weights_of_kept steady.next_kept
  by_cases empty : balancer.elements_ = []
  · rw [Next_of_empty empty]
    exact steady
  · obtain ⟨picked, _, _, step⟩ := Next_step steady.positive empty
    apply (steady_iff (same.symm ▸ steady.positive)).mpr
    simp only [same]
    exact ((steady_iff steady.positive).mp steady).step step

theorem Steady.operate (steady : balancer.Steady) {operation : Operation T}
    (fresh : operation.Fresh) : (balancer.operate operation).Steady := by
  cases operation with
  | Add t => exact steady.add fresh.1 fresh.2
  | Next => exact steady.next

theorem steady_empty : (⟨[]⟩ : RoundRobin T).Steady :=
  ⟨by simp [RoundRobin.weights], rfl, by simp⟩

theorem Steady.run (steady : balancer.Steady) {operations : List (Operation T)}
    (fresh : ∀ operation ∈ operations, operation.Fresh) :
    (operations.foldl RoundRobin.operate balancer).Steady := by
  induction operations generalizing balancer with
  | nil => exact steady
  | cons operation operations inductionHypothesis =>
      apply inductionHypothesis (steady.operate (fresh operation List.mem_cons_self))
      exact fun later membership => fresh later (List.mem_cons_of_mem _ membership)

/-! ## Inside a call -/

theorem within_eq_some {low high result : Int} (above : low < result) (below : result < high) :
    within low high result = some result :=
  if_pos ⟨above, below⟩

/-- The checks of the loop body, on the element it is at, pass. -/
theorem Scanned.bodyWithin {low high : Int} {start : List (Client T)} {count : Nat}
    {loop : NextLoop T} (scanned : Scanned start count loop) (inside : count < start.length)
    (total : low < loop.total + start[count].weight_ ∧
      loop.total + start[count].weight_ < high)
    (credited : low < start[count].currentWeight_ + start[count].weight_ ∧
      start[count].currentWeight_ + start[count].weight_ < high) :
    loop.bodyWithin low high count = some (loop.body count) := by
  unfold NextLoop.bodyWithin NextLoop.body
  simp only [scanned.here inside, within_eq_some total.1 total.2,
    within_eq_some credited.1 credited.2, Option.bind_some]

theorem Steady.total_le (steady : balancer.Steady) {count : Nat} {loop : NextLoop T}
    (scanned : Scanned balancer.elements_ count loop)
    (inside : count < balancer.elements_.length) :
    0 < loop.total + balancer.elements_[count].weight_ ∧
      loop.total + balancer.elements_[count].weight_ ≤ balancer.weights.sum := by
  have here : balancer.elements_[count].weight_ ∈ balancer.weights :=
    List.mem_map_of_mem (List.getElem_mem inside)
  have split : balancer.weights = (balancer.elements_.take count).map Client.weight_ ++
      balancer.elements_[count].weight_ ::
        (balancer.elements_.drop (count + 1)).map Client.weight_ := by
    rw [weights, ← List.map_cons, ← List.drop_eq_getElem_cons inside, ← List.map_append,
      List.take_append_drop]
  have nonneg : ∀ weight ∈ balancer.weights, 0 ≤ weight := fun weight membership =>
    (steady.positive weight membership).le
  have before : 0 ≤ loop.total := by
    rw [scanned.total]
    apply List.sum_nonneg
    intro weight membership
    exact nonneg weight (split ▸ List.mem_append_left _ membership)
  have behind : 0 ≤ ((balancer.elements_.drop (count + 1)).map Client.weight_).sum := by
    apply List.sum_nonneg
    intro weight membership
    exact nonneg weight
      (split ▸ List.mem_append_right _ (List.mem_cons_of_mem _ membership))
  have positive := steady.positive _ here
  have sum := congrArg List.sum split
  rw [List.sum_append, List.sum_cons, ← scanned.total] at sum
  constructor <;> linarith

theorem Steady.weight_le (steady : balancer.Steady) {weight : Int}
    (membership : weight ∈ balancer.weights) : weight ≤ balancer.weights.sum :=
  List.single_le_sum (fun other isWeight => (steady.positive other isWeight).le)
    weight membership

theorem Steady.foldlM_bodyWithin {low high : Int} (steady : balancer.Steady)
    (lower : low ≤ -balancer.weights.sum)
    (upper : (balancer.elements_.length + 1) * balancer.weights.sum ≤ high) :
    ∀ count ≤ balancer.elements_.length,
      (List.range count).foldlM (NextLoop.bodyWithin low high) ⟨balancer.elements_, 0, 0⟩ =
        some ((List.range count).foldl NextLoop.body ⟨balancer.elements_, 0, 0⟩) := by
  intro count
  induction count with
  | zero =>
      intro _
      rfl
  | succ count inductionHypothesis =>
      intro inside
      have scanned := scanned_foldl balancer.elements_ count (Nat.le_of_succ_le inside)
      have membership := List.getElem_mem inside
      have weighs : balancer.elements_[count].weight_ ∈ balancer.weights :=
        List.mem_map_of_mem membership
      have weight := steady.positive _ weighs
      have weightLe := steady.weight_le weighs
      have above := steady.above _ membership
      have below := steady.below membership
      have total := steady.total_le scanned inside
      have one : balancer.weights.sum <
          (balancer.elements_.length + 1) * balancer.weights.sum := by
        have length : (1 : Int) ≤ balancer.elements_.length := by omega
        nlinarith
      rw [List.range_succ, List.foldlM_append, List.foldl_append,
        inductionHypothesis (Nat.le_of_succ_le inside)]
      simp only [Option.bind_eq_bind, Option.bind_some, List.foldlM_cons, List.foldlM_nil,
        List.foldl_cons, List.foldl_nil]
      rw [scanned.bodyWithin inside ⟨by linarith, by linarith⟩ ⟨by linarith, by linarith⟩]
      rfl

theorem Scanned.inside_length {start : List (Client T)} {loop : NextLoop T}
    (scanned : Scanned start start.length loop) (nonempty : start ≠ []) :
    loop.p < loop.elements_.length := by
  have length : loop.elements_.length = start.length := by
    rw [scanned.elements]
    simp
  have positive := List.length_pos_iff.mpr nonempty
  have inside := scanned.inside
  omega

theorem modify_paid {elements_ : List (Client T)} {p : Nat} (total : Int)
    (inside : p < elements_.length) :
    (elements_.modify p fun element =>
        { element with currentWeight_ := currentWeight elements_ p - total }) =
      elements_.modify p fun element =>
        { element with currentWeight_ := element.currentWeight_ - total } := by
  rw [List.modify_eq_set_getElem?, List.modify_eq_set_getElem?,
    List.getElem?_eq_getElem inside]
  simp [currentWeight, inside]

/-- With room for the next multiple of the total weight, no check fails. -/
theorem Steady.nextWithin {low high : Int} (steady : balancer.Steady)
    (lower : low ≤ -balancer.weights.sum)
    (upper : (balancer.elements_.length + 1) * balancer.weights.sum ≤ high) :
    balancer.NextWithin low high = some balancer.Next := by
  have after := steady.next
  have weights := weights_of_kept steady.next_kept
  have length := length_of_kept steady.next_kept
  have nonneg := steady.sum_nonneg
  unfold Next at after weights length ⊢
  unfold NextWithin
  split_ifs at after weights length ⊢ with empty single
  · rfl
  · rfl
  · have nonempty : balancer.elements_ ≠ [] := by simpa using empty
    have scanned := scanned_foldl balancer.elements_ _ le_rfl
    rw [steady.foldlM_bodyWithin lower upper _ le_rfl, Option.bind_some]
    generalize (List.range balancer.elements_.length).foldl NextLoop.body
      ⟨balancer.elements_, 0, 0⟩ = loop at scanned after weights length ⊢
    have inside := scanned.inside_length nonempty
    have isElement : { loop.elements_[loop.p] with
        currentWeight_ := currentWeight loop.elements_ loop.p - loop.total } ∈
        loop.elements_.modify loop.p fun element =>
          { element with currentWeight_ := element.currentWeight_ - loop.total } := by
      rw [← modify_paid loop.total inside]
      apply List.mem_of_getElem? (i := loop.p)
      simp [inside]
    have above := after.above _ isElement
    have below := after.below isElement
    rw [weights] at above
    simp only [weights, length] at below
    rw [within_eq_some (by linarith) (by linarith), Option.bind_some, modify_paid loop.total inside]

/-! ## Over a whole run -/

theorem Steady.run_weights (steady : balancer.Steady) {operations : List (Operation T)}
    (fresh : ∀ operation ∈ operations, operation.Fresh) :
    balancer.weights <+: (operations.foldl RoundRobin.operate balancer).weights := by
  induction operations generalizing balancer with
  | nil => exact List.prefix_refl _
  | cons operation operations inductionHypothesis =>
      have now := fresh operation List.mem_cons_self
      have later := inductionHypothesis (steady.operate now)
        fun other membership => fresh other (List.mem_cons_of_mem _ membership)
      apply List.IsPrefix.trans _ later
      cases operation with
      | Add t => exact ⟨[t.weight_], by simp [weights, RoundRobin.operate, Add]⟩
      | Next => exact ⟨[], by simp [RoundRobin.operate, weights_of_kept steady.next_kept]⟩

theorem Steady.room_le {later : RoundRobin T} (steady : balancer.Steady)
    (laterSteady : later.Steady) (grown : balancer.weights <+: later.weights) :
    (balancer.elements_.length + 1) * balancer.weights.sum ≤
      (later.elements_.length + 1) * later.weights.sum := by
  have lengthLe := grown.length_le
  rw [weights, weights, List.length_map, List.length_map] at lengthLe
  have sumLe : balancer.weights.sum ≤ later.weights.sum := by
    obtain ⟨added, same⟩ := grown
    rw [← same, List.sum_append]
    have nonneg : 0 ≤ added.sum := by
      apply List.sum_nonneg
      intro weight membership
      exact (laterSteady.positive weight (same ▸ List.mem_append_right _ membership)).le
    linarith
  apply mul_le_mul _ sumLe steady.sum_nonneg (by positivity)
  exact_mod_cast Nat.succ_le_succ lengthLe

/-- With `n` elements of total weight `W`, between the calls the credits sum to
zero and lie between `-W` and `n * W`, and all that `Next` computes lies
between `-W` and `(n + 1) * W`. If the latter is an `int` at the end of a run,
no sum or difference of `Next` overflows anywhere in it. -/
theorem weights_stay_bounded (operations : List (Operation T))
    (fresh : ∀ operation ∈ operations, operation.Fresh) :
    let finish := operations.foldl operate (⟨[]⟩ : RoundRobin T)
    (finish.elements_.map Client.currentWeight_).sum = 0 ∧
    (∀ element ∈ finish.elements_,
      -finish.weights.sum < element.currentWeight_ ∧
      element.currentWeight_ < finish.elements_.length * finish.weights.sum) ∧
    finish.NextWithin (-finish.weights.sum)
      ((finish.elements_.length + 1) * finish.weights.sum) = some finish.Next ∧
    ((finish.elements_.length + 1) * finish.weights.sum < 2 ^ 31 →
      ∀ past, past <+: operations →
        (past.foldl operate (⟨[]⟩ : RoundRobin T)).NextInt =
          some (past.foldl operate (⟨[]⟩ : RoundRobin T)).Next) := by
  intro finish
  have steady : finish.Steady := steady_empty.run fresh
  refine ⟨steady.sum_zero, fun element membership =>
    ⟨steady.above element membership, steady.below membership⟩,
    steady.nextWithin le_rfl le_rfl, ?_⟩
  rintro fits past ⟨rest, rfl⟩
  have freshPast : ∀ operation ∈ past, operation.Fresh := fun operation membership =>
    fresh operation (List.mem_append_left _ membership)
  have freshRest : ∀ operation ∈ rest, operation.Fresh := fun operation membership =>
    fresh operation (List.mem_append_right _ membership)
  have before : (past.foldl operate (⟨[]⟩ : RoundRobin T)).Steady := steady_empty.run freshPast
  have grown := before.run_weights freshRest
  rw [← List.foldl_append] at grown
  have room := before.room_le steady grown
  have nonneg := before.sum_nonneg
  have length : (0 : Int) ≤ (past.foldl operate (⟨[]⟩ : RoundRobin T)).elements_.length :=
    Int.natCast_nonneg _
  apply before.nextWithin
  · nlinarith
  · linarith

/-- Two elements, and a third one in the middle of their cycle. -/
theorem weights_stay_bounded_third :
    let operations : List (Operation Nat) :=
      [.Add ⟨5, 0, 0⟩, .Next, .Add ⟨1, 0, 1⟩, .Next, .Add ⟨1, 0, 2⟩, .Next]
    let finish := operations.foldl operate (⟨[]⟩ : RoundRobin Nat)
    finish.elements_.map Client.currentWeight_ = [-3, 2, 1] ∧
      (finish.elements_.map Client.currentWeight_).sum = 0 ∧
      finish.NextInt = some finish.Next := by
  intro operations finish
  have fresh : ∀ operation ∈ operations, operation.Fresh := by decide
  obtain ⟨sum, _, _, runs⟩ := weights_stay_bounded operations fresh
  exact ⟨by decide, sum, runs (by decide) operations (List.prefix_refl _)⟩

end RoundRobin

end GdRpc.Rpc
