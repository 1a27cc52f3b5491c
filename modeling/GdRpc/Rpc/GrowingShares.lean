import GdRpc.Rpc.BoundedWeights

/-!
# Shares while endpoints are added

A window of calls may begin anywhere, and new elements may come in inside of
it. An element gets its share of the window all the same, up to a number of
turns that does not depend on how long the window is, so none is starved.
-/

namespace GdRpc.Rpc

open GdRpc.Library

universe u

variable {T : Type u}

namespace RoundRobin

def Operation.isNext : Operation T → Bool
  | .Add _ => false
  | .Next => true

/-- The elements that the calls of `Next` return. -/
def picks (balancer : RoundRobin T) : List (Operation T) → List Nat
  | [] => []
  | .Add t :: operations => (balancer.Add t).picks operations
  | .Next :: operations => balancer.Next.1.toList ++ balancer.Next.2.picks operations

variable {balancer : RoundRobin T}

theorem weights_add (balancer : RoundRobin T) (t : Client T) :
    (balancer.Add t).weights = balancer.weights ++ [t.weight_] := by
  simp [weights, Add]

theorem length_weights (balancer : RoundRobin T) :
    balancer.weights.length = balancer.elements_.length :=
  List.length_map _

theorem credit_add {i : Nat} (inside : i < balancer.elements_.length) (t : Client T) :
    (balancer.Add t).credit i = balancer.credit i := by
  simp [credit, currentWeight, Add, List.getElem?_append_left inside]

theorem Steady.sum_le {later : RoundRobin T} (laterSteady : later.Steady)
    (grown : balancer.weights <+: later.weights) :
    balancer.weights.sum ≤ later.weights.sum :=
  grown.sublist.sum_le_sum fun weight membership =>
    (laterSteady.positive weight membership).le

theorem weight_add {i : Nat} (inside : i < balancer.elements_.length) (t : Client T) :
    (balancer.Add t).weights.getD i 0 = balancer.weights.getD i 0 := by
  rw [weights_add, List.getD_eq_getElem?_getD, List.getElem?_append_left,
    List.getD_eq_getElem?_getD]
  rwa [length_weights]

theorem Steady.credit_next (steady : balancer.Steady) {i : Nat}
    (inside : i < balancer.elements_.length) :
    ∃ picked, balancer.Next.1 = some picked ∧
      balancer.Next.2.credit i = balancer.credit i + balancer.weights.getD i 0 -
        if i = picked then balancer.weights.sum else 0 := by
  have nonempty : balancer.elements_ ≠ [] :=
    List.ne_nil_of_length_pos (Nat.zero_lt_of_lt inside)
  obtain ⟨picked, returned, _, step⟩ := Next_step steady.positive nonempty
  have paid := step.charged i (Finset.mem_range.mpr (by rwa [length_weights]))
  rw [SmoothWeighting.charge, weighting_total] at paid
  exact ⟨picked, returned, paid⟩

/-- Over a window an element is credited its weight by each call, and charged
the total of the moment by the calls that pick it. -/
theorem Steady.credit_foldl (steady : balancer.Steady) {operations : List (Operation T)}
    (fresh : ∀ operation ∈ operations, operation.Fresh) {i : Nat}
    (inside : i < balancer.elements_.length) :
    ∃ charged : Int,
      (operations.foldl RoundRobin.operate balancer).credit i =
        balancer.credit i + operations.countP Operation.isNext * balancer.weights.getD i 0 -
          charged ∧
      (balancer.picks operations).count i * balancer.weights.sum ≤ charged ∧
      charged ≤ (balancer.picks operations).count i *
        (operations.foldl RoundRobin.operate balancer).weights.sum := by
  induction operations generalizing balancer with
  | nil => exact ⟨0, by simp, by simp [picks], by simp [picks]⟩
  | cons operation operations inductionHypothesis =>
      obtain ⟨now, later⟩ := List.forall_mem_cons.mp fresh
      have final := (steady.run fresh).sum_le (steady.run_weights fresh)
      rw [List.foldl_cons] at final ⊢
      cases operation with
      | Add t =>
          simp only [RoundRobin.operate] at final ⊢
          have inside' : i < (balancer.Add t).elements_.length := by
            simp only [Add, List.length_append, List.length_singleton]
            omega
          obtain ⟨charged, credit, lower, upper⟩ :=
            inductionHypothesis (steady.add now.1 now.2) later inside'
          refine ⟨charged, ?_, ?_, upper⟩
          · rw [List.countP_cons_of_neg (by simp [Operation.isNext]), credit,
              credit_add inside, weight_add inside]
          · rw [weights_add, List.sum_append, List.sum_singleton] at lower
            have count : (0 : Int) ≤ ((balancer.Add t).picks operations).count i :=
              Int.natCast_nonneg _
            have positive := now.1
            rw [picks]
            nlinarith
      | Next =>
          simp only [RoundRobin.operate] at final ⊢
          obtain ⟨picked, returned, credited⟩ := steady.credit_next inside
          have same := weights_of_kept steady.next_kept
          have inside' : i < balancer.Next.2.elements_.length := by
            rw [length_of_kept steady.next_kept]
            exact inside
          obtain ⟨charged, credit, lower, upper⟩ :=
            inductionHypothesis steady.next later inside'
          rw [same] at credit lower
          have counts : (balancer.picks (.Next :: operations)).count i =
              (balancer.Next.2.picks operations).count i + if i = picked then 1 else 0 := by
            rw [picks, returned, Option.toList_some, List.singleton_append, List.count_cons]
            simp only [beq_iff_eq, @eq_comm Nat i picked]
          refine ⟨charged + if i = picked then balancer.weights.sum else 0, ?_, ?_, ?_⟩
          · rw [List.countP_cons_of_pos rfl, credit, credited]
            push_cast
            ring
          · rw [counts]
            split <;> push_cast <;> linarith
          · rw [counts]
            split <;> push_cast <;> linarith

/-- With `n` elements of total weight `W` at its beginning, `n'` and `W'` at its
end, an element that is there from the beginning is picked in a window of calls
more than `calls * weight_ / W' - n' - 1` times, and less often than
`(calls * weight_ + W') / W + n` times. The weights of the source are `int`s,
in which nothing overflows as long as `(n' + 1) * W' < 2 ^ 31`. -/
theorem shares_kept_while_growing (operations window : List (Operation T))
    (fresh : ∀ operation ∈ operations ++ window, operation.Fresh) :
    let start := operations.foldl operate (⟨[]⟩ : RoundRobin T)
    let finish := window.foldl operate start
    ∀ i, ∀ element ∈ start.elements_[i]?,
      let calls : Int := window.countP Operation.isNext
      let picked : Int := (start.picks window).count i
      calls * element.weight_ <
        (picked + finish.elements_.length + 1) * finish.weights.sum ∧
      picked * start.weights.sum <
        calls * element.weight_ + start.elements_.length * start.weights.sum +
          finish.weights.sum := by
  intro start finish i element here calls picked
  obtain ⟨freshBefore, freshWindow⟩ := List.forall_mem_append.mp fresh
  have steady : start.Steady := steady_empty.run freshBefore
  have steady' : finish.Steady := steady.run freshWindow
  have grown : start.weights <+: finish.weights := steady.run_weights freshWindow
  obtain ⟨inside, rfl⟩ := List.getElem?_eq_some_iff.mp here
  have inside' : i < finish.elements_.length := by
    have length := grown.length_le
    rw [length_weights, length_weights] at length
    omega
  obtain ⟨charged, credit, lower, upper⟩ := steady.credit_foldl freshWindow inside
  have weight : start.weights.getD i 0 = start.elements_[i].weight_ := by
    simp [weights, inside]
  have before : start.credit i = start.elements_[i].currentWeight_ := by
    simp [RoundRobin.credit, currentWeight, inside]
  have after : finish.credit i = finish.elements_[i].currentWeight_ := by
    simp [RoundRobin.credit, currentWeight, inside']
  have balance : finish.elements_[i].currentWeight_ =
      start.elements_[i].currentWeight_ + calls * start.elements_[i].weight_ - charged := by
    rw [← after, ← before, ← weight]
    exact credit
  have sumLe := steady'.sum_le grown
  have startAbove := steady.above _ (List.getElem_mem inside)
  have startBelow := steady.below (List.getElem_mem inside)
  have finishAbove := steady'.above _ (List.getElem_mem inside')
  have finishBelow := steady'.below (List.getElem_mem inside')
  constructor
  · have most : charged ≤ picked * finish.weights.sum := upper
    linarith
  · have least : picked * start.weights.sum ≤ charged := lower
    linarith

/-- The third element comes in the middle of the window. -/
theorem shares_kept_while_growing_third :
    let operations : List (Operation Nat) := [.Add ⟨5, 0, 0⟩, .Add ⟨1, 0, 1⟩, .Next]
    let window : List (Operation Nat) :=
      [.Next, .Next, .Add ⟨1, 0, 2⟩, .Next, .Next, .Next, .Next, .Next]
    let start := operations.foldl operate (⟨[]⟩ : RoundRobin Nat)
    let finish := window.foldl operate start
    start.picks window = [0, 0, 1, 0, 0, 2, 0] ∧
      ∀ i, ∀ element ∈ start.elements_[i]?,
        let calls : Int := window.countP Operation.isNext
        let picked : Int := (start.picks window).count i
        calls * element.weight_ <
          (picked + finish.elements_.length + 1) * finish.weights.sum ∧
        picked * start.weights.sum <
          calls * element.weight_ + start.elements_.length * start.weights.sum +
            finish.weights.sum :=
  ⟨by decide, shares_kept_while_growing _ _ (by decide)⟩

end RoundRobin

end GdRpc.Rpc
