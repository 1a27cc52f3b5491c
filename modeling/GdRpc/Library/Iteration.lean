import Mathlib.Algebra.Group.Nat.Even
import Mathlib.Data.List.Basic

/-!
# Iterating a function that produces output

A stateful function called again and again from one state: what it returns and
where it ends. A state that comes back makes the outputs periodic.
-/

namespace GdRpc.Library

universe u v

variable {State : Type u} {Output : Type v}

/-- The state after `count` calls. -/
def final (call : State → Output × State) : Nat → State → State
  | 0, state => state
  | count + 1, state => final call count (call state).2

/-- What `count` calls return, oldest first. -/
def outputs (call : State → Output × State) : Nat → State → List Output
  | 0, _ => []
  | count + 1, state => (call state).1 :: outputs call count (call state).2

variable (call : State → Output × State)

@[simp]
theorem length_outputs (count : Nat) (state : State) :
    (outputs call count state).length = count := by
  induction count generalizing state with
  | zero => rfl
  | succ count inductionHypothesis => simp [outputs, inductionHypothesis]

theorem final_add (first second : Nat) (state : State) :
    final call (first + second) state =
      final call second (final call first state) := by
  induction first generalizing state with
  | zero => rw [Nat.zero_add, final]
  | succ first inductionHypothesis =>
      rw [Nat.succ_add, final, final, inductionHypothesis]

theorem outputs_add (first second : Nat) (state : State) :
    outputs call (first + second) state =
      outputs call first state ++ outputs call second (final call first state) := by
  induction first generalizing state with
  | zero => rw [Nat.zero_add, outputs, final, List.nil_append]
  | succ first inductionHypothesis =>
      rw [Nat.succ_add, outputs, outputs, final, inductionHypothesis,
        List.cons_append]

section Period

variable {call} {period : Nat} {state : State}

theorem final_period_add (returns : final call period state = state) (count : Nat) :
    final call (period + count) state = final call count state := by
  rw [final_add, returns]

theorem final_mul_period (returns : final call period state = state) (times : Nat) :
    final call (period * times) state = state := by
  induction times with
  | zero => rfl
  | succ times inductionHypothesis =>
      rw [Nat.mul_succ, final_add, inductionHypothesis, returns]

theorem outputs_mul_period (returns : final call period state = state) (times : Nat) :
    outputs call (period * times) state =
      (List.replicate times (outputs call period state)).flatten := by
  induction times with
  | zero => rfl
  | succ times inductionHypothesis =>
      rw [Nat.mul_succ, Nat.add_comm, outputs_add, returns, inductionHypothesis,
        List.replicate_succ, List.flatten_cons]

end Period

/-- A call that makes two and drops what the first returns. -/
def callTwice : State → Output × State :=
  fun state => call (call state).2

mutual

/-- Every second element, beginning with the first. -/
def firsts : List Output → List Output
  | [] => []
  | output :: rest => output :: seconds rest

/-- Every second element, beginning with the second. -/
def seconds : List Output → List Output
  | [] => []
  | _ :: rest => firsts rest

end

theorem outputs_callTwice (count : Nat) (state : State) :
    outputs (callTwice call) count state = seconds (outputs call (2 * count) state) := by
  induction count generalizing state with
  | zero => simp [outputs, seconds]
  | succ count inductionHypothesis =>
      rw [Nat.mul_succ, outputs, outputs, outputs, inductionHypothesis, seconds, firsts,
        callTwice]

theorem firsts_seconds_append (first second : List Output) :
    firsts (first ++ second) = firsts first ++
        (if Even first.length then firsts second else seconds second) ∧
    seconds (first ++ second) = seconds first ++
        (if Even first.length then seconds second else firsts second) := by
  induction first with
  | nil => simp [firsts, seconds]
  | cons output first inductionHypothesis =>
      obtain ⟨firstsEq, secondsEq⟩ := inductionHypothesis
      rw [List.cons_append, firsts, seconds, firsts, seconds, firstsEq, secondsEq,
        List.length_cons]
      by_cases even : Even first.length <;> simp [even, Nat.even_add_one]

theorem seconds_replicate {block : List Output} (even : Even block.length)
    (times : Nat) :
    seconds (List.replicate times block).flatten =
      (List.replicate times (seconds block)).flatten := by
  induction times with
  | zero => simp [seconds]
  | succ times inductionHypothesis =>
      rw [List.replicate_succ, List.flatten_cons, (firsts_seconds_append _ _).2,
        if_pos even, inductionHypothesis, List.replicate_succ, List.flatten_cons]

theorem count_firsts_seconds [BEq Output] (output : Output)
    (list : List Output) :
    (firsts list).count output + (seconds list).count output = list.count output := by
  induction list with
  | nil => simp [firsts, seconds]
  | cons head list inductionHypothesis =>
      rw [firsts, seconds, List.count_cons, List.count_cons, ← inductionHypothesis]
      omega

/-- In an odd block and its repetition every output is second exactly once. -/
theorem count_seconds_twice [BEq Output] {block : List Output}
    (odd : ¬ Even block.length) (output : Output) :
    (seconds (block ++ block)).count output = block.count output := by
  rw [(firsts_seconds_append _ _).2, if_neg odd, List.count_append, Nat.add_comm,
    count_firsts_seconds]

theorem count_replicate_flatten [BEq Output] (times : Nat)
    (block : List Output) (output : Output) :
    (List.replicate times block).flatten.count output =
      times * block.count output := by
  induction times with
  | zero => simp
  | succ times inductionHypothesis =>
      rw [List.replicate_succ, List.flatten_cons, List.count_append,
        inductionHypothesis, Nat.succ_mul, Nat.add_comm]

end GdRpc.Library
