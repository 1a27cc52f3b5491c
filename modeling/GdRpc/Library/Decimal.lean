import GdRpc.Library.Bytes
import Mathlib.Algebra.Order.Group.Nat

/-!
# Numbers in texts

The digits a number is printed with, and the number a text begins with.
-/

namespace GdRpc.Library

/-- The value of a character as a digit; there are sixteen. -/
def digitValue (character : UInt8) : Option Nat :=
  if 48 ≤ character ∧ character ≤ 57 then some (character.toNat - 48)
  else if 65 ≤ character ∧ character ≤ 70 then some (character.toNat - 55)
  else if 97 ≤ character ∧ character ≤ 102 then some (character.toNat - 87)
  else none

def isDigitOf (base : Nat) (character : UInt8) : Bool :=
  (digitValue character).any (· < base)

/-- The digits with which a text begins. -/
def digits (base : Nat) (text : Bytes) : Bytes :=
  text.takeWhile (isDigitOf base)

def valueOf (base : Nat) (digits : Bytes) : Nat :=
  digits.foldl (fun value digit => value * base + (digitValue digit).getD 0) 0

/-- The number a text begins with, zero if it does not begin with one. -/
def numeral (base : Nat) (text : Bytes) : Nat :=
  valueOf base (digits base text)

theorem isDigitOf_ten_iff {character : UInt8} :
    isDigitOf 10 character = true ↔ 48 ≤ character ∧ character ≤ 57 := by
  simp only [isDigitOf, digitValue, UInt8.le_iff_toNat_le, UInt8.reduceToNat]
  grind

/-- `%u` -/
def decimalNat (value : Nat) : Bytes :=
  ascii value.repr

/-- `%d` -/
def decimal (value : Int) : Bytes :=
  ascii (toString value)

@[simp]
theorem decimal_natCast (value : Nat) : decimal value = decimalNat value := rfl

theorem decimalNat_eq (value : Nat) :
    decimalNat value =
      if value < 10 then [UInt8.ofNat (48 + value)]
      else decimalNat (value / 10) ++ [UInt8.ofNat (48 + value % 10)] := by
  have printed : ∀ digit < 10, UInt8.ofNat digit.digitChar.toNat = UInt8.ofNat (48 + digit) := by
    decide
  simp only [decimalNat, ascii, Nat.toList_repr]
  rw [Nat.toDigits_eq_if (by decide)]
  split
  next small => simp [printed value small]
  next large => simp [printed (value % 10) (Nat.mod_lt _ (by decide))]

theorem digitValue_ofNat {digit : Nat} (small : digit < 10) :
    digitValue (UInt8.ofNat (48 + digit)) = some digit := by
  have each : ∀ digit < 10, digitValue (UInt8.ofNat (48 + digit)) = some digit := by decide
  exact each digit small

theorem isDigitOf_decimalNat {value : Nat} {character : UInt8}
    (membership : character ∈ decimalNat value) : isDigitOf 10 character := by
  have each : ∀ digit < 10, isDigitOf 10 (UInt8.ofNat (48 + digit)) := by decide
  induction value using Nat.strong_induction_on with
  | _ value inductionHypothesis =>
      rw [decimalNat_eq] at membership
      split at membership
      next small =>
        rw [List.mem_singleton.mp membership]
        exact each value small
      next large =>
        rcases List.mem_append.mp membership with front | last
        · exact inductionHypothesis (value / 10) (by omega) front
        · rw [List.mem_singleton.mp last]
          exact each (value % 10) (Nat.mod_lt _ (by decide))

theorem not_mem_decimalNat {value : Nat} {character : UInt8}
    (other : isDigitOf 10 character = false) : character ∉ decimalNat value := by
  intro membership
  simp [isDigitOf_decimalNat membership] at other

theorem valueOf_decimalNat (value : Nat) : valueOf 10 (decimalNat value) = value := by
  induction value using Nat.strong_induction_on with
  | _ value inductionHypothesis =>
      rw [decimalNat_eq]
      split
      next small =>
        simp only [valueOf, List.foldl_cons, List.foldl_nil, digitValue_ofNat small,
          Option.getD_some, Nat.zero_mul, Nat.zero_add]
      next large =>
        have front := inductionHypothesis (value / 10) (by omega)
        have last := digitValue_ofNat (Nat.mod_lt value (show 10 > 0 by decide))
        unfold valueOf at front ⊢
        rw [List.foldl_append, front, List.foldl_cons, List.foldl_nil, last, Option.getD_some]
        omega

theorem decimalNat_injective : Function.Injective decimalNat :=
  Function.LeftInverse.injective valueOf_decimalNat

/-- Only a negative number has a minus sign. -/
theorem decimal_injective : Function.Injective decimal := by
  have negative : ∀ value, decimal (.negSucc value) = 45 :: decimalNat (value + 1) := by
    intro value
    simp [decimal, decimalNat, ascii, toString, Int.repr]
  have differ : ∀ (value : Nat) rest, decimalNat value ≠ 45 :: rest := by
    intro value rest same
    have minus : (45 : UInt8) ∉ decimalNat value := not_mem_decimalNat (by decide)
    rw [same] at minus
    exact minus List.mem_cons_self
  intro first second same
  cases first with
  | ofNat first =>
      cases second with
      | ofNat second => exact congrArg Int.ofNat (decimalNat_injective same)
      | negSucc second =>
          rw [negative] at same
          exact absurd same (differ first _)
  | negSucc first =>
      rw [negative] at same
      cases second with
      | ofNat second => exact absurd same.symm (differ second _)
      | negSucc second =>
          rw [negative] at same
          have values := decimalNat_injective (List.cons_injective same)
          rw [Nat.succ.inj values]

theorem digits_decimalNat_append (value : Nat) {rest : Bytes}
    (ends : ∀ character ∈ rest.head?, isDigitOf 10 character = false) :
    digits 10 (decimalNat value ++ rest) = decimalNat value := by
  unfold digits
  rw [List.takeWhile_append_of_pos fun _ membership => isDigitOf_decimalNat membership]
  cases rest with
  | nil => simp
  | cons character rest => simp [ends character rfl]

theorem numeral_decimalNat_append (value : Nat) {rest : Bytes}
    (ends : ∀ character ∈ rest.head?, isDigitOf 10 character = false) :
    numeral 10 (decimalNat value ++ rest) = value := by
  rw [numeral, digits_decimalNat_append value ends, valueOf_decimalNat]

theorem head?_decimalNat_ne_zero {value : Nat} (positive : 0 < value) :
    (decimalNat value).head? ≠ some 48 := by
  induction value using Nat.strong_induction_on with
  | _ value inductionHypothesis =>
      rw [decimalNat_eq]
      split
      next small =>
        have each : ∀ digit < 10, 0 < digit → UInt8.ofNat (48 + digit) ≠ 48 := by decide
        simpa using each value small positive
      next large =>
        have front := inductionHypothesis (value / 10) (by omega) (by omega)
        cases printed : decimalNat (value / 10) with
        | nil =>
            rw [decimalNat_eq] at printed
            split at printed <;> simp at printed
        | cons character rest => simpa [printed] using front

theorem decimalNat_ne_nil (value : Nat) : decimalNat value ≠ [] := by
  rw [decimalNat_eq]
  split <;> simp

theorem length_decimalNat_le {value width : Nat} (positive : 0 < width)
    (small : value < 10 ^ width) : (decimalNat value).length ≤ width := by
  rw [decimalNat, ascii, List.length_map, Nat.toList_repr]
  exact (Nat.length_toDigits_le_iff (by decide) positive).mpr small

end GdRpc.Library
