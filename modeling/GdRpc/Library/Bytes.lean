import Mathlib.Algebra.Group.Int.Defs
import Mathlib.Algebra.Group.Nat.Defs
import Mathlib.Data.List.Basic

/-!
# Bytes and machine integers

An `int` has 32 bits and lies in memory with its low byte first; `size_t` and
`uint64_t` have 64 bits.
-/

namespace GdRpc.Library

abbrev Bytes := List UInt8

/-- The bytes of a text of ASCII characters. -/
def ascii (text : String) : Bytes :=
  text.toList.map fun character => UInt8.ofNat character.toNat

/-- Conversion of an integer to `int`. -/
def toInt (value : Int) : Int :=
  value.bmod (2 ^ 32)

theorem toInt_of_lt {value : Int} (nonneg : 0 ≤ value) (small : value < 2 ^ 31) :
    toInt value = value := by
  unfold toInt
  rw [Int.bmod_eq_of_le] <;> omega

theorem toInt_lt (value : Int) : toInt value < 2 ^ 31 := by
  have bound := @Int.bmod_lt value (2 ^ 32) (by decide)
  unfold toInt
  omega

theorem le_toInt (value : Int) : -2 ^ 31 ≤ toInt value := by
  have bound := @Int.le_bmod value (2 ^ 32) (by decide)
  unfold toInt
  omega

theorem toInt_eq_self_iff {value : Int} (nonneg : 0 ≤ value) :
    toInt value = value ↔ value < 2 ^ 31 := by
  constructor
  · intro same
    rw [← same]
    exact toInt_lt value
  · exact toInt_of_lt nonneg

/-- The conversion may lose rounds of `2 ^ 32`; it adds none. -/
theorem toInt_le_self {value : Int} (nonneg : 0 ≤ value) : toInt value ≤ value := by
  rcases Int.lt_or_le value (2 ^ 31) with small | large
  · exact Int.le_of_eq (toInt_of_lt nonneg small)
  · exact Int.le_trans (Int.le_of_lt (toInt_lt value)) large

@[simp]
theorem toInt_toInt (value : Int) : toInt (toInt value) = toInt value := by
  unfold toInt
  exact Int.bmod_bmod

theorem toInt_inj {first second : Nat} (firstSmall : first < 2 ^ 32)
    (secondSmall : second < 2 ^ 32) (same : toInt first = toInt second) :
    first = second := by
  unfold toInt at same
  have remainders : (first : Int) % ((2 ^ 32 : Nat) : Int) =
      (second : Int) % ((2 ^ 32 : Nat) : Int) := by
    rw [← Int.bmod_emod, same, Int.bmod_emod]
  omega

/-- Conversion of an integer to `uint64_t`. -/
def toUInt64 (value : Int) : Nat :=
  (value % 2 ^ 64).toNat

/-- A length comes back from an `int` exactly if it is below `2 ^ 31`. -/
theorem toUInt64_toInt_iff {length : Nat} (bounded : length < 2 ^ 63) :
    toUInt64 (toInt length) = length ↔ length < 2 ^ 31 := by
  have low := le_toInt length
  have high := toInt_lt length
  constructor
  · intro same
    unfold toUInt64 at same
    omega
  · intro small
    rw [toInt_of_lt (Int.natCast_nonneg _) (by omega)]
    unfold toUInt64
    omega

/-- The four bytes of an `int`. -/
def intBytes (value : Int) : Bytes :=
  (List.range 4).map fun index =>
    UInt8.ofNat ((value % 2 ^ 32).toNat / 256 ^ index)

/-- The `int` whose bytes come first. -/
def readInt (bytes : Bytes) : Int :=
  toInt ((bytes.take 4).foldr (fun byte value => byte.toNat + 256 * value) 0 : Nat)

theorem readInt_intBytes (value : Int) (rest : Bytes) :
    readInt (intBytes value ++ rest) = toInt value := by
  have split : ∀ number : Nat, number < 2 ^ 32 →
      number % 256 + 256 * (number / 256 % 256 + 256 * (number / 65536 % 256 +
        256 * (number / 16777216 % 256 + 256 * 0))) = number := by
    intro number small
    omega
  have length : (intBytes value).length = 4 := rfl
  unfold readInt
  rw [List.take_left' length]
  simp only [intBytes, List.range_succ, List.range_zero, List.nil_append,
    List.cons_append, List.map_cons, List.map_nil, List.foldr_cons, List.foldr_nil,
    UInt8.toNat_ofNat', Nat.reducePow, Nat.div_one]
  rw [split _ (by omega)]
  unfold toInt
  rw [Int.toNat_of_nonneg (by omega)]
  exact_mod_cast Int.emod_bmod value (2 ^ 32)

end GdRpc.Library
