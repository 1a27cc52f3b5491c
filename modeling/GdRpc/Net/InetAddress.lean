import GdRpc.Library.Decimal
import Mathlib.Data.List.TakeWhile

/-!
# `InetAddress` and the C functions on addresses in texts

Ports and addresses are numbers here; in `sockaddr_in` they lie in network byte
order.
-/

namespace GdRpc.Net

open GdRpc.Library

def isspace (character : UInt8) : Bool :=
  character = 32 ∨ 9 ≤ character ∧ character ≤ 13

def minus : UInt8 := 45
def plus : UInt8 := 43
def dot : UInt8 := 46

/-- `strtol` stops at the bounds of `long`; `atoi` converts what it returns. -/
def atoi (text : Bytes) : Int :=
  let text := text.dropWhile isspace
  if text.head? = some minus then
    toInt (max (-2 ^ 63) (-(numeral 10 text.tail : Int)))
  else if text.head? = some plus then
    toInt (min (2 ^ 63 - 1) (numeral 10 text.tail : Int))
  else
    toInt (min (2 ^ 63 - 1) (numeral 10 text : Int))

/-- The base of a number as C writes them, and the text from its digits on. -/
def literal (text : Bytes) : Nat × Bytes :=
  if text.head? ≠ some 48 then (10, text)
  else if (text[1]? = some 120 ∨ text[1]? = some 88) ∧ text[2]?.any (isDigitOf 16) then
    (16, text.drop 2)
  else (8, text)

/-- Up to four parts, separated by dots. The last one is less than the `size` at
its place, each other one is an octet; `word` is made of those before. -/
def inet_aton (text : Bytes) (word : Nat) : List Nat → Option Nat
  | [] => none
  | size :: sizes =>
      if text.head?.any (isDigitOf 10) then
        let (base, text) := literal text
        let val := numeral base text
        let rest := text.dropWhile (isDigitOf base)
        if rest.head? = some dot then
          if val < 256 then inet_aton rest.tail (word + val * (size / 256)) sizes
          else none
        else if rest.head?.all isspace ∧ val < size then some (word + val)
        else none
      else none

def INADDR_NONE : Nat := 2 ^ 32 - 1

/-- The text ends before its first zero byte. -/
def inet_addr (text : Bytes) : Nat :=
  (inet_aton (text.takeWhile (· ≠ 0)) 0 [2 ^ 32, 2 ^ 24, 2 ^ 16, 2 ^ 8]).getD INADDR_NONE

structure InetAddress where
  sin_port : UInt16
  sin_addr : UInt32
  deriving DecidableEq, Repr

namespace InetAddress

/-- The constructor from a port, converted to `uint16_t`, and a text. -/
def new (port : Int) (ip : Bytes) : InetAddress where
  sin_port := UInt16.ofNat (port % 2 ^ 16).toNat
  sin_addr := UInt32.ofNat (inet_addr ip)

/-- The first octet is number 3. -/
def octet (address : InetAddress) (index : Nat) : Nat :=
  address.sin_addr.toNat / 256 ^ index % 256

def toIp (address : InetAddress) : Bytes :=
  decimalNat (address.octet 3) ++ dot :: decimalNat (address.octet 2) ++
    dot :: decimalNat (address.octet 1) ++ dot :: decimalNat (address.octet 0)

def toIpPort (address : InetAddress) : Bytes :=
  address.toIp ++ ascii ":" ++ decimalNat address.sin_port.toNat

def toPort (address : InetAddress) : UInt16 :=
  address.sin_port

theorem octet_lt (address : InetAddress) (index : Nat) : address.octet index < 256 :=
  Nat.mod_lt _ (by decide)

theorem not_mem_toIp {address : InetAddress} {character : UInt8} (notDot : character ≠ dot)
    (notDigit : isDigitOf 10 character = false) : character ∉ address.toIp := by
  simp [toIp, notDot, not_mem_decimalNat notDigit]

theorem length_toIp_le (address : InetAddress) : address.toIp.length ≤ 15 := by
  have each : ∀ index, (decimalNat (address.octet index)).length ≤ 3 := by
    intro index
    have octet := address.octet_lt index
    exact length_decimalNat_le (by decide) (by omega)
  have first := each 3
  have second := each 2
  have third := each 1
  have fourth := each 0
  simp only [toIp, List.length_append, List.length_cons]
  omega

theorem length_toIpPort_le (address : InetAddress) : address.toIpPort.length ≤ 21 := by
  have ip := address.length_toIp_le
  have port : (decimalNat address.sin_port.toNat).length ≤ 5 := by
    have bound := address.sin_port.toNat_lt
    exact length_decimalNat_le (by decide) (by omega)
  have colon : (ascii ":").length = 1 := rfl
  simp only [toIpPort, List.length_append, colon]
  omega

end InetAddress

theorem atoi_decimalNat_append {value : Nat} (small : value < 2 ^ 31) {rest : Bytes}
    (ends : ∀ character ∈ rest.head?, isDigitOf 10 character = false) :
    atoi (decimalNat value ++ rest) = value := by
  have number := numeral_decimalNat_append value ends
  obtain ⟨digit, more, printed⟩ := List.exists_cons_of_ne_nil (decimalNat_ne_nil value)
  have isDigit : isDigitOf 10 digit :=
    isDigitOf_decimalNat (show digit ∈ decimalNat value by simp [printed])
  rw [isDigitOf_ten_iff] at isDigit
  have noSpace : isspace digit = false := by
    simp only [isspace]
    grind
  have noMinus : digit ≠ minus := by
    rintro rfl
    exact absurd isDigit (by decide)
  have noPlus : digit ≠ plus := by
    rintro rfl
    exact absurd isDigit (by decide)
  rw [printed, List.cons_append] at number ⊢
  simp only [atoi, List.dropWhile_cons, noSpace, Bool.false_eq_true, if_false, List.head?_cons,
    Option.some.injEq, noMinus, noPlus, number]
  rw [min_eq_right (by omega)]
  exact toInt_of_lt (by omega) (by omega)

theorem inet_addr_decimalNat {value : Nat} (positive : 0 < value) (small : value < 2 ^ 32) :
    inet_addr (decimalNat value) = value := by
  have noZero : (decimalNat value).takeWhile (· ≠ 0) = decimalNat value := by
    rw [List.takeWhile_eq_self_iff]
    intro character membership
    have isDigit := isDigitOf_ten_iff.mp (isDigitOf_decimalNat membership)
    grind
  have number : numeral 10 (decimalNat value) = value := by
    have ends : ∀ character ∈ ([] : Bytes).head?, isDigitOf 10 character = false := by simp
    simpa using numeral_decimalNat_append value ends
  have nothing : (decimalNat value).dropWhile (isDigitOf 10) = [] := by
    rw [List.dropWhile_eq_nil_iff]
    exact fun character membership => isDigitOf_decimalNat membership
  have base : literal (decimalNat value) = (10, decimalNat value) := by
    rw [literal, if_pos (head?_decimalNat_ne_zero positive)]
  have begins : (decimalNat value).head?.any (isDigitOf 10) := by
    obtain ⟨digit, more, printed⟩ := List.exists_cons_of_ne_nil (decimalNat_ne_nil value)
    have isDigit : isDigitOf 10 digit :=
      isDigitOf_decimalNat (show digit ∈ decimalNat value by simp [printed])
    simpa [printed] using isDigit
  rw [inet_addr, noZero, inet_aton, if_pos begins]
  simp only [base, number, nothing, small, List.head?_nil, reduceCtorEq, Option.all_none,
    true_and, if_true, if_false, Nat.zero_add, Option.getD_some]

end GdRpc.Net
