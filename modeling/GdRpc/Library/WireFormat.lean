import GdRpc.Library.Bytes

/-!
# The protobuf wire format

Varints, tagged fields and sequences of fields, for the two wire types proto3
uses for integers, enumerations and byte strings. Decoding a sequence needs no
bound: every field takes at least one byte.
-/

namespace GdRpc.Library

namespace WireFormat

/-- Groups of seven bits, the low ones first; `fuel` bounds their number. -/
def varintWith : Nat → Nat → Bytes
  | 0, value => [UInt8.ofNat value]
  | fuel + 1, value =>
      if value < 128 then
        [UInt8.ofNat value]
      else
        UInt8.ofNat (value % 128 + 128) :: varintWith fuel (value / 128)

def varint (value : Nat) : Bytes :=
  varintWith value value

/-- The number at the front and the bytes behind it. -/
def readVarint : Bytes → Option (Nat × Bytes)
  | [] => none
  | byte :: rest =>
      if byte.toNat < 128 then
        some (byte.toNat, rest)
      else
        (readVarint rest).map fun (value, rest) => (byte.toNat - 128 + 128 * value, rest)

theorem readVarint_small {value : Nat} (small : value < 128) (rest : Bytes) :
    readVarint (UInt8.ofNat value :: rest) = some (value, rest) := by
  have byte : (UInt8.ofNat value).toNat = value := by
    rw [UInt8.toNat_ofNat', Nat.mod_eq_of_lt (by omega)]
  rw [readVarint, byte, if_pos small]

theorem readVarint_varintWith (fuel value : Nat) (enough : value ≤ fuel)
    (rest : Bytes) : readVarint (varintWith fuel value ++ rest) = some (value, rest) := by
  induction fuel generalizing value with
  | zero => exact readVarint_small (by omega) rest
  | succ fuel inductionHypothesis =>
      rw [varintWith]
      split
      next small => exact readVarint_small small rest
      next large =>
        have byte : (UInt8.ofNat (value % 128 + 128)).toNat = value % 128 + 128 := by
          rw [UInt8.toNat_ofNat', Nat.mod_eq_of_lt (by omega)]
        rw [List.cons_append, readVarint, byte, if_neg (by omega),
          inductionHypothesis (value / 128) (by omega)]
        simp only [Option.map_some, Option.some.injEq, Prod.mk.injEq, and_true]
        omega

@[simp]
theorem readVarint_varint (value : Nat) (rest : Bytes) :
    readVarint (varint value ++ rest) = some (value, rest) :=
  readVarint_varintWith value value (Nat.le_refl value) rest

inductive Value where
  | varint (value : Nat)
  | bytes (data : Bytes)
  deriving DecidableEq, Repr

structure Field where
  number : Nat
  value : Value
  deriving DecidableEq, Repr

def Value.wireType : Value → Nat
  | .varint _ => 0
  | .bytes _ => 2

def Value.encode : Value → Bytes
  | .varint value => WireFormat.varint value
  | .bytes data => WireFormat.varint data.length ++ data

def Field.encode (field : Field) : Bytes :=
  varint (8 * field.number + field.value.wireType) ++ field.value.encode

/-- The value of the given wire type at the front. -/
def readValue (wireType : Nat) (bytes : Bytes) : Option (Value × Bytes) :=
  match wireType with
  | 0 => (readVarint bytes).map fun (value, rest) => (.varint value, rest)
  | 2 => (readVarint bytes).bind fun (length, rest) =>
      if length ≤ rest.length then some (.bytes (rest.take length), rest.drop length)
      else none
  | _ => none

def readField (bytes : Bytes) : Option (Field × Bytes) :=
  (readVarint bytes).bind fun (tag, rest) =>
    (readValue (tag % 8) rest).map fun (value, rest) => (⟨tag / 8, value⟩, rest)

theorem readValue_encode (value : Value) (rest : Bytes) :
    readValue value.wireType (value.encode ++ rest) = some (value, rest) := by
  cases value with
  | varint value => simp [Value.wireType, Value.encode, readValue]
  | bytes data => simp [Value.wireType, Value.encode, readValue]

@[simp]
theorem readField_encode (field : Field) (rest : Bytes) :
    readField (field.encode ++ rest) = some (field, rest) := by
  have wireType : field.value.wireType < 8 := by
    cases field.value <;> simp [Value.wireType]
  have low : (8 * field.number + field.value.wireType) % 8 = field.value.wireType := by
    omega
  have high : (8 * field.number + field.value.wireType) / 8 = field.number := by
    omega
  rw [readField, Field.encode, List.append_assoc, readVarint_varint, Option.bind_some]
  dsimp only
  rw [low, high, readValue_encode]
  rfl

/-- All fields, at most `fuel` of them. -/
def readFieldsWith : Nat → Bytes → Option (List Field)
  | 0, bytes => if bytes = [] then some [] else none
  | fuel + 1, bytes =>
      if bytes = [] then
        some []
      else
        (readField bytes).bind fun (field, rest) =>
          (readFieldsWith fuel rest).map fun fields => field :: fields

def readFields (bytes : Bytes) : Option (List Field) :=
  readFieldsWith bytes.length bytes

def encodeFields (fields : List Field) : Bytes :=
  (fields.map Field.encode).flatten

theorem encode_ne_nil (field : Field) : field.encode ≠ [] := by
  intro empty
  have read := readField_encode field []
  rw [empty] at read
  simp [readField, readVarint] at read

theorem readFieldsWith_encodeFields (fields : List Field) (fuel : Nat)
    (enough : fields.length ≤ fuel) :
    readFieldsWith fuel (encodeFields fields) = some fields := by
  induction fields generalizing fuel with
  | nil => cases fuel <;> simp [readFieldsWith, encodeFields]
  | cons field fields inductionHypothesis =>
      obtain ⟨fuel, rfl⟩ : ∃ less, fuel = less + 1 := ⟨fuel - 1, by
        simp only [List.length_cons] at enough
        omega⟩
      have nonempty : encodeFields (field :: fields) ≠ [] := by
        simp [encodeFields, encode_ne_nil]
      have tail := inductionHypothesis fuel (Nat.le_of_succ_le_succ enough)
      rw [readFieldsWith, if_neg nonempty, encodeFields, List.map_cons, List.flatten_cons,
        readField_encode, Option.bind_some]
      change (readFieldsWith fuel (encodeFields fields)).map _ = _
      rw [tail]
      rfl

theorem length_le_encodeFields (fields : List Field) :
    fields.length ≤ (encodeFields fields).length := by
  induction fields with
  | nil => exact Nat.zero_le _
  | cons field fields inductionHypothesis =>
      have positive := List.length_pos_iff.mpr (encode_ne_nil field)
      rw [encodeFields, List.map_cons, List.flatten_cons, List.length_append,
        List.length_cons]
      change _ ≤ _ + (encodeFields fields).length
      omega

theorem readFields_encodeFields (fields : List Field) :
    readFields (encodeFields fields) = some fields :=
  readFieldsWith_encodeFields fields _ (length_le_encodeFields fields)

/-- Two sequences of fields in front of the same bytes: one continues the
other. Where it ends, the bytes do not say. -/
theorem prefix_of_encodeFields {first second : List Field} {rest rest' : Bytes}
    (same : encodeFields first ++ rest = encodeFields second ++ rest') :
    first <+: second ∨ second <+: first := by
  induction first generalizing second with
  | nil => exact .inl List.nil_prefix
  | cons field first inductionHypothesis =>
      cases second with
      | nil => exact .inr List.nil_prefix
      | cons field' second =>
          simp only [encodeFields, List.map_cons, List.flatten_cons,
            List.append_assoc] at same
          have read := congrArg readField same
          rw [readField_encode, readField_encode] at read
          obtain ⟨rfl, tails⟩ := Prod.mk.inj (Option.some.inj read)
          rcases inductionHypothesis tails with shorter | longer
          · exact .inl (List.cons_prefix_cons.mpr ⟨rfl, shorter⟩)
          · exact .inr (List.cons_prefix_cons.mpr ⟨rfl, longer⟩)

/-- A sequence whose end can be told: its last field is the only one in it
that `last` holds of. -/
def Terminated (last : Field → Prop) (fields : List Field) : Prop :=
  ∃ front field, fields = front ++ [field] ∧ last field ∧
    ∀ other ∈ front, ¬ last other

theorem Terminated.eq_of_prefix {last : Field → Prop} {first second : List Field}
    (firstEnds : Terminated last first) (secondEnds : Terminated last second)
    (continued : first <+: second) : first = second := by
  obtain ⟨front, field, rfl, isLast, _⟩ := firstEnds
  obtain ⟨front', field', rfl, _, others⟩ := secondEnds
  rcases List.prefix_concat_iff.mp continued with same | inside
  · exact same
  · have membership : field ∈ front' := inside.subset (by simp)
    exact absurd isLast (others field membership)

/-- Bytes behind a terminated sequence of fields can be told from it. -/
theorem Terminated.append_inj {last : Field → Prop} {first second : List Field}
    {rest rest' : Bytes} (firstEnds : Terminated last first)
    (secondEnds : Terminated last second)
    (same : encodeFields first ++ rest = encodeFields second ++ rest') :
    first = second ∧ rest = rest' := by
  have equal : first = second := by
    rcases prefix_of_encodeFields same with continued | continued
    · exact firstEnds.eq_of_prefix secondEnds continued
    · exact (secondEnds.eq_of_prefix firstEnds continued).symm
  subst equal
  exact ⟨rfl, List.append_cancel_left same⟩

end WireFormat

end GdRpc.Library
