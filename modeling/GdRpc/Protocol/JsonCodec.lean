import GdRpc.Library.Bytes

/-!
# `jsonCodec.hpp`

A struct with a schema is written member by member into a JSON object and read
back member by member. The schema says where each member is and what its name
is; the member has a serializer of its own, which may again be that of a struct
with a schema.
-/

namespace GdRpc.Protocol

open GdRpc.Library

/-- What is used of `basic_json`: an empty value, `j[name] = value`,
`j.find(name)` with `none` for `j.end()`, and `j.at(name)`. -/
structure BasicJson (Json Error : Type) where
  null : Json
  set : Json → Bytes → Json → Json
  find : Json → Bytes → Option Json
  at_ : Json → Bytes → Except Error Json

namespace BasicJson

variable {Json Error : Type}

/-- A value made by assignments to members of an empty one. -/
inductive Written (json : BasicJson Json Error) : Json → Prop where
  | null : Written json json.null
  | set {j : Json} (written : Written json j) (name : Bytes) (value : Json) :
      Written json (json.set j name value)

/-- What the library says about them: an assignment replaces or adds one member,
and `at` throws for a missing member. -/
structure Documented (json : BasicJson Json Error) : Prop where
  find_set : ∀ {j}, json.Written j → ∀ name value key,
    json.find (json.set j name value) key =
      if key = name then some value else json.find j key
  at_of_find : ∀ {j name value}, json.find j name = some value → json.at_ j name = .ok value
  at_missing : ∀ {j name}, json.find j name = none → ∃ error, json.at_ j name = .error error

end BasicJson

/-- `to_json` and `from_json`, which writes into a value that is there: the
exception it throws, if any, and the value afterwards. -/
structure Serializer (Json Error Value : Type) where
  to_json : Value → Json
  from_json : Json → Value → Option Error × Value

/-- What has been written is read back, whatever was there before. -/
def Serializer.RoundTrips {Json Error Value : Type} (serializer : Serializer Json Error Value) :
    Prop :=
  ∀ value old, serializer.from_json (serializer.to_json value) old = (none, value)

/-- `(&Struct::field, field_name)` with what the compiler knows of the member:
its type, its serializer, and whether it is a `unique_ptr`. -/
structure FieldSchema (Json Error Struct : Type) where
  Value : Type
  name : Bytes
  get : Struct → Value
  set : Value → Struct → Struct
  get_set : ∀ value struct, get (set value struct) = value
  is_optional : Bool
  serializer : Serializer Json Error Value

namespace FieldSchema

variable {Json Error Struct : Type}

/-- Different members of the struct. -/
def Apart (first second : FieldSchema Json Error Struct) : Prop :=
  (∀ value struct, second.get (first.set value struct) = second.get struct) ∧
    ∀ value struct, first.get (second.set value struct) = first.get struct

/-- The body of the loop in `from_json`, for the member in its present state. -/
def read (json : BasicJson Json Error) (field : FieldSchema Json Error Struct) (j : Json)
    (old : field.Value) : Option Error × field.Value :=
  if field.is_optional ∧ (json.find j field.name).isNone then
    (none, old)
  else
    match json.at_ j field.name with
    | .error error => (some error, old)
    | .ok member => field.serializer.from_json member old

end FieldSchema

section Struct

variable {Json Error Struct : Type} (json : BasicJson Json Error)

/-- `to_json` of a struct. -/
def to_json (schema : List (FieldSchema Json Error Struct)) (value : Struct) : Json :=
  schema.foldl
    (fun j field => json.set j field.name (field.serializer.to_json (field.get value))) json.null

/-- `from_json` of a struct. -/
def from_json (j : Json) : List (FieldSchema Json Error Struct) → Struct → Option Error × Struct
  | [], value => (none, value)
  | field :: schema, value =>
      match field.read json j (field.get value) with
      | (some error, member) => (some error, field.set member value)
      | (none, member) => from_json j schema (field.set member value)

/-- `adl_serializer` of a struct with a schema. -/
def adl_serializer (schema : List (FieldSchema Json Error Struct)) :
    Serializer Json Error Struct where
  to_json := to_json json schema
  from_json j value := from_json json j schema value

variable {json}

/-! ## Reading -/

theorem from_json_frame {schema : List (FieldSchema Json Error Struct)}
    {field : FieldSchema Json Error Struct} (apart : ∀ other ∈ schema, field.Apart other)
    (j : Json) (value : Struct) :
    field.get (from_json json j schema value).2 = field.get value := by
  induction schema generalizing value with
  | nil => rfl
  | cons other schema inductionHypothesis =>
      have kept := (apart other List.mem_cons_self).2
      unfold from_json
      rcases other.read json j (other.get value) with ⟨error, member⟩
      cases error with
      | some error => exact kept member value
      | none =>
          dsimp only
          rw [inductionHypothesis fun later membership =>
            apart later (List.mem_cons_of_mem _ membership)]
          exact kept member value

/-- `from_json` reads the members in the order of the schema up to the first
that throws: the ones before it have been read, that one is as its serializer
left it, the ones after it are as they were. -/
theorem from_json_reads {schema : List (FieldSchema Json Error Struct)}
    (apart : schema.Pairwise FieldSchema.Apart) (j : Json) (before : Struct)
    {error : Option Error} {after : Struct}
    (result : from_json json j schema before = (error, after)) :
    ∃ done rest, schema = done ++ rest ∧
      (∀ field ∈ done, field.read json j (field.get before) = (none, field.get after)) ∧
      match error with
      | none => rest = []
      | some error => ∃ field later, rest = field :: later ∧
          field.read json j (field.get before) = (some error, field.get after) ∧
          ∀ other ∈ later, other.get after = other.get before := by
  induction schema generalizing before with
  | nil =>
      cases result
      exact ⟨[], [], rfl, by simp, rfl⟩
  | cons field schema inductionHypothesis =>
      obtain ⟨fromField, later⟩ := List.pairwise_cons.mp apart
      unfold from_json at result
      rcases read : field.read json j (field.get before) with ⟨thrown, member⟩
      rw [read] at result
      cases thrown with
      | some thrown =>
          cases result
          refine ⟨[], field :: schema, rfl, by simp, field, schema, rfl, ?_, ?_⟩
          · rw [read, field.get_set]
          · intro other membership
            exact (fromField other membership).1 member before
      | none =>
          dsimp only at result
          obtain ⟨done, rest, split, reads, ends⟩ := inductionHypothesis later _ result
          have untouched : ∀ other ∈ schema,
              other.get (field.set member before) = other.get before :=
            fun other membership => (fromField other membership).1 member before
          have kept : field.get after = member := by
            have frame : field.get (from_json json j schema (field.set member before)).2 =
                field.get (field.set member before) :=
              from_json_frame fromField j (field.set member before)
            rw [result, field.get_set] at frame
            exact frame
          refine ⟨field :: done, rest, by rw [split]; rfl, ?_, ?_⟩
          · intro other membership
            rcases List.mem_cons.mp membership with rfl | inDone
            · rw [read, kept]
            · have inSchema : other ∈ schema := by
                rw [split]
                exact List.mem_append_left _ inDone
              rw [← untouched other inSchema]
              exact reads other inDone
          · cases error with
            | none => exact ends
            | some error =>
                obtain ⟨next, later, rfl, thrown, left⟩ := ends
                have inSchema : ∀ other ∈ next :: later, other ∈ schema := by
                  intro other membership
                  rw [split]
                  exact List.mem_append_right _ membership
                refine ⟨next, later, rfl, ?_, ?_⟩
                · rw [← untouched next (inSchema next List.mem_cons_self)]
                  exact thrown
                · intro other membership
                  rw [left other membership,
                    untouched other (inSchema other (List.mem_cons_of_mem _ membership))]

theorem read_of_find (documented : json.Documented) {field : FieldSchema Json Error Struct}
    {j member : Json} (here : json.find j field.name = some member) (old : field.Value) :
    field.read json j old = field.serializer.from_json member old := by
  simp [FieldSchema.read, here, documented.at_of_find here]

/-- What becomes of one member, from the object: `error` is what it throws. -/
def FieldSchema.Takes (json : BasicJson Json Error) (field : FieldSchema Json Error Struct)
    (j : Json) (error : Option Error) (old new : field.Value) : Prop :=
  match json.find j field.name with
  | some member => field.serializer.from_json member old = (error, new)
  | none =>
      new = old ∧ match error with
        | none => field.is_optional = true
        | some error => field.is_optional = false ∧ json.at_ j field.name = .error error

theorem takes_of_missing (documented : json.Documented) {field : FieldSchema Json Error Struct}
    {j : Json} (missing : json.find j field.name = none) {old new : field.Value}
    {error : Option Error} (read : field.read json j old = (error, new)) :
    field.Takes json j error old new := by
  obtain ⟨thrown, throws⟩ := documented.at_missing missing
  simp only [FieldSchema.Takes, missing]
  cases optional : field.is_optional with
  | true =>
      have ignored : field.read json j old = (none, old) := by
        simp [FieldSchema.read, optional, missing]
      obtain ⟨rfl, rfl⟩ := Prod.mk.inj (ignored.symm.trans read)
      exact ⟨rfl, rfl⟩
  | false =>
      have failed : field.read json j old = (some thrown, old) := by
        simp [FieldSchema.read, optional, throws]
      obtain ⟨rfl, rfl⟩ := Prod.mk.inj (failed.symm.trans read)
      exact ⟨rfl, rfl, throws⟩

theorem takes_of_read (documented : json.Documented) {field : FieldSchema Json Error Struct}
    {j : Json} {old new : field.Value} {error : Option Error}
    (read : field.read json j old = (error, new)) : field.Takes json j error old new := by
  cases here : json.find j field.name with
  | some member =>
      simp only [FieldSchema.Takes, here]
      exact (read_of_find documented here old).symm.trans read
  | none => exact takes_of_missing documented here read

/-- Of any JSON value and any schema of different members, the members that come
first are taken from it, up to one that throws. That one is as its serializer
left it, and every later one is untouched. -/
theorem from_json_takes_object (documented : json.Documented)
    {schema : List (FieldSchema Json Error Struct)} (apart : schema.Pairwise FieldSchema.Apart)
    (j : Json) (before : Struct) {error : Option Error} {after : Struct}
    (result : from_json json j schema before = (error, after)) :
    ∃ done rest, schema = done ++ rest ∧
      (∀ field ∈ done, field.Takes json j none (field.get before) (field.get after)) ∧
      match error with
      | none => rest = []
      | some error => ∃ field later, rest = field :: later ∧
          field.Takes json j (some error) (field.get before) (field.get after) ∧
          ∀ other ∈ later, other.get after = other.get before := by
  obtain ⟨done, rest, split, reads, ends⟩ := from_json_reads apart j before result
  refine ⟨done, rest, split, ?_, ?_⟩
  · intro field membership
    exact takes_of_read documented (reads field membership)
  · cases error with
    | none => exact ends
    | some error =>
        obtain ⟨field, later, start, thrown, left⟩ := ends
        exact ⟨field, later, start, takes_of_read documented thrown, left⟩

/-! ## Writing -/

theorem find_written (documented : json.Documented)
    {schema : List (FieldSchema Json Error Struct)} (value : Struct) {j : Json}
    (written : json.Written j) (distinct : (schema.map FieldSchema.name).Nodup) :
    (∀ key ∉ schema.map FieldSchema.name,
      json.find (schema.foldl (fun j field =>
        json.set j field.name (field.serializer.to_json (field.get value))) j) key =
      json.find j key) ∧
    ∀ field ∈ schema,
      json.find (schema.foldl (fun j field =>
        json.set j field.name (field.serializer.to_json (field.get value))) j) field.name =
      some (field.serializer.to_json (field.get value)) := by
  induction schema generalizing j with
  | nil => simp
  | cons first schema inductionHypothesis =>
      obtain ⟨fresh, others⟩ := List.nodup_cons.mp distinct
      obtain ⟨elsewhere, here⟩ := inductionHypothesis
        (written.set first.name (first.serializer.to_json (first.get value))) others
      constructor
      · intro key absent
        rw [List.map_cons, List.mem_cons, not_or] at absent
        rw [List.foldl_cons, elsewhere key absent.2, documented.find_set written,
          if_neg absent.1]
      · intro field membership
        rw [List.foldl_cons]
        rcases List.mem_cons.mp membership with rfl | later
        · rw [elsewhere field.name fresh, documented.find_set written, if_pos rfl]
        · exact here field later

/-- If every member's own serializer reads back what it has written, so does
that of the struct, which thus may be a member in its turn; members of other
names, and those that were there before, make no difference. -/
theorem adl_serializer_roundTrips (documented : json.Documented)
    {schema : List (FieldSchema Json Error Struct)}
    (distinct : (schema.map FieldSchema.name).Nodup) (apart : schema.Pairwise FieldSchema.Apart)
    (members : ∀ field ∈ schema, field.serializer.RoundTrips)
    (whole : ∀ first second : Struct,
      (∀ field ∈ schema, field.get first = field.get second) → first = second) :
    (adl_serializer json schema).RoundTrips ∧
      ∀ j value old,
        (∀ field ∈ schema, json.find j field.name =
          json.find ((adl_serializer json schema).to_json value) field.name) →
        (adl_serializer json schema).from_json j old = (none, value) := by
  have extended : ∀ j value old,
      (∀ field ∈ schema, json.find j field.name =
        json.find ((adl_serializer json schema).to_json value) field.name) →
      (adl_serializer json schema).from_json j old = (none, value) := by
    intro j value old agrees
    have reads : ∀ field ∈ schema, ∀ old, field.read json j old = (none, field.get value) := by
      intro field membership old
      have here := (find_written documented value .null distinct).2 field membership
      have found := (agrees field membership).trans here
      rw [read_of_find documented found]
      exact members field membership (field.get value) old
    rcases result : from_json json j schema old with ⟨error, after⟩
    obtain ⟨done, rest, rfl, read, ends⟩ := from_json_reads apart j old result
    cases error with
    | some error =>
        obtain ⟨field, later, rfl, thrown, -⟩ := ends
        rw [reads field (List.mem_append_right _ List.mem_cons_self)] at thrown
        cases thrown
    | none =>
        obtain rfl : rest = [] := ends
        have same : after = value := by
          apply whole
          intro field membership
          rw [List.append_nil] at membership
          have here := read field membership
          rw [reads field (List.mem_append_left _ membership)] at here
          exact (congrArg Prod.snd here).symm
        change from_json json j (done ++ []) old = _
        rw [result, same]
  exact ⟨fun value old => extended _ value old fun _ _ => rfl, extended⟩

end Struct

/-! ## The struct of the example -/

/-- JSON values as far as the example needs them; of two members with one name
the first counts. -/
inductive Value where
  | null
  | number (value : Nat)
  | string (value : Bytes)
  | object (members : List (Bytes × Value))

namespace Value

def find : Value → Bytes → Option Value
  | .object members, key => members.lookup key
  | _, _ => none

def set : Value → Bytes → Value → Value
  | .object members, key, value => .object ((key, value) :: members)
  | _, key, value => .object [(key, value)]

/-- The texts of `out_of_range.403` and of `type_error.304`. -/
def at_ (j : Value) (key : Bytes) : Except Bytes Value :=
  match j with
  | .object members =>
      match members.lookup key with
      | some value => .ok value
      | none => .error (ascii "key '" ++ key ++ ascii "' not found")
  | _ => .error (ascii "cannot use at()")

def json : BasicJson Value Bytes where
  null := .null
  set := set
  find := find
  at_ := at_

theorem json_documented : json.Documented where
  find_set := by
    intro j written name value key
    have shape : j = .null ∨ ∃ members, j = .object members := by
      cases written with
      | null => exact Or.inl rfl
      | @set j written name value => cases j <;> exact Or.inr ⟨_, rfl⟩
    rcases shape with rfl | ⟨members, rfl⟩ <;>
    · by_cases same : key = name
      · subst same
        simp [json, set, find]
      · have differs : (key == name) = false := beq_false_of_ne same
        simp [json, set, find, List.lookup_cons, same, differs]
  at_of_find := by
    intro j name value found
    cases j with
    | object members => simp only [json, find, at_] at found ⊢; rw [found]
    | _ => cases found
  at_missing := by
    intro j name missing
    cases j with
    | object members =>
        simp only [json, find, at_] at missing ⊢
        rw [missing]
        exact ⟨_, rfl⟩
    | _ => exact ⟨_, rfl⟩

/-- Unsigned integers of some width. -/
def unsigned {Number : Type} (toNat : Number → Nat) (ofNat : Nat → Number) :
    Serializer Value Bytes Number where
  to_json number := .number (toNat number)
  from_json j old :=
    match j with
    | .number value => (none, ofNat value)
    | _ => (some (ascii "type must be number"), old)

def text : Serializer Value Bytes Bytes where
  to_json := .string
  from_json j old :=
    match j with
    | .string value => (none, value)
    | _ => (some (ascii "type must be string"), old)

theorem unsigned_roundTrips {Number : Type} {toNat : Number → Nat} {ofNat : Nat → Number}
    (inverse : ∀ number, ofNat (toNat number) = number) :
    (unsigned toNat ofNat).RoundTrips := by
  intro number old
  simp [unsigned, inverse]

end Value

/-- The enumerations are one byte wide. -/
structure MessageInfo where
  msg_id_ : UInt32
  service_name_ : Bytes
  method_name_ : Bytes
  message_Kind_ : UInt8
  error_code_ : UInt8
  extendInfo_len_ : UInt32
  deriving DecidableEq

namespace MessageInfo

/-- `DEFINE_SAME_STRUCT_FIELD` -/
def field {Member : Type} (name : Bytes) (get : MessageInfo → Member)
    (set : Member → MessageInfo → MessageInfo)
    (get_set : ∀ value struct, get (set value struct) = value)
    (serializer : Serializer Value Bytes Member) : FieldSchema Value Bytes MessageInfo where
  Value := Member
  name := name
  get := get
  set := set
  get_set := get_set
  is_optional := false
  serializer := serializer

def schema : List (FieldSchema Value Bytes MessageInfo) :=
  [field (ascii "msg_id_") msg_id_ (fun value info => { info with msg_id_ := value })
      (fun _ _ => rfl) (Value.unsigned UInt32.toNat UInt32.ofNat),
    field (ascii "service_name_") service_name_
      (fun value info => { info with service_name_ := value })
      (fun _ _ => rfl) Value.text,
    field (ascii "method_name_") method_name_
      (fun value info => { info with method_name_ := value })
      (fun _ _ => rfl) Value.text,
    field (ascii "message_Kind_") message_Kind_
      (fun value info => { info with message_Kind_ := value })
      (fun _ _ => rfl) (Value.unsigned UInt8.toNat UInt8.ofNat),
    field (ascii "error_code_") error_code_
      (fun value info => { info with error_code_ := value })
      (fun _ _ => rfl) (Value.unsigned UInt8.toNat UInt8.ofNat),
    field (ascii "extendInfo_len_") extendInfo_len_
      (fun value info => { info with extendInfo_len_ := value })
      (fun _ _ => rfl) (Value.unsigned UInt32.toNat UInt32.ofNat)]

theorem schema_apart : schema.Pairwise FieldSchema.Apart := by
  simp [schema, field, FieldSchema.Apart]

theorem schema_distinct : (schema.map FieldSchema.name).Nodup := by
  decide

theorem schema_whole (first second : MessageInfo)
    (same : ∀ field ∈ schema, field.get first = field.get second) : first = second := by
  cases first
  cases second
  simpa [schema, field] using same

theorem schema_members : ∀ field ∈ schema, field.serializer.RoundTrips := by
  have word := Value.unsigned_roundTrips (fun number : UInt32 => UInt32.ofNat_toNat)
  have byte := Value.unsigned_roundTrips (fun number : UInt8 => UInt8.ofNat_toNat)
  have text : Value.text.RoundTrips := fun _ _ => rfl
  intro member membership
  simp only [schema, List.mem_cons, List.not_mem_nil, or_false] at membership
  rcases membership with rfl | rfl | rfl | rfl | rfl | rfl
  · exact word
  · exact text
  · exact text
  · exact byte
  · exact byte
  · exact word

theorem adl_serializer_roundTrips_messageInfo :
    (adl_serializer Value.json schema).RoundTrips ∧
      ∀ j value old,
        (∀ field ∈ schema, Value.json.find j field.name =
          Value.json.find ((adl_serializer Value.json schema).to_json value) field.name) →
        (adl_serializer Value.json schema).from_json j old = (none, value) :=
  adl_serializer_roundTrips Value.json_documented schema_distinct schema_apart schema_members
    schema_whole

/-- A request without a `service_name_`: the identifier has been read, and the
rest is as it was. -/
theorem from_json_takes_object_messageInfo :
    let j := Value.object [(ascii "method_name_", .string []), (ascii "msg_id_", .number 7)]
    let before : MessageInfo := ⟨0, ascii "old", ascii "old", 1, 1, 1⟩
    let after : MessageInfo := ⟨7, ascii "old", ascii "old", 1, 1, 1⟩
    ∃ done rest, schema = done ++ rest ∧
      (∀ field ∈ done, field.Takes Value.json j none (field.get before) (field.get after)) ∧
      ∃ field later, rest = field :: later ∧
        field.Takes Value.json j (some (ascii "key 'service_name_' not found"))
          (field.get before) (field.get after) ∧
        ∀ other ∈ later, other.get after = other.get before := by
  intro j before after
  have outcome : from_json Value.json j schema before =
      (some (ascii "key 'service_name_' not found"), after) := rfl
  exact from_json_takes_object Value.json_documented schema_apart j before outcome

end MessageInfo

end GdRpc.Protocol
