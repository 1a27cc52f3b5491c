import GdRpc.Library.WireFormat

/-!
# `RpcHeader`

The message of `rpcHeader.proto`. The enumerations of proto3 are open: a
number without a name is kept as it is. All fields of a new message are at
their default, and those that are so are not serialized.
-/

namespace GdRpc.Rpc

open GdRpc.Library

inductive messageType where
  | Request
  | Response
  | Cancel
  | Heartbeat
  | unrecognized (number : BitVec 32) (unknown : 4 ≤ number.toNat)
  deriving DecidableEq, Repr

inductive ErrorCode where
  | NO_ERROR
  | WRONG_PROTO
  | NO_SERVICE
  | NO_METHOD
  | INVALID_REQUEST
  | INVALID_RESPONSE
  | TIMEOUT
  | unrecognized (number : BitVec 32) (unknown : 7 ≤ number.toNat)
  deriving DecidableEq, Repr

structure RpcHeader where
  msg_id_ : UInt32 := 0
  version_ : Bytes := []
  service_name_ : Bytes := []
  method_name_ : Bytes := []
  message_type_ : messageType := .Request
  error_code_ : ErrorCode := .NO_ERROR
  extendInfo_len_ : UInt32 := 0
  payload_len_ : UInt32 := 0
  deriving DecidableEq, Repr

namespace messageType

def number : messageType → BitVec 32
  | Request => 0
  | Response => 1
  | Cancel => 2
  | Heartbeat => 3
  | unrecognized number _ => number

def ofNumber (number : BitVec 32) : messageType :=
  if unknown : 4 ≤ number.toNat then
    unrecognized number unknown
  else
    match number.toNat with
    | 0 => Request
    | 1 => Response
    | 2 => Cancel
    | _ => Heartbeat

@[simp]
theorem ofNumber_number (type : messageType) : ofNumber type.number = type := by
  cases type with
  | Request | Response | Cancel | Heartbeat => rfl
  | unrecognized number unknown => exact dif_pos unknown

end messageType

namespace ErrorCode

def number : ErrorCode → BitVec 32
  | NO_ERROR => 0
  | WRONG_PROTO => 1
  | NO_SERVICE => 2
  | NO_METHOD => 3
  | INVALID_REQUEST => 4
  | INVALID_RESPONSE => 5
  | TIMEOUT => 6
  | unrecognized number _ => number

def ofNumber (number : BitVec 32) : ErrorCode :=
  if unknown : 7 ≤ number.toNat then
    unrecognized number unknown
  else
    match number.toNat with
    | 0 => NO_ERROR
    | 1 => WRONG_PROTO
    | 2 => NO_SERVICE
    | 3 => NO_METHOD
    | 4 => INVALID_REQUEST
    | 5 => INVALID_RESPONSE
    | _ => TIMEOUT

@[simp]
theorem ofNumber_number (code : ErrorCode) : ofNumber code.number = code := by
  cases code with
  | NO_ERROR | WRONG_PROTO | NO_SERVICE | NO_METHOD | INVALID_REQUEST
  | INVALID_RESPONSE | TIMEOUT => rfl
  | unrecognized number unknown => exact dif_pos unknown

end ErrorCode

namespace RpcHeader

open WireFormat

/-- An integer field, left out at zero. -/
def integerField (number value : Nat) : List Field :=
  if value = 0 then [] else [⟨number, .varint value⟩]

/-- A field of bytes, left out when empty. -/
def bytesField (number : Nat) (data : Bytes) : List Field :=
  if data = [] then [] else [⟨number, .bytes data⟩]

/-- An enumeration is an `int32`, which the wire extends to 64 bits. -/
def enumField (number : Nat) (value : BitVec 32) : List Field :=
  integerField number (value.signExtend 64).toNat

/-- The fields in the order in which they are serialized. -/
def fields (header : RpcHeader) : List Field :=
  integerField 1 header.msg_id_.toNat ++
  bytesField 2 header.version_ ++
  bytesField 3 header.service_name_ ++
  bytesField 4 header.method_name_ ++
  enumField 5 header.message_type_.number ++
  enumField 6 header.error_code_.number ++
  integerField 7 header.extendInfo_len_.toNat ++
  integerField 8 header.payload_len_.toNat

/-- Store a field met in parsing; other fields are not the header's. -/
def setField (header : RpcHeader) (field : Field) : RpcHeader :=
  match field.number, field.value with
  | 1, .varint value => { header with msg_id_ := UInt32.ofNat value }
  | 2, .bytes data => { header with version_ := data }
  | 3, .bytes data => { header with service_name_ := data }
  | 4, .bytes data => { header with method_name_ := data }
  | 5, .varint value =>
      { header with message_type_ := .ofNumber (BitVec.ofNat 32 value) }
  | 6, .varint value =>
      { header with error_code_ := .ofNumber (BitVec.ofNat 32 value) }
  | 7, .varint value => { header with extendInfo_len_ := UInt32.ofNat value }
  | 8, .varint value => { header with payload_len_ := UInt32.ofNat value }
  | _, _ => header

def SerializeAsString (header : RpcHeader) : Bytes :=
  encodeFields header.fields

/-- Into a fresh header; none if the bytes are not a sequence of fields. -/
def ParseFromArray (bytes : Bytes) : Option RpcHeader :=
  (readFields bytes).map fun fields => fields.foldl setField {}

/-- A field left out is at its default, so that leaving it out is the same as
storing it. -/
theorem foldl_integerField (number : Nat) {header : RpcHeader} {value : Nat}
    (isDefault : header.setField ⟨number, .varint 0⟩ = header) :
    (integerField number value).foldl setField header =
      header.setField ⟨number, .varint value⟩ := by
  unfold integerField
  split
  next zero => rw [zero, isDefault, List.foldl_nil]
  next => rfl

theorem foldl_bytesField (number : Nat) {header : RpcHeader} {data : Bytes}
    (isDefault : header.setField ⟨number, .bytes []⟩ = header) :
    (bytesField number data).foldl setField header =
      header.setField ⟨number, .bytes data⟩ := by
  unfold bytesField
  split
  next empty => rw [empty, isDefault, List.foldl_nil]
  next => rfl

theorem setWidth_signExtend (value : BitVec 32) :
    (value.signExtend 64).setWidth 32 = value := by
  ext index inside
  simp only [BitVec.getElem_setWidth, BitVec.getLsbD_signExtend, inside, if_true]
  simp [Nat.lt_trans inside (show 32 < 64 by decide), BitVec.getLsbD_eq_getElem inside]

theorem ParseFromArray_SerializeAsString (header : RpcHeader) :
    ParseFromArray header.SerializeAsString = some header := by
  rw [ParseFromArray, SerializeAsString, readFields_encodeFields, Option.map_some,
    Option.some.injEq]
  simp only [fields, List.foldl_append, enumField]
  rw [foldl_integerField 1, foldl_bytesField 2, foldl_bytesField 3, foldl_bytesField 4,
    foldl_integerField 5, foldl_integerField 6, foldl_integerField 7,
    foldl_integerField 8]
  · simp [setField, setWidth_signExtend]
  all_goals simp [setField, messageType.ofNumber, ErrorCode.ofNumber]

end RpcHeader

end GdRpc.Rpc
