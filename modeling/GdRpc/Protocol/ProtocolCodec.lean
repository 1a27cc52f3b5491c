import GdRpc.Net.Buffer
import GdRpc.Protocol.RpcHeader

/-!
# `ProtocolCodec`

Serializing and parsing a header are protobuf's. `RpcHeaderPtr` in `onMessage`
is read as a pointer to a fresh header. What lies behind the bytes of `buf`
and what the parser makes of a negative length is left open in `Undefined`.
-/

namespace GdRpc.Rpc

open GdRpc.Library

/-- `SerializeAsString` of a header, and the header after `ParseFromArray`
into a fresh one; whether that succeeded is not looked at. -/
structure HeaderFormat where
  SerializeAsString : RpcHeader → Bytes
  ParseFromArray : Bytes → RpcHeader
  inverse : ∀ header, ParseFromArray (SerializeAsString header) = header

/-- The format of proto3. -/
def HeaderFormat.proto3 : HeaderFormat where
  SerializeAsString := RpcHeader.SerializeAsString
  ParseFromArray bytes := (RpcHeader.ParseFromArray bytes).getD {}
  inverse header := by rw [RpcHeader.ParseFromArray_SerializeAsString, Option.getD_some]

structure Undefined where
  beyond : Nat → UInt8
  negative : Int → RpcHeader

structure ProtocolCodec where
  tag_ : Bytes
  format : HeaderFormat

/-- What `onMessage` works on: the input buffer of the connection and, for the
record, the headers and payloads `messageCallback_` was called with. -/
structure Receiver where
  inputBuffer_ : Net.Buffer
  callbacks : List (RpcHeader × Bytes)

/-- `messageCallback_(conn, header, receiveTime, payload)` -/
def Receiver.messageCallback (receiver : Receiver) (header : RpcHeader)
    (payload : Bytes) : Receiver :=
  { receiver with callbacks := receiver.callbacks ++ [(header, payload)] }

/-- `conn->retrieve(n)` -/
def Receiver.retrieve (receiver : Receiver) (n : Nat) : Receiver :=
  { receiver with inputBuffer_ := (receiver.inputBuffer_.retrieve n).2 }

namespace ProtocolCodec

def kHeaderLen : Nat := 4

def kChecksumLen : Nat := 4

def kMinMessageLen (codec : ProtocolCodec) : Nat :=
  codec.tag_.length + kChecksumLen

/-- The bytes `send` hands to `conn->send`; `payload` is the message
serialized. -/
def send (codec : ProtocolCodec) (header : RpcHeader) (payload : Bytes) : Bytes :=
  let head := codec.format.SerializeAsString header
  let len := toInt (head.length + payload.length : Nat)
  intBytes len ++ head ++ payload

/-- `count` bytes from `buf.data() + first` on. -/
def readRange (undefined : Undefined) (buf : Bytes) (first count : Nat) : Bytes :=
  (List.range count).map fun index =>
    buf.getD (first + index) (undefined.beyond (first + index))

/-- `header->ParseFromArray(buf.data() + sizeof headerLen, headerLen)` -/
def parseHeader (codec : ProtocolCodec) (undefined : Undefined) (buf : Bytes)
    (headerLen : Int) : RpcHeader :=
  if 0 ≤ headerLen then
    codec.format.ParseFromArray (readRange undefined buf 4 headerLen.toNat)
  else
    undefined.negative headerLen

/-- One turn of the loop in `onMessage`; none when the loop is left. -/
def loopBody (codec : ProtocolCodec) (undefined : Undefined) (receiver : Receiver) :
    Option Receiver :=
  let buf := receiver.inputBuffer_.readable
  let len := buf.length
  if codec.kMinMessageLen + kHeaderLen ≤ len then
    let headerLen := readInt buf
    if toUInt64 (kHeaderLen + headerLen) ≤ buf.length then
      let header := codec.parseHeader undefined buf headerLen
      let payloadLen := header.payload_len_.toNat
      let payload := readRange undefined buf (4 + kHeaderLen) payloadLen
      if toUInt64 (kHeaderLen + headerLen + payloadLen) ≤ buf.length then
        some ((receiver.messageCallback header payload).retrieve
          (toUInt64 (kHeaderLen + len + payloadLen)))
      else
        -- Nothing is consumed, and the loop goes on with the same bytes.
        some receiver
    else
      none
  else
    none

/-- `onMessage` returns with the receiver in the second state. -/
inductive OnMessage (codec : ProtocolCodec) : Receiver → Receiver → Prop where
  | leave (undefined : Undefined) {receiver : Receiver} :
      codec.loopBody undefined receiver = none → OnMessage codec receiver receiver
  | again (undefined : Undefined) {receiver next last : Receiver} :
      codec.loopBody undefined receiver = some next →
      OnMessage codec next last → OnMessage codec receiver last

end ProtocolCodec

end GdRpc.Rpc
