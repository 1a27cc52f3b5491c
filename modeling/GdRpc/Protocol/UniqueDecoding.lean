import GdRpc.Protocol.Framing

/-!
# Unique decoding of the stream

The length in front of a frame finds its end. Inside the frame nothing marks
where the header stops, but its last field, the method of a request or the
message type of a response, is one that no header sent goes on after.
-/

namespace GdRpc.Rpc

open GdRpc.Library GdRpc.Library.WireFormat

namespace RpcHeader

/-- `method_name_` and `message_type_`. -/
def LastField (field : Field) : Prop :=
  field.number = 4 ∨ field.number = 5

@[simp]
theorem integerField_zero (number : Nat) : integerField number 0 = [] := rfl

@[simp]
theorem bytesField_nil (number : Nat) : bytesField number [] = [] := rfl

theorem not_lastField_integerField {value : Nat} {field : Field}
    (membership : field ∈ integerField 1 value) : ¬ LastField field := by
  unfold integerField at membership
  split at membership
  next => cases membership
  next =>
    rw [List.mem_singleton.mp membership]
    simp [LastField]

theorem fields_requestHeader (id : Int) {service method : Bytes}
    (someService : service ≠ []) (someMethod : method ≠ []) :
    (RpcChannelCli.requestHeader id service method).fields =
      (integerField 1 (UInt32.ofInt id).toNat ++ [⟨3, .bytes service⟩]) ++
        [⟨4, .bytes method⟩] := by
  have serviceField : bytesField 3 service = [⟨3, .bytes service⟩] := if_neg someService
  have methodField : bytesField 4 method = [⟨4, .bytes method⟩] := if_neg someMethod
  simp [fields, RpcChannelCli.requestHeader, enumField, serviceField, methodField,
    messageType.number, ErrorCode.number]

theorem fields_responseHeader (id : Int) :
    (RpcServer.responseHeader id).fields =
      integerField 1 (UInt32.ofInt id).toNat ++ [⟨5, .varint 1⟩] := by
  have typeField : enumField 5 messageType.Response.number = [⟨5, .varint 1⟩] := rfl
  simp [fields, RpcServer.responseHeader, typeField]
  simp [enumField, ErrorCode.number]

end RpcHeader

namespace ProtocolCodec

open RpcHeader

/-- A pair that `CallMethod` or `SendRpcResponse` gives to `send`. A descriptor
of protobuf has a name, and protobuf serializes nothing of 2 GB or more. -/
structure Sent (pair : RpcHeader × Bytes) : Prop where
  filled : (∃ id service method, service ≠ [] ∧ method ≠ [] ∧
    pair.1 = RpcChannelCli.requestHeader id service method) ∨
    ∃ id, pair.1 = RpcServer.responseHeader id
  header : pair.1.SerializeAsString.length < 2 ^ 31
  payload : pair.2.length < 2 ^ 31

theorem Sent.terminated {pair : RpcHeader × Bytes} (sent : Sent pair) :
    Terminated LastField pair.1.fields := by
  rcases sent.filled with
    ⟨id, service, method, someService, someMethod, header⟩ | ⟨id, header⟩
  · rw [header, fields_requestHeader id someService someMethod]
    refine ⟨_, _, rfl, .inl rfl, ?_⟩
    intro other membership
    rcases List.mem_append.mp membership with number | name
    · exact not_lastField_integerField number
    · rw [List.mem_singleton.mp name]
      simp [LastField]
  · rw [header, fields_responseHeader]
    refine ⟨_, _, rfl, .inr rfl, ?_⟩
    intro other membership
    exact not_lastField_integerField membership

theorem Sent.frame_inj {codec : ProtocolCodec} {first second : RpcHeader × Bytes}
    {rest rest' : Bytes}
    (documented : codec.format.SerializeAsString = RpcHeader.SerializeAsString)
    (firstSent : Sent first) (secondSent : Sent second)
    (same : codec.send first.1 first.2 ++ rest = codec.send second.1 second.2 ++ rest') :
    first.1.SerializeAsString ++ first.2 = second.1.SerializeAsString ++ second.2 ∧
      rest = rest' := by
  have firstHeader := firstSent.header
  have firstPayload := firstSent.payload
  have secondHeader := secondSent.header
  have secondPayload := secondSent.payload
  unfold send at same
  simp only [documented, List.append_assoc] at same
  have lengths := congrArg readInt same
  rw [readInt_intBytes, readInt_intBytes, toInt_toInt, toInt_toInt] at lengths
  have equal := toInt_inj (by omega) (by omega) lengths
  rw [equal] at same
  have bodies := List.append_cancel_left same
  simp only [← List.append_assoc] at bodies
  exact List.append_inj bodies (by simpa using equal)

theorem Sent.body_inj {first second : RpcHeader × Bytes} (firstSent : Sent first)
    (secondSent : Sent second)
    (same : first.1.SerializeAsString ++ first.2 =
      second.1.SerializeAsString ++ second.2) :
    first.1.SerializeAsString = second.1.SerializeAsString ∧ first.2 = second.2 := by
  obtain ⟨fields, payload⟩ := firstSent.terminated.append_inj secondSent.terminated same
  exact ⟨congrArg encodeFields fields, payload⟩

/-- If two sequences of pairs sent are the same stream of bytes, they have the
same length and the same bytes of header and payload at every place. The bytes
of a header are those that proto3 documents. -/
theorem stream_uniquely_decodable (codec : ProtocolCodec)
    (documented : codec.format.SerializeAsString = RpcHeader.SerializeAsString)
    {first second : List (RpcHeader × Bytes)}
    (firstSent : ∀ pair ∈ first, Sent pair) (secondSent : ∀ pair ∈ second, Sent pair)
    (same : codec.stream first = codec.stream second) :
    first.length = second.length ∧
      first.map (fun pair => (pair.1.SerializeAsString, pair.2)) =
        second.map (fun pair => (pair.1.SerializeAsString, pair.2)) := by
  induction first generalizing second with
  | nil =>
      cases second with
      | nil => exact ⟨rfl, rfl⟩
      | cons pair second => exact absurd same.symm (stream_ne_nil (List.cons_ne_nil _ _))
  | cons pair first inductionHypothesis =>
      cases second with
      | nil => exact absurd same (stream_ne_nil (List.cons_ne_nil _ _))
      | cons pair' second =>
          obtain ⟨pairSent, firstSent⟩ := List.forall_mem_cons.mp firstSent
          obtain ⟨pairSent', secondSent⟩ := List.forall_mem_cons.mp secondSent
          simp only [stream, List.map_cons, List.flatten_cons] at same
          obtain ⟨bodies, tails⟩ := Sent.frame_inj documented pairSent pairSent' same
          obtain ⟨header, payload⟩ := pairSent.body_inj pairSent' bodies
          obtain ⟨length, rest⟩ := inductionHypothesis firstSent secondSent tails
          exact ⟨congrArg (· + 1) length, by
            rw [List.map_cons, List.map_cons, header, payload, rest]⟩

/-- Two calls whose numbers agree in the 32 bits of the header, each with a
response behind it. -/
theorem stream_uniquely_decodable_wrapped_id :
    let request := fun id => RpcChannelCli.requestHeader id (ascii "S") (ascii "m")
    let first : List (RpcHeader × Bytes) :=
      [(request 1, [1, 2]), (RpcServer.responseHeader 0, [])]
    let second : List (RpcHeader × Bytes) :=
      [(request (1 + 2 ^ 32), [1, 2]), (RpcServer.responseHeader 0, [])]
    first.length = second.length ∧
      first.map (fun pair => (pair.1.SerializeAsString, pair.2)) =
        second.map (fun pair => (pair.1.SerializeAsString, pair.2)) := by
  intro request first second
  have requestSent : ∀ id ∈ [1, 1 + 2 ^ 32], Sent (request id, [1, 2]) := by
    intro id membership
    refine ⟨.inl ⟨id, _, _, by decide, by decide, rfl⟩, ?_, show 2 < 2 ^ 31 by decide⟩
    revert id
    decide
  have responseSent : Sent (RpcServer.responseHeader 0, []) :=
    ⟨.inr ⟨0, rfl⟩, by decide, by decide⟩
  have tailSent : ∀ pair ∈ [(RpcServer.responseHeader 0, ([] : Bytes))], Sent pair := by
    simpa using responseSent
  apply stream_uniquely_decodable ⟨ascii "v1.0", .proto3⟩ rfl
  · exact List.forall_mem_cons.mpr ⟨requestSent 1 (by decide), tailSent⟩
  · exact List.forall_mem_cons.mpr ⟨requestSent (1 + 2 ^ 32) (by decide), tailSent⟩
  · decide

end ProtocolCodec

end GdRpc.Rpc
