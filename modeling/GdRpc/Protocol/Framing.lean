import GdRpc.Protocol.ProtocolCodec
import GdRpc.Rpc.RpcChannelCli
import GdRpc.Rpc.RpcServer

/-!
# Frames and the stream they are read from

`send` never sets `payload_len_`, and `onMessage` asks `retrieve` for the
whole readable length and more. As `retrieve` refuses to take out what is not
there, no byte that has arrived ever leaves the input buffer completely.
-/

namespace GdRpc.Rpc

open GdRpc.Library

namespace ProtocolCodec

/-- A header as `CallMethod` or `SendRpcResponse` fills it in. -/
def Filled (header : RpcHeader) : Prop :=
  (∃ id service method, header = RpcChannelCli.requestHeader id service method) ∨
  ∃ id, header = RpcServer.responseHeader id

/-- The stream of bytes written for a sequence of headers and payloads. -/
def stream (codec : ProtocolCodec) (pairs : List (RpcHeader × Bytes)) : Bytes :=
  (pairs.map fun pair => codec.send pair.1 pair.2).flatten

/-- A chunk of the stream enters the input buffer. -/
def arrive (receiver : Receiver) (chunk : Bytes) : Receiver :=
  { receiver with inputBuffer_ := (receiver.inputBuffer_.readFd (.delivered chunk)).2.2 }

/-- The chunks arrive one after the other and `onMessage` returns after each. -/
inductive Deliver (codec : ProtocolCodec) : Receiver → List Bytes → Receiver → Prop where
  | nil {receiver : Receiver} : Deliver codec receiver [] receiver
  | cons {receiver middle last : Receiver} {chunk : Bytes} {chunks : List Bytes} :
      codec.OnMessage (arrive receiver chunk) middle →
      Deliver codec middle chunks last →
      Deliver codec receiver (chunk :: chunks) last

def start : Receiver where
  inputBuffer_ := .ofSize Net.Buffer.kInitialSize
  callbacks := []

/-- `onMessage` returns after every chunk, the callback has been called once
for each pair, in order, and the input buffer is empty. -/
def RoundTrip (codec : ProtocolCodec) (pairs : List (RpcHeader × Bytes))
    (chunks : List Bytes) : Prop :=
  (∃ last, codec.Deliver start chunks last) ∧
  ∀ last, codec.Deliver start chunks last →
    last.callbacks = pairs ∧ last.inputBuffer_.readable = []

variable {codec : ProtocolCodec}

theorem length_intBytes (value : Int) : (intBytes value).length = 4 := by
  simp [intBytes]

theorem stream_ne_nil {pairs : List (RpcHeader × Bytes)} (some : pairs ≠ []) :
    codec.stream pairs ≠ [] := by
  cases pairs with
  | nil => exact absurd rfl some
  | cons pair pairs =>
      intro empty
      have length := congrArg List.length empty
      simp only [stream, send, List.map_cons, List.flatten_cons, List.length_append,
        length_intBytes, List.length_nil] at length
      omega

theorem retrieve_readable {receiver : Receiver} {n : Nat}
    (nonempty : receiver.inputBuffer_.readable ≠ [])
    (differs : n ≠ receiver.inputBuffer_.readable.length) :
    (receiver.retrieve n).inputBuffer_.readable ≠ [] := by
  have length := receiver.inputBuffer_.length_readable
  unfold Receiver.retrieve
  rcases Nat.lt_or_gt_of_ne differs with less | more
  · rw [(receiver.inputBuffer_.retrieve_of_le (by omega)).2]
    intro empty
    rw [List.drop_eq_nil_iff] at empty
    omega
  · rwa [receiver.inputBuffer_.retrieve_of_lt (by omega)]

/-- The loop always asks for something else, even when the sum wraps. -/
theorem toUInt64_ne (len : Nat) {payloadLen : Nat} (small : payloadLen < 2 ^ 32) :
    toUInt64 (kHeaderLen + len + payloadLen) ≠ len := by
  unfold toUInt64 kHeaderLen
  omega

theorem loopBody_readable {undefined : Undefined} {receiver next : Receiver}
    (turn : codec.loopBody undefined receiver = some next)
    (nonempty : receiver.inputBuffer_.readable ≠ []) :
    next.inputBuffer_.readable ≠ [] := by
  unfold loopBody at turn
  dsimp only at turn
  split at turn
  · split at turn
    · split at turn
      · obtain rfl := Option.some.inj turn
        exact retrieve_readable nonempty (toUInt64_ne _ (UInt32.toNat_lt _))
      · obtain rfl := Option.some.inj turn
        exact nonempty
    · cases turn
  · cases turn

theorem onMessage_readable {receiver last : Receiver}
    (returns : codec.OnMessage receiver last)
    (nonempty : receiver.inputBuffer_.readable ≠ []) :
    last.inputBuffer_.readable ≠ [] := by
  induction returns with
  | leave => exact nonempty
  | again undefined turn _ inductionHypothesis =>
      exact inductionHypothesis (loopBody_readable turn nonempty)

theorem arrive_readable (receiver : Receiver) (chunk : Bytes) :
    (arrive receiver chunk).inputBuffer_.readable =
      receiver.inputBuffer_.readable ++ chunk :=
  (receiver.inputBuffer_.readFd_delivered chunk).2

/-- Once a byte has arrived the input buffer is never empty again. -/
theorem deliver_readable {receiver last : Receiver} {chunks : List Bytes}
    (delivered : codec.Deliver receiver chunks last)
    (nonempty : receiver.inputBuffer_.readable ++ chunks.flatten ≠ []) :
    last.inputBuffer_.readable ≠ [] := by
  induction delivered with
  | nil => simpa using nonempty
  | @cons receiver middle last chunk chunks returns _ inductionHypothesis =>
      apply inductionHypothesis
      by_cases arrived : (arrive receiver chunk).inputBuffer_.readable = []
      · rw [arrive_readable] at arrived
        rw [List.flatten_cons, ← List.append_assoc, arrived, List.nil_append] at nonempty
        exact List.append_ne_nil_of_right_ne_nil _ nonempty
      · exact List.append_ne_nil_of_left_ne_nil (onMessage_readable returns arrived) _

theorem loopBody_empty (undefined : Undefined) {receiver : Receiver}
    (empty : receiver.inputBuffer_.readable = []) :
    codec.loopBody undefined receiver = none := by
  unfold loopBody
  simp [empty, kHeaderLen]

theorem onMessage_empty {receiver last : Receiver}
    (empty : receiver.inputBuffer_.readable = [])
    (returns : codec.OnMessage receiver last) : last = receiver := by
  cases returns with
  | leave => rfl
  | again undefined turn =>
      rw [loopBody_empty undefined empty] at turn
      cases turn

theorem deliver_empty {receiver : Receiver} {chunks : List Bytes}
    (empty : receiver.inputBuffer_.readable = []) (silent : chunks.flatten = []) :
    (∃ last, codec.Deliver receiver chunks last) ∧
    ∀ last, codec.Deliver receiver chunks last →
      last.callbacks = receiver.callbacks ∧ last.inputBuffer_.readable = [] := by
  induction chunks generalizing receiver with
  | nil =>
      refine ⟨⟨receiver, .nil⟩, ?_⟩
      intro last delivered
      cases delivered
      exact ⟨rfl, empty⟩
  | cons chunk chunks inductionHypothesis =>
      obtain ⟨noChunk, noChunks⟩ := List.append_eq_nil_iff.mp silent
      have stillEmpty : (arrive receiver chunk).inputBuffer_.readable = [] := by
        rw [arrive_readable, empty, noChunk, List.nil_append]
      obtain ⟨⟨last, delivered⟩, unique⟩ := inductionHypothesis stillEmpty noChunks
      refine ⟨⟨last, .cons (.leave ⟨fun _ => 0, fun _ => {}⟩
        (loopBody_empty _ stillEmpty)) delivered⟩, ?_⟩
      rintro other (_ | ⟨returns, rest⟩)
      rw [onMessage_empty stillEmpty returns] at rest
      exact unique other rest

theorem not_roundTrip {pairs : List (RpcHeader × Bytes)} {chunks : List Bytes}
    (cut : chunks.flatten = codec.stream pairs) (some : pairs ≠ []) :
    ¬ codec.RoundTrip pairs chunks := by
  rintro ⟨⟨last, delivered⟩, exact⟩
  have left := deliver_readable delivered
    (List.append_ne_nil_of_right_ne_nil _ (cut ▸ stream_ne_nil some))
  exact left (exact last delivered).2

/-- However the stream is cut, it is received as the pairs that were sent
exactly when nothing was sent. -/
theorem roundTrip_iff (codec : ProtocolCodec) {pairs : List (RpcHeader × Bytes)}
    {chunks : List Bytes} (cut : chunks.flatten = codec.stream pairs) :
    codec.RoundTrip pairs chunks ↔ pairs = [] := by
  constructor
  · intro roundTrip
    by_contra some
    exact not_roundTrip cut some roundTrip
  · rintro rfl
    exact deliver_empty (Net.Buffer.readable_ofSize _) cut

/-- A response without content, its length apart from the rest. -/
theorem roundTrip_iff_response :
    ¬ RoundTrip ⟨ascii "v1.0", .proto3⟩ [(RpcServer.responseHeader 7, [])]
      [[4, 0, 0, 0], [8, 7, 40, 1]] := by
  intro roundTrip
  exact absurd ((roundTrip_iff ⟨ascii "v1.0", .proto3⟩ (by decide)).mp roundTrip)
    (List.cons_ne_nil _ _)

/-- The eight bytes of a response without content stay in the input buffer. -/
theorem response_not_received :
    ¬ ∀ (codec : ProtocolCodec) (pairs : List (RpcHeader × Bytes)) (chunks : List Bytes),
      (∀ pair ∈ pairs, Filled pair.1) → chunks.flatten = codec.stream pairs →
        codec.RoundTrip pairs chunks := by
  intro received
  have filled : ∀ pair ∈ [(RpcServer.responseHeader 7, ([] : Bytes))], Filled pair.1 := by
    simp [Filled]
  have roundTrip := received ⟨ascii "v1.0", .proto3⟩ _ [[4, 0, 0, 0, 8, 7, 40, 1]] filled
    (by decide)
  exact not_roundTrip (by decide) (List.cons_ne_nil _ _) roundTrip

end ProtocolCodec

end GdRpc.Rpc
