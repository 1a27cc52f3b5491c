import Mathlib.Logic.Relation
import GdRpc.Protocol.Framing

/-!
# The loop of `onMessage` on arbitrary bytes

Two guards stand in front of the parsing branch: one on the length of `buf`,
one on the length prefix. A buffer that passes both keeps the loop going for
ever, whatever the header says, and is where the header pointer and the two
lengths chosen by the peer are used.
-/

namespace GdRpc.Rpc

open GdRpc.Library

namespace ProtocolCodec

/-- Both guards are passed; the second compares in `uint64_t`. -/
def Entered (codec : ProtocolCodec) (buf : Bytes) : Prop :=
  codec.kMinMessageLen + kHeaderLen ≤ buf.length ∧
    toUInt64 (kHeaderLen + readInt buf) ≤ buf.length

instance (codec : ProtocolCodec) (buf : Bytes) : Decidable (codec.Entered buf) :=
  inferInstanceAs (Decidable (_ ∧ _))

theorem Entered.headerLen {codec : ProtocolCodec} {buf : Bytes}
    (entered : codec.Entered buf) (fits : buf.length < 2 ^ 63) :
    -4 ≤ readInt buf ∧ (0 ≤ readInt buf → 4 + (readInt buf).toNat ≤ buf.length) := by
  obtain ⟨_, inside⟩ := entered
  have low : -2 ^ 31 ≤ readInt buf := le_toInt _
  have high : readInt buf < 2 ^ 31 := toInt_lt _
  unfold toUInt64 kHeaderLen at inside
  omega

/-! ## Progress -/

/-- One turn of the loop, whatever lies behind the bytes of `buf`. -/
def Turn (codec : ProtocolCodec) (receiver next : Receiver) : Prop :=
  ∃ undefined, codec.loopBody undefined receiver = some next

/-- The loop ends, and every turn of it removes at least one byte from the
input buffer. -/
structure Progress (codec : ProtocolCodec) (receiver : Receiver) : Prop where
  ends : Acc (fun next current => codec.Turn current next) receiver
  consumes : ∀ current next, Relation.ReflTransGen codec.Turn receiver current →
    codec.Turn current next →
    next.inputBuffer_.readable.length < current.inputBuffer_.readable.length

variable {codec : ProtocolCodec} {receiver next : Receiver}

theorem loopBody_of_not_entered (undefined : Undefined)
    (outside : ¬ codec.Entered receiver.inputBuffer_.readable) :
    codec.loopBody undefined receiver = none := by
  unfold Entered at outside
  unfold loopBody
  dsimp only
  split
  next enough =>
    rw [if_neg fun inside => outside ⟨enough, inside⟩]
  next => rfl

theorem retrieve_too_much (receiver : Receiver) {payloadLen : Nat}
    (small : payloadLen < 2 ^ 32)
    (fits : receiver.inputBuffer_.readable.length < 2 ^ 63) :
    receiver.retrieve
      (toUInt64 (kHeaderLen + receiver.inputBuffer_.readable.length + payloadLen)) =
        receiver := by
  have length := receiver.inputBuffer_.length_readable
  unfold Receiver.retrieve
  rw [receiver.inputBuffer_.retrieve_of_lt]
  unfold toUInt64 kHeaderLen
  omega

/-- A turn of the loop takes place and leaves the input buffer as it is. -/
theorem loopBody_of_entered (undefined : Undefined)
    (entered : codec.Entered receiver.inputBuffer_.readable)
    (fits : receiver.inputBuffer_.readable.length < 2 ^ 63) :
    ∃ next, codec.loopBody undefined receiver = some next ∧
      next.inputBuffer_ = receiver.inputBuffer_ := by
  unfold loopBody
  dsimp only
  rw [if_pos entered.1, if_pos entered.2]
  generalize codec.parseHeader undefined receiver.inputBuffer_.readable
    (readInt receiver.inputBuffer_.readable) = header
  split
  next whole =>
    refine ⟨_, rfl, ?_⟩
    have kept := retrieve_too_much (receiver.messageCallback header
      (readRange undefined receiver.inputBuffer_.readable (4 + kHeaderLen)
        header.payload_len_.toNat)) (UInt32.toNat_lt header.payload_len_) fits
    exact (congrArg Receiver.inputBuffer_ kept :)
  next => exact ⟨receiver, rfl, rfl⟩

theorem not_ends_of_entered
    (entered : codec.Entered receiver.inputBuffer_.readable)
    (fits : receiver.inputBuffer_.readable.length < 2 ^ 63) :
    ¬ Acc (fun next current => codec.Turn current next) receiver := by
  intro ends
  induction ends with
  | intro current _ inductionHypothesis =>
      let undefined : Undefined := ⟨fun _ => 0, fun _ => {}⟩
      obtain ⟨next, turn, same⟩ := loopBody_of_entered undefined entered fits
      apply inductionHypothesis next ⟨undefined, turn⟩
      · rwa [same]
      · rwa [same]

/-- On every content of the input buffer the loop of `onMessage` makes progress
exactly when it is left at the first test: the buffer is shorter than the
shortest message or ends before the header does. A vector of `char` has fewer
than `2 ^ 63` elements. -/
theorem progress_iff (codec : ProtocolCodec) (receiver : Receiver)
    (fits : receiver.inputBuffer_.readable.length < 2 ^ 63) :
    codec.Progress receiver ↔ ¬ codec.Entered receiver.inputBuffer_.readable := by
  constructor
  · intro progress entered
    exact not_ends_of_entered entered fits progress.ends
  · intro outside
    have leaves : ∀ next, ¬ codec.Turn receiver next := by
      rintro next ⟨undefined, turn⟩
      rw [loopBody_of_not_entered undefined outside] at turn
      cases turn
    constructor
    · exact Acc.intro _ fun next turn => absurd turn (leaves next)
    · intro current next reached turn
      rcases Relation.ReflTransGen.cases_head reached with rfl | ⟨middle, first, _⟩
      · exact absurd turn (leaves next)
      · exact absurd first (leaves middle)

/-- A receiver whose input buffer holds exactly these bytes. -/
def holding (content : Bytes) : Receiver :=
  arrive start content

@[simp]
theorem readable_holding (content : Bytes) :
    (holding content).inputBuffer_.readable = content := by
  rw [holding, arrive_readable, start, Net.Buffer.readable_ofSize, List.nil_append]

/-- Twelve zero bytes: an empty header, then eight bytes more. -/
theorem progress_fails_twelve_zeros :
    ¬ ∀ (codec : ProtocolCodec) (receiver : Receiver),
      receiver.inputBuffer_.readable.length < 2 ^ 63 → codec.Progress receiver := by
  intro progresses
  let codec : ProtocolCodec := ⟨ascii "v1.0", .proto3⟩
  have content := readable_holding (List.replicate 12 0)
  have progress := progresses codec (holding (List.replicate 12 0))
    (by rw [content]; decide)
  apply not_ends_of_entered _ _ progress.ends
  · rw [content]
    decide
  · rw [content]
    decide

/-- Four bytes of a longer frame. -/
theorem progress_iff_truncated :
    Progress ⟨ascii "v1.0", .proto3⟩ (holding [20, 0, 0, 0]) := by
  have content := readable_holding [20, 0, 0, 0]
  rw [progress_iff _ _ (by rw [content]; decide), content]
  decide

/-! ## Safety -/

/-- A use of memory in `onMessage`: of what a pointer points to, of a range
given to `ParseFromArray`, or of a range copied out of `buf`. -/
inductive Access where
  | dereference (pointer : Option RpcHeader)
  | parse (first : Nat) (length : Int)
  | copy (first count : Nat)
  deriving DecidableEq

/-- The pointer is not null, the length not negative and the range in `buf`. -/
def Access.Safe (buf : Bytes) : Access → Prop
  | dereference pointer => pointer ≠ none
  | parse first length => 0 ≤ length ∧ first + length ≤ buf.length
  | copy first count => first + count ≤ buf.length

/-- The uses of memory of one turn on `buf`, in order. `pointer` is the header
pointer before the parsing and `parsed` what is found behind it afterwards. -/
def accesses (codec : ProtocolCodec) (pointer : Option RpcHeader) (parsed : RpcHeader)
    (buf : Bytes) : List Access :=
  if codec.kMinMessageLen + kHeaderLen ≤ buf.length then
    let headerLen := readInt buf
    .copy 0 4 ::
      if toUInt64 (kHeaderLen + headerLen) ≤ buf.length then
        [.dereference pointer, .parse 4 headerLen, .dereference pointer,
          .copy (4 + kHeaderLen) parsed.payload_len_.toNat]
      else
        []
  else
    []

/-- `RpcHeaderPtr header;` -/
def headerPtr : Option RpcHeader :=
  none

/-- In some turn `onMessage` finds `buf` in the input buffer and makes this
access; every turn may parse any header. -/
inductive Performs (codec : ProtocolCodec) (pointer : Option RpcHeader) :
    Receiver → Bytes → Access → Prop where
  | now (parsed : RpcHeader) {receiver : Receiver} {access : Access} :
      access ∈ codec.accesses pointer parsed receiver.inputBuffer_.readable →
      Performs codec pointer receiver receiver.inputBuffer_.readable access
  | later (undefined : Undefined) {receiver next : Receiver} {buf : Bytes}
      {access : Access} :
      codec.loopBody undefined receiver = some next →
      Performs codec pointer next buf access →
      Performs codec pointer receiver buf access

/-- Whatever is parsed, every use of memory is safe. -/
def MemorySafe (codec : ProtocolCodec) (pointer : Option RpcHeader)
    (receiver : Receiver) : Prop :=
  ∀ buf access, codec.Performs pointer receiver buf access → access.Safe buf

theorem accesses_of_not_entered {pointer : Option RpcHeader} {parsed : RpcHeader}
    {buf : Bytes} (outside : ¬ codec.Entered buf) :
    ∀ access ∈ codec.accesses pointer parsed buf, access.Safe buf := by
  intro access membership
  unfold Entered at outside
  unfold accesses at membership
  split at membership
  next enough =>
    dsimp only at membership
    rw [if_neg fun inside => outside ⟨enough, inside⟩] at membership
    rw [List.mem_singleton.mp membership]
    have four : kHeaderLen = 4 := rfl
    change 0 + 4 ≤ buf.length
    omega
  next => cases membership

theorem accesses_of_entered {pointer : Option RpcHeader} {parsed : RpcHeader}
    {buf : Bytes} (entered : codec.Entered buf) :
    codec.accesses pointer parsed buf =
      [.copy 0 4, .dereference pointer, .parse 4 (readInt buf), .dereference pointer,
        .copy (4 + kHeaderLen) parsed.payload_len_.toNat] := by
  unfold accesses
  rw [if_pos entered.1]
  dsimp only
  rw [if_pos entered.2]

/-- Even with a header behind the pointer a turn is safe only for some lengths:
the guard lets a prefix from `-4` to `-1` through, and the payload is copied
before its length is compared with anything. -/
theorem fresh_header_safe_iff {fresh parsed : RpcHeader} {buf : Bytes}
    (entered : codec.Entered buf) (fits : buf.length < 2 ^ 63) :
    (∀ access ∈ codec.accesses (some fresh) parsed buf, access.Safe buf) ↔
      0 ≤ readInt buf ∧ 8 + parsed.payload_len_.toNat ≤ buf.length := by
  have four : kHeaderLen = 4 := rfl
  have enough := entered.1
  have inside := (entered.headerLen fits).2
  rw [accesses_of_entered entered]
  simp only [List.forall_mem_cons, List.not_mem_nil, false_implies, implies_true,
    Access.Safe, ne_eq, reduceCtorEq, not_false_eq_true, true_and, and_true, four]
  constructor
  · rintro ⟨_, ⟨nonneg, _⟩, payload⟩
    exact ⟨nonneg, payload⟩
  · rintro ⟨nonneg, payload⟩
    have header := inside nonneg
    exact ⟨by omega, ⟨nonneg, by omega⟩, payload⟩

/-- On every content of the input buffer `onMessage` is safe exactly when its
first turn does not reach the header pointer, which is null. -/
theorem memorySafe_iff (codec : ProtocolCodec) (receiver : Receiver) :
    codec.MemorySafe headerPtr receiver ↔
      ¬ codec.Entered receiver.inputBuffer_.readable := by
  constructor
  · intro safe entered
    have null := safe _ (.dereference headerPtr) (.now {} (by
      rw [accesses_of_entered entered]
      simp))
    exact null rfl
  · intro outside buf access performed
    cases performed with
    | now parsed membership => exact accesses_of_not_entered outside access membership
    | later undefined turn _ =>
        rw [loopBody_of_not_entered undefined outside] at turn
        cases turn

/-- A response without content and four bytes of the next frame. -/
theorem memorySafe_fails_response :
    ¬ ∀ (codec : ProtocolCodec) (receiver : Receiver),
      codec.MemorySafe headerPtr receiver := by
  intro safe
  let codec : ProtocolCodec := ⟨ascii "v1.0", .proto3⟩
  let content : Bytes := [4, 0, 0, 0, 8, 7, 40, 1, 4, 0, 0, 0]
  have entered : codec.Entered (holding content).inputBuffer_.readable := by
    rw [readable_holding]
    decide
  have null := safe codec (holding content) _ (.dereference headerPtr) (.now {} (by
    rw [accesses_of_entered entered]
    simp))
  exact null rfl

end ProtocolCodec

end GdRpc.Rpc
