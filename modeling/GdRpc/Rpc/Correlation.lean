import Mathlib.Data.List.Induction
import GdRpc.Library.CallTable
import GdRpc.Rpc.RpcChannelCli

/-!
# Responses and the calls they answer

The client is compared with a call table that is told which id each request
carries. `id_` never changes, so that all requests carry the id zero and the
two agree only as long as no two calls overlap.
-/

namespace GdRpc.Rpc

open GdRpc.Library

universe u v w

variable {Message : Type w} {Response : Type u} {Closure : Type v}

namespace RpcChannelCli

/-- The client and the table of the calls by the ids of their requests. -/
structure Correlation (Message : Type w) (Response : Type u) (Closure : Type v) where
  cli : RpcChannelCli Message Response Closure
  table : CallTable UInt32 (OutstandingCall Response Closure) Bytes

/-- The event is a Response with this id. -/
def Event.Replies (event : Event Message Response Closure) (id : UInt32) : Prop :=
  ∃ message payload, event = .onRpcHeader message payload ∧
    message.message_type_ = .Response ∧ message.msg_id_ = id

namespace Correlation

def start : Correlation Message Response Closure where
  cli := .new
  table := .empty

def next (state : Correlation Message Response Closure)
    (event : Event Message Response Closure) : Correlation Message Response Closure where
  cli := state.cli.next event
  table :=
    match event with
    | .CallMethod call =>
        let header := requestHeader state.cli.id_ call.service call.method
        state.table.issue header.msg_id_ call.out
    | .onRpcHeader message payload =>
        if message.message_type_ = .Response then
          state.table.reply message.msg_id_ payload
        else state.table

def run (events : List (Event Message Response Closure)) :
    Correlation Message Response Closure :=
  events.foldl next start

theorem run_snoc (events : List (Event Message Response Closure))
    (event : Event Message Response Closure) :
    run (events ++ [event]) = (run events).next event := by
  simp [run]

/-- Outstanding calls have distinct ids, `outstandings_` holds exactly their
pairs, and every pair taken out was finished with the response to it. -/
structure Correlated (state : Correlation Message Response Closure) : Prop where
  distinct : state.table.Distinct
  held : ∀ key out, state.cli.outstandings_.lookup key = some out ↔
    ∃ id : UInt32, key = id.toNat ∧ (id, out) ∈ state.table.outstanding
  ran : state.cli.effects = (state.table.finished.map fun call =>
    finish call.1 call.2).flatten

/-- Between any two calls there is a Response with the id zero. -/
def Spaced (events : List (Event Message Response Closure)) : Prop :=
  ∀ before call between call' after,
    events = before ++ .CallMethod call :: between ++ .CallMethod call' :: after →
    ∃ event ∈ between, event.Replies 0

theorem Spaced.prefix {events more : List (Event Message Response Closure)}
    (spaced : Spaced (events ++ more)) : Spaced events := by
  intro before call between call' after split
  exact spaced before call between call' (after ++ more) (by simp [split])

theorem onRpcHeader_id (cli : RpcChannelCli Message Response Closure)
    (message : RpcHeader) (payload : Bytes) :
    (cli.onRpcHeader message payload).id_ = cli.id_ := by
  unfold onRpcHeader
  split
  · dsimp only
    split <;> rfl
  · rfl

theorem run_id (events : List (Event Message Response Closure)) :
    (run events).cli.id_ = 0 := by
  induction events using List.reverseRecOn with
  | nil => rfl
  | append_singleton events event inductionHypothesis =>
      rw [run_snoc]
      cases event with
      | CallMethod call => exact inductionHypothesis
      | onRpcHeader message payload =>
          exact (onRpcHeader_id _ message payload).trans inductionHypothesis

theorem table_call (events : List (Event Message Response Closure))
    (call : Call Message Response Closure) :
    (run (events ++ [.CallMethod call])).table =
      (run events).table.issue 0 call.out := by
  rw [run_snoc]
  simp only [next, requestHeader, run_id]
  rfl

theorem mem_outstanding_append {events more : List (Event Message Response Closure)}
    {id : UInt32} {out : OutstandingCall Response Closure}
    (silent : ∀ event ∈ more, ¬ event.Replies id)
    (membership : (id, out) ∈ (run events).table.outstanding) :
    (id, out) ∈ (run (events ++ more)).table.outstanding := by
  induction more using List.reverseRecOn with
  | nil => simpa using membership
  | append_singleton more event inductionHypothesis =>
      have before : (id, out) ∈ (run (events ++ more)).table.outstanding := by
        apply inductionHypothesis
        intro earlier isEarlier
        exact silent earlier (List.mem_append_left _ isEarlier)
      have noReply := silent event (by simp)
      rw [← List.append_assoc, run_snoc]
      cases event with
      | CallMethod call => exact List.mem_append_left _ before
      | onRpcHeader message payload =>
          simp only [next]
          split
          next isResponse =>
            refine CallTable.mem_reply_of_ne payload ?_ before
            rintro rfl
            exact noReply ⟨message, payload, rfl, isResponse, rfl⟩
          next => exact before

/-- Overlapping calls have the same id. -/
theorem spaced_of_distinct {events : List (Event Message Response Closure)}
    (distinct : ∀ past, past <+: events → (run past).table.Distinct) :
    Spaced events := by
  intro before call between call' after split
  by_contra silent
  have first : (0, call.out) ∈ (run (before ++ [.CallMethod call])).table.outstanding := by
    rw [table_call]
    exact List.mem_append_right _ (List.mem_singleton.mpr rfl)
  have kept := mem_outstanding_append
    (fun event membership replies => silent ⟨event, membership, replies⟩) first
  have both := distinct ((before ++ [.CallMethod call] ++ between) ++ [.CallMethod call'])
    ⟨after, by simp [split]⟩
  rw [table_call, CallTable.distinct_issue_iff] at both
  exact both.2 _ kept

theorem onRpcHeader_unknown {cli : RpcChannelCli Message Response Closure}
    {message : RpcHeader} (payload : Bytes)
    (unknown : cli.outstandings_.lookup (message.msg_id_.toNat : Int) = none) :
    cli.onRpcHeader message payload = cli := by
  unfold onRpcHeader
  split
  · simp only [unknown]
  · rfl

theorem toNat_injective {id other : UInt32} (same : (id.toNat : Int) = other.toNat) :
    id = other :=
  UInt32.toNat_inj.mp (Int.ofNat_inj.mp same)

theorem Correlated.reply {state : Correlation Message Response Closure}
    (correlated : state.Correlated) {message : RpcHeader} (payload : Bytes)
    (isResponse : message.message_type_ = .Response) :
    (state.next (.onRpcHeader message payload)).Correlated := by
  have table : (state.next (.onRpcHeader message payload)).table =
      state.table.reply message.msg_id_ payload := if_pos isResponse
  cases found : state.cli.outstandings_.lookup (message.msg_id_.toNat : Int) with
  | none =>
      have unknown : ∀ out, (message.msg_id_, out) ∉ state.table.outstanding := by
        intro out membership
        have held := (correlated.held _ _).mpr ⟨_, rfl, membership⟩
        rw [found] at held
        cases held
      have same : state.next (.onRpcHeader message payload) = state := by
        have tableEq := table.trans (CallTable.reply_of_unknown payload unknown)
        have cliEq := onRpcHeader_unknown payload found
        cases state
        simp_all [next, RpcChannelCli.next]
      rwa [same]
  | some out =>
      obtain ⟨id, idEq, membership⟩ := (correlated.held _ _).mp found
      obtain rfl := toNat_injective idEq
      have cli : (state.next (.onRpcHeader message payload)).cli = { state.cli with
          outstandings_ := state.cli.outstandings_.erase (message.msg_id_.toNat : Int)
          effects := state.cli.effects ++ finish out payload } := by
        change state.cli.onRpcHeader message payload = _
        unfold onRpcHeader
        simp only [isResponse, found]
      refine ⟨?_, ?_, ?_⟩
      · rw [table]
        exact correlated.distinct.reply _ _
      · intro key other
        rw [cli, table]
        by_cases same : key = message.msg_id_.toNat
        · subst same
          simp only [AList.lookup_erase, reduceCtorEq, false_iff]
          rintro ⟨id, idEq, isOutstanding⟩
          obtain rfl := toNat_injective idEq
          simp [CallTable.reply] at isOutstanding
        · rw [AList.lookup_erase_ne same, correlated.held]
          apply exists_congr
          intro id
          apply and_congr_right
          intro keyEq
          have differs : id ≠ message.msg_id_ := by
            rintro rfl
            exact same keyEq
          simp [CallTable.reply, differs]
      · rw [cli, table, correlated.distinct.reply_finished payload membership]
        simp [correlated.ran]

theorem Correlated.other {state : Correlation Message Response Closure}
    (correlated : state.Correlated) {message : RpcHeader} (payload : Bytes)
    (notResponse : message.message_type_ ≠ .Response) :
    (state.next (.onRpcHeader message payload)).Correlated := by
  have cli : state.cli.onRpcHeader message payload = state.cli := by
    unfold onRpcHeader
    split
    next isResponse => exact absurd isResponse notResponse
    next => rfl
  have same : state.next (.onRpcHeader message payload) = state := by
    simp only [next, RpcChannelCli.next, cli, if_neg notResponse]
  rwa [same]

theorem Correlated.call {state : Correlation Message Response Closure}
    (correlated : state.Correlated) (call : Call Message Response Closure)
    (faithful : state.cli.id_ = (UInt32.ofInt state.cli.id_).toNat)
    (fresh : ∀ out, (UInt32.ofInt state.cli.id_, out) ∉ state.table.outstanding) :
    (state.next (.CallMethod call)).Correlated := by
  refine ⟨CallTable.distinct_issue_iff.mpr ⟨correlated.distinct, fresh⟩, ?_,
    correlated.ran⟩
  intro key out
  change (state.cli.outstandings_.insert state.cli.id_ call.out).lookup key = some out ↔
    ∃ id : UInt32, key = id.toNat ∧
      (id, out) ∈ state.table.outstanding ++ [(UInt32.ofInt state.cli.id_, call.out)]
  generalize UInt32.ofInt state.cli.id_ = carried at *
  by_cases same : key = state.cli.id_
  · rw [same, AList.lookup_insert]
    constructor
    · intro found
      exact ⟨carried, faithful, by simp [Option.some.inj found]⟩
    · rintro ⟨id, idEq, membership⟩
      obtain rfl := toNat_injective (faithful.symm.trans idEq)
      rcases List.mem_append.mp membership with before | now
      · exact absurd before (by simpa using fresh out)
      · obtain rfl : out = call.out := by simpa using now
        rfl
  · rw [AList.lookup_insert_ne same, correlated.held]
    apply exists_congr
    intro id
    apply and_congr_right
    intro keyEq
    have differs : id ≠ carried := by
      rintro rfl
      exact same (keyEq.trans faithful.symm)
    simp [differs]

/-- An outstanding call was made and no Response with its id came since. -/
theorem outstanding_origin {events : List (Event Message Response Closure)}
    {id : UInt32} {out : OutstandingCall Response Closure}
    (membership : (id, out) ∈ (run events).table.outstanding) :
    ∃ before call between, events = before ++ .CallMethod call :: between ∧
      ∀ event ∈ between, ¬ event.Replies id := by
  induction events using List.reverseRecOn with
  | nil => simp [run, start, CallTable.empty] at membership
  | append_singleton events event inductionHypothesis =>
      rw [run_snoc] at membership
      have extend : (id, out) ∈ (run events).table.outstanding → ¬ event.Replies id →
          ∃ before call between, events ++ [event] = before ++ .CallMethod call :: between ∧
            ∀ event ∈ between, ¬ event.Replies id := by
        intro before noReply
        obtain ⟨start, call, between, split, silent⟩ := inductionHypothesis before
        refine ⟨start, call, between ++ [event], by simp [split], ?_⟩
        intro later isLater
        rcases List.mem_append.mp isLater with early | last
        · exact silent later early
        · rwa [List.mem_singleton.mp last]
      cases event with
      | CallMethod call =>
          rcases List.mem_append.mp membership with before | now
          · apply extend before
            rintro ⟨_, _, impossible, _⟩
            cases impossible
          · exact ⟨events, call, [], rfl, by simp⟩
      | onRpcHeader message payload =>
          simp only [next] at membership
          split at membership
          next isResponse =>
            obtain ⟨before, differs⟩ := List.mem_filter.mp membership
            apply extend before
            rintro ⟨_, _, same, _, rfl⟩
            cases same
            simp at differs
          next notResponse =>
            apply extend membership
            rintro ⟨_, _, same, isResponse, _⟩
            cases same
            exact notResponse isResponse

theorem correlated_of_spaced {events : List (Event Message Response Closure)}
    (spaced : Spaced events) : (run events).Correlated := by
  induction events using List.reverseRecOn with
  | nil =>
      refine ⟨List.nodup_nil, ?_, rfl⟩
      intro key out
      simp [run, start, CallTable.empty, RpcChannelCli.new]
  | append_singleton events event inductionHypothesis =>
      have correlated := inductionHypothesis spaced.prefix
      rw [run_snoc]
      cases event with
      | CallMethod call =>
          apply correlated.call call (by rw [run_id]; rfl)
          intro out membership
          rw [run_id] at membership
          obtain ⟨before, earlier, between, split, silent⟩ := outstanding_origin membership
          obtain ⟨event, isBetween, replies⟩ :=
            spaced before earlier between call [] (by simp [split])
          exact silent event isBetween replies
      | onRpcHeader message payload =>
          by_cases isResponse : message.message_type_ = .Response
          · exact correlated.reply payload isResponse
          · exact correlated.other payload isResponse

/-- In every prefix of a run responses and calls correlate exactly when there
is a Response with the id zero between any two calls. -/
theorem correlated_iff_spaced (events : List (Event Message Response Closure)) :
    (∀ past, past <+: events → (run past).Correlated) ↔ Spaced events := by
  constructor
  · intro correlated
    apply spaced_of_distinct
    intro past isPrefix
    exact (correlated past isPrefix).distinct
  · rintro spaced past ⟨more, rfl⟩
    exact correlated_of_spaced spaced.prefix

/-- The second of two overlapping calls overwrites the pair of the first. -/
theorem overlapping_calls_clash :
    ¬ ∀ events : List (Event Nat Nat Nat),
      (events.filter fun event => event matches .CallMethod _).length < 2 ^ 32 →
        ∀ past, past <+: events → (run past).Correlated := by
  intro correlated
  have distinct := (correlated
    [.CallMethod ⟨ascii "e", ascii "m", 1, ⟨some 1, some 1⟩⟩,
      .CallMethod ⟨ascii "e", ascii "m", 2, ⟨some 2, some 2⟩⟩]
    (by decide) _ (List.prefix_refl _)).distinct
  exact absurd distinct (by unfold CallTable.Distinct; decide)

end Correlation

end RpcChannelCli

end GdRpc.Rpc
