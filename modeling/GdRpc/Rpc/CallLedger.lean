import Mathlib.Data.List.Perm.Basic
import GdRpc.Rpc.Correlation

/-!
# Who disposes of a call's objects

A channel owns the pairs it is given: `onRpcHeader` deletes the response of the
pair it takes out and runs the closure, which deletes itself, and the destructor
deletes what is left in `outstandings_`. A pair that is overwritten there is
lost.
-/

namespace GdRpc.Rpc

open GdRpc.Library

universe u v w

variable {Message : Type w} {Response : Type u} {Closure : Type v}

/-- The channel with, for the record, the pairs taken out, each with the payload
of its response, and those overwritten. -/
structure CallLedger (Message : Type w) (Response : Type u) (Closure : Type v) where
  cli : RpcChannelCli Message Response Closure
  finished : List (OutstandingCall Response Closure × Bytes)
  overwritten : List (OutstandingCall Response Closure)

namespace CallLedger

open RpcChannelCli

def new : CallLedger Message Response Closure where
  cli := .new
  finished := []
  overwritten := []

def next (ledger : CallLedger Message Response Closure) :
    Event Message Response Closure → CallLedger Message Response Closure
  | .CallMethod call => { ledger with
      cli := ledger.cli.CallMethod call
      overwritten := ledger.overwritten ++
        (ledger.cli.outstandings_.lookup ledger.cli.id_).toList }
  | .onRpcHeader message payload => { ledger with
      cli := ledger.cli.onRpcHeader message payload
      finished := ledger.finished ++
        if message.message_type_ = .Response then
          (ledger.cli.outstandings_.lookup (message.msg_id_.toNat : Int)).toList.map (·, payload)
        else [] }

def run (events : List (Event Message Response Closure)) :
    CallLedger Message Response Closure :=
  events.foldl next new

/-- The pairs given to `CallMethod`. -/
def handed (events : List (Event Message Response Closure)) :
    List (OutstandingCall Response Closure) :=
  events.filterMap fun event =>
    match event with
    | .CallMethod call => some call.out
    | .onRpcHeader _ _ => none

/-- The pairs the destructor finds. -/
def held (cli : RpcChannelCli Message Response Closure) :
    List (OutstandingCall Response Closure) :=
  cli.outstandings_.entries.map Sigma.snd

/-- The response `onRpcHeader` parses, and deletes behind that. -/
def parsed : Effect Response Closure → Option Response
  | .ParseFromString response _ => some response
  | .Run _ => none

def ran : Effect Response Closure → Option Closure
  | .ParseFromString _ _ => none
  | .Run done => some done

/-- The closure that is run when the pair is taken out. -/
def runnable (out : OutstandingCall Response Closure) : Option Closure :=
  out.response.bind fun _ => out.done

/-- What the channel has deleted of the responses when it is destroyed. -/
def responsesDeleted (ledger : CallLedger Message Response Closure) : List Response :=
  ledger.cli.effects.filterMap parsed ++ (held ledger.cli).filterMap OutstandingCall.response

/-- What it has run or deleted of the closures. -/
def closuresDisposed (ledger : CallLedger Message Response Closure) : List Closure :=
  ledger.cli.effects.filterMap ran ++ (held ledger.cli).filterMap OutstandingCall.done

/-- The closures nobody runs or deletes: those taken out with a null response,
and those overwritten. -/
def closuresLeaked (ledger : CallLedger Message Response Closure) : List Closure :=
  ((ledger.finished.map Prod.fst).filter fun out => out.response.isNone).filterMap
    OutstandingCall.done ++ ledger.overwritten.filterMap OutstandingCall.done

/-! ## Where the pairs are -/

theorem run_snoc (events : List (Event Message Response Closure))
    (event : Event Message Response Closure) :
    run (events ++ [event]) = (run events).next event := by
  simp [run]

theorem perm_kerase (key : Int)
    (entries : List (Sigma fun _ : Int => OutstandingCall Response Closure)) :
    (entries.map Sigma.snd).Perm
      ((entries.dlookup key).toList ++ (entries.kerase key).map Sigma.snd) := by
  induction entries with
  | nil => exact .refl _
  | cons entry entries inductionHypothesis =>
      obtain ⟨other, out⟩ := entry
      by_cases same : key = other
      · subst same
        have erased : List.kerase key (⟨key, out⟩ :: entries) = entries := List.kerase_cons_eq rfl
        rw [List.dlookup_cons_eq, erased]
        exact .refl _
      · rw [List.dlookup_cons_ne _ _ same, List.kerase_cons_ne same]
        exact (inductionHypothesis.cons out).trans (List.perm_middle.symm)

/-- Every pair is in one place, and what has been done is what was to be done
with the pairs taken out. -/
structure Sound (past : List (Event Message Response Closure))
    (ledger : CallLedger Message Response Closure) : Prop where
  places : (ledger.finished.map Prod.fst ++ ledger.overwritten ++ held ledger.cli).Perm
    (handed past)
  effects : ledger.cli.effects =
    (ledger.finished.map fun pair => finish pair.1 pair.2).flatten

variable {past : List (Event Message Response Closure)}
  {ledger : CallLedger Message Response Closure}

theorem Sound.call (sound : Sound past ledger) (call : Call Message Response Closure) :
    Sound (past ++ [.CallMethod call]) (ledger.next (.CallMethod call)) := by
  refine ⟨?_, sound.effects⟩
  have given : handed (past ++ [.CallMethod call]) = handed past ++ [call.out] := by
    simp [handed]
  have inserted : held (ledger.cli.CallMethod call) =
      call.out :: (ledger.cli.outstandings_.entries.kerase ledger.cli.id_).map Sigma.snd := by
    simp [held, CallMethod]
  have split := perm_kerase ledger.cli.id_ ledger.cli.outstandings_.entries
  rw [given]
  change (ledger.finished.map Prod.fst ++ (ledger.overwritten ++ _) ++
    held (ledger.cli.CallMethod call)).Perm _
  rw [inserted]
  refine List.perm_middle.trans ?_
  refine List.Perm.trans ?_ (List.perm_append_singleton call.out (handed past)).symm
  apply List.Perm.cons
  refine List.Perm.trans ?_ sound.places
  rw [← List.append_assoc, List.append_assoc]
  exact split.symm.append_left _

theorem Sound.header (sound : Sound past ledger) (message : RpcHeader) (payload : Bytes) :
    Sound (past ++ [.onRpcHeader message payload])
      (ledger.next (.onRpcHeader message payload)) := by
  have given : handed (past ++ [.onRpcHeader message payload]) = handed past := by
    simp [handed]
  have same : ledger.next (.onRpcHeader message payload) = ledger →
      Sound (past ++ [.onRpcHeader message payload])
        (ledger.next (.onRpcHeader message payload)) := by
    intro eq
    rw [eq]
    refine ⟨?_, sound.effects⟩
    rw [given]
    exact sound.places
  by_cases isResponse : message.message_type_ = .Response
  · cases found : ledger.cli.outstandings_.lookup (message.msg_id_.toNat : Int) with
    | none =>
        apply same
        simp [next, isResponse, found, Correlation.onRpcHeader_unknown payload found]
    | some out =>
        have cli : ledger.cli.onRpcHeader message payload = { ledger.cli with
            outstandings_ := ledger.cli.outstandings_.erase (message.msg_id_.toNat : Int)
            effects := ledger.cli.effects ++ finish out payload } := by
          unfold onRpcHeader
          simp only [isResponse, found]
        have after : ledger.next (.onRpcHeader message payload) = { ledger with
            cli := ledger.cli.onRpcHeader message payload
            finished := ledger.finished ++ [(out, payload)] } := by
          simp [next, isResponse, found]
        have taken :
            (held ledger.cli).Perm (out :: held (ledger.cli.onRpcHeader message payload)) := by
          have split := perm_kerase (message.msg_id_.toNat : Int)
            ledger.cli.outstandings_.entries
          change ledger.cli.outstandings_.entries.dlookup (message.msg_id_.toNat : Int) = _
            at found
          rw [found] at split
          rw [cli]
          exact split
        rw [after]
        refine ⟨?_, ?_⟩
        · rw [given]
          refine List.Perm.trans ?_ sound.places
          simp only [List.map_append, List.map_singleton, List.append_assoc,
            List.singleton_append]
          apply List.Perm.append_left
          exact List.perm_middle.symm.trans (taken.symm.append_left _)
        · simp [cli, sound.effects]
  · apply same
    have untouched : ledger.cli.onRpcHeader message payload = ledger.cli := by
      unfold onRpcHeader
      split
      next response => exact absurd response isResponse
      next => rfl
    simp [next, isResponse, untouched]

theorem sound_run (events : List (Event Message Response Closure)) :
    Sound events (run events) := by
  induction events using List.reverseRecOn with
  | nil => exact ⟨.refl _, rfl⟩
  | append_singleton past event inductionHypothesis =>
      rw [run_snoc]
      cases event with
      | CallMethod call => exact inductionHypothesis.call call
      | onRpcHeader message payload => exact inductionHypothesis.header message payload

/-! ## What becomes of the objects -/

theorem filterMap_parsed (finished : List (OutstandingCall Response Closure × Bytes)) :
    (finished.map fun pair => finish pair.1 pair.2).flatten.filterMap parsed =
      (finished.map Prod.fst).filterMap OutstandingCall.response := by
  induction finished with
  | nil => rfl
  | cons pair finished inductionHypothesis =>
      obtain ⟨⟨response, done⟩, payload⟩ := pair
      simp only [List.map_cons, List.flatten_cons, List.filterMap_append, inductionHypothesis]
      cases response with
      | none => rfl
      | some response => cases done <;> rfl

theorem filterMap_ran (finished : List (OutstandingCall Response Closure × Bytes)) :
    (finished.map fun pair => finish pair.1 pair.2).flatten.filterMap ran =
      (finished.map Prod.fst).filterMap runnable := by
  induction finished with
  | nil => rfl
  | cons pair finished inductionHypothesis =>
      obtain ⟨⟨response, done⟩, payload⟩ := pair
      simp only [List.map_cons, List.flatten_cons, List.filterMap_append, inductionHypothesis]
      cases response with
      | none => rfl
      | some response => cases done <;> rfl

theorem perm_runnable (pairs : List (OutstandingCall Response Closure)) :
    (pairs.filterMap runnable ++
      (pairs.filter fun out => out.response.isNone).filterMap OutstandingCall.done).Perm
        (pairs.filterMap OutstandingCall.done) := by
  induction pairs with
  | nil => exact .refl _
  | cons out pairs inductionHypothesis =>
      obtain ⟨response, done⟩ := out
      cases response with
      | some response =>
          cases done with
          | none => simpa [runnable] using inductionHypothesis
          | some done => simpa [runnable] using inductionHypothesis.cons done
      | none =>
          cases done with
          | none => simpa [runnable] using inductionHypothesis
          | some done =>
              exact List.perm_middle.trans (inductionHypothesis.cons done)

/-! ## Which pairs are overwritten -/

theorem run_id (events : List (Event Message Response Closure)) :
    (run events).cli.id_ = 0 := by
  induction events using List.reverseRecOn with
  | nil => rfl
  | append_singleton past event inductionHypothesis =>
      rw [run_snoc]
      cases event with
      | CallMethod call => exact inductionHypothesis
      | onRpcHeader message payload =>
          exact (Correlation.onRpcHeader_id _ message payload).trans inductionHypothesis

/-- The last call has not been answered. -/
def Unanswered (events : List (Event Message Response Closure)) : Prop :=
  ∃ before call after, events = before ++ .CallMethod call :: after ∧
    ∀ event ∈ after, ¬ event.Replies 0

theorem unanswered_snoc (event : Event Message Response Closure) :
    Unanswered (past ++ [event]) ↔
      (∃ call, event = .CallMethod call) ∨ (Unanswered past ∧ ¬ event.Replies 0) := by
  constructor
  · rintro ⟨before, call, after, split, silent⟩
    rcases List.eq_nil_or_concat after with rfl | ⟨later, last, rfl⟩
    · exact .inl ⟨call, List.head_eq_of_cons_eq (List.append_inj_right' split rfl)⟩
    · rw [List.concat_eq_append] at split silent
      rw [← List.cons_append, ← List.append_assoc] at split
      obtain ⟨rfl, same⟩ := List.append_inj' split rfl
      obtain rfl := List.head_eq_of_cons_eq same
      refine .inr ⟨⟨before, call, later, rfl, ?_⟩, silent _ (by simp)⟩
      intro other membership
      exact silent other (by simp [membership])
  · rintro (⟨call, rfl⟩ | ⟨⟨before, call, after, rfl, silent⟩, noReply⟩)
    · exact ⟨past, call, [], rfl, by simp⟩
    · refine ⟨before, call, after ++ [event], by simp, ?_⟩
      intro other membership
      rcases List.mem_append.mp membership with earlier | last
      · exact silent other earlier
      · rw [List.mem_singleton.mp last]
        exact noReply

theorem spaced_snoc (event : Event Message Response Closure) :
    Correlation.Spaced (past ++ [event]) ↔
      Correlation.Spaced past ∧ ((∃ call, event = .CallMethod call) → ¬ Unanswered past) := by
  constructor
  · intro spaced
    have earlier := spaced.prefix
    refine ⟨earlier, ?_⟩
    rintro ⟨call', rfl⟩ ⟨before, call, after, rfl, silent⟩
    obtain ⟨reply, between, replies⟩ := spaced before call after call' [] (by simp)
    exact silent reply between replies
  · rintro ⟨spaced, answered⟩ before call between call' after split
    rcases List.eq_nil_or_concat after with rfl | ⟨later, last, rfl⟩
    · obtain ⟨rfl, same⟩ := List.append_inj' split rfl
      by_contra silent
      apply answered ⟨call', List.head_eq_of_cons_eq same⟩
      refine ⟨before, call, between, rfl, ?_⟩
      intro event membership replies
      exact silent ⟨event, membership, replies⟩
    · rw [List.concat_eq_append, ← List.cons_append, ← List.append_assoc] at split
      obtain ⟨rfl, -⟩ := List.append_inj' split rfl
      exact spaced before call between call' later rfl

theorem lookup_onRpcHeader (cli : RpcChannelCli Message Response Closure)
    (message : RpcHeader) (payload : Bytes) (key : Int) :
    (cli.onRpcHeader message payload).outstandings_.lookup key =
      if message.message_type_ = .Response ∧ key = message.msg_id_.toNat then none
      else cli.outstandings_.lookup key := by
  unfold onRpcHeader
  split
  next isResponse =>
    dsimp only
    by_cases same : key = message.msg_id_.toNat
    · subst same
      rw [if_pos ⟨isResponse, rfl⟩]
      split
      next missing => exact missing
      next => exact AList.lookup_erase _ _
    · rw [if_neg fun both => same both.2]
      split
      next => rfl
      next => exact AList.lookup_erase_ne same
  next other => rw [if_neg fun both => other both.1]

theorem lookup_run (events : List (Event Message Response Closure)) :
    ((run events).cli.outstandings_.lookup 0).isSome ↔ Unanswered events := by
  induction events using List.reverseRecOn with
  | nil =>
      refine iff_of_false (by simp [run, new, RpcChannelCli.new]) ?_
      rintro ⟨before, call, after, split, -⟩
      exact absurd split (by simp)
  | append_singleton past event inductionHypothesis =>
      rw [run_snoc, unanswered_snoc]
      cases event with
      | CallMethod call =>
          have id := run_id past
          refine iff_of_true ?_ (.inl ⟨call, rfl⟩)
          simp [next, CallMethod, id]
      | onRpcHeader message payload =>
          have noCall : ¬ ∃ call, Event.onRpcHeader message payload =
              (.CallMethod call : Event Message Response Closure) := by simp
          rw [or_iff_right noCall, ← inductionHypothesis]
          have replies : (Event.onRpcHeader message payload :
              Event Message Response Closure).Replies 0 ↔
                message.message_type_ = .Response ∧ (0 : Int) = message.msg_id_.toNat := by
            constructor
            · rintro ⟨_, _, same, isResponse, zero⟩
              cases same
              exact ⟨isResponse, by rw [zero]; rfl⟩
            · rintro ⟨isResponse, zero⟩
              refine ⟨_, _, rfl, isResponse, ?_⟩
              exact UInt32.toNat_inj.mp (Int.ofNat_inj.mp zero).symm
          simp only [next, lookup_onRpcHeader, ← replies]
          split
          next answered => simp [replies, answered]
          next silent => simp [replies, silent]

theorem overwritten_run (events : List (Event Message Response Closure)) :
    (run events).overwritten = [] ↔ Correlation.Spaced events := by
  induction events using List.reverseRecOn with
  | nil =>
      refine iff_of_true rfl ?_
      intro before call between call' after split
      exact absurd split (by simp)
  | append_singleton past event inductionHypothesis =>
      rw [run_snoc, spaced_snoc, ← inductionHypothesis]
      cases event with
      | onRpcHeader message payload => simp [next]
      | CallMethod call =>
          have key : (run past).cli.outstandings_.lookup (run past).cli.id_ =
              (run past).cli.outstandings_.lookup 0 :=
            congrArg (fun id => (run past).cli.outstandings_.lookup id) (run_id past)
          rw [← lookup_run]
          simp [next, key, List.append_eq_nil_iff]

/-- Whatever the calls and the headers received, a channel that is destroyed
behind them has deleted each response and run or deleted each closure it was
given once, apart from those of pairs that were overwritten, and closures whose
pair had a null response. No pair is overwritten exactly if no two calls
overlap. -/
theorem objects_disposed_once (events : List (Event Message Response Closure)) :
    let ledger := run events
    (ledger.responsesDeleted ++ ledger.overwritten.filterMap OutstandingCall.response).Perm
        ((handed events).filterMap OutstandingCall.response) ∧
      (ledger.closuresDisposed ++ ledger.closuresLeaked).Perm
        ((handed events).filterMap OutstandingCall.done) ∧
      (ledger.overwritten = [] ↔ Correlation.Spaced events) := by
  intro ledger
  have sound : Sound events ledger := sound_run events
  refine ⟨?_, ?_, overwritten_run events⟩
  · refine List.Perm.trans ?_ (sound.places.filterMap OutstandingCall.response)
    rw [responsesDeleted, sound.effects, filterMap_parsed, List.filterMap_append,
      List.filterMap_append, List.append_assoc, List.append_assoc]
    exact List.perm_append_comm.append_left _
  · refine List.Perm.trans ?_ (sound.places.filterMap OutstandingCall.done)
    rw [closuresDisposed, closuresLeaked, sound.effects, filterMap_ran, List.filterMap_append,
      List.filterMap_append, List.append_assoc]
    refine (List.perm_append_comm.append_left _).trans ?_
    rw [← List.append_assoc, ← List.append_assoc]
    exact ((perm_runnable _).append_right _).append_right _

end CallLedger

end GdRpc.Rpc
