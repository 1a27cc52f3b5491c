import GdRpc.Net.OneAttempt

/-!
# Attempts that are refused

The delay before an attempt doubles with each refusal, but `retry` also queues
an attempt that does not wait for it. Each timer that fires brings one more of
these, which the loop never gets rid of as long as it is refused.
-/

namespace GdRpc.Net

open GdRpc.Library

namespace Connector

/-- The delay behind the failures counted. -/
def delayMs (failures : Nat) : Int :=
  min (kInitRetryDelayMs * 2 ^ failures) kMaxRetryDelayMs

theorem delayMs_succ (failures : Nat) :
    delayMs (failures + 1) = min (delayMs failures * 2) kMaxRetryDelayMs := by
  unfold delayMs kInitRetryDelayMs kMaxRetryDelayMs
  rw [pow_succ]
  omega

theorem not_proceeds_of_retries {errno : Nat} (retries : Retries errno) : ¬ Proceeds errno := by
  unfold Retries at retries
  rcases retries with rfl | rfl | rfl | rfl | rfl <;> decide

/-- What a refused attempt leaves. -/
structure RefusedOnce (connector after : Connector) : Prop where
  connect_ : after.connect_ = connector.connect_
  channel_ : after.channel_ = connector.channel_
  pending_functors_ : after.pending_functors_ = connector.pending_functors_ ++ [.startInLoop]
  timers : after.timers =
    connector.timers ++ [(connector.now + connector.retryDelayMs_, .startInLoop)]
  attempts : ∃ putOff, after.attempts = connector.attempts ++ [⟨connector.now, putOff⟩]
  retryDelayMs_ : after.retryDelayMs_ = min (connector.retryDelayMs_ * 2) kMaxRetryDelayMs

theorem startInLoop_refused {connector : Connector} (wanted : connector.connect_ = true)
    {savedErrno : Nat} (retries : Retries savedErrno) :
    RefusedOnce connector (connector.startInLoop savedErrno) := by
  simp only [startInLoop, connect, wanted, if_true, not_proceeds_of_retries retries, if_false,
    retries, retry, fail, close, queueInLoop, runAfter]
  exact ⟨wanted.symm, rfl, rfl, rfl, ⟨_, rfl⟩, rfl⟩

end Connector

namespace TcpClient

/-- Whatever attempt the event makes is refused for now. -/
def Event.Refused : Event → Prop
  | .connect _ savedErrno | .timer _ savedErrno | .closeCallback _ savedErrno
  | .runFunctor savedErrno => Connector.Retries savedErrno
  | .enableRetry | .advance _ | .handleEvent _ _ | .doPendingFunctors => True

instance : DecidablePred Event.Refused
  | .connect _ _ | .timer _ _ | .closeCallback _ _ | .runFunctor _ => by
      unfold Event.Refused
      infer_instance
  | .enableRetry | .advance _ | .handleEvent _ _ | .doPendingFunctors =>
      inferInstanceAs (Decidable True)

def Event.isTimer : Event → Bool
  | .timer _ _ => true
  | _ => false

/-- The functors of this batch and the next. -/
def queued (client : TcpClient) : List Connector.Functor :=
  client.batch ++ client.connector_.pending_functors_

/-- A timer lies as far behind its attempt as the refusals until then demand. -/
def Deferred (connector : Connector) (timer : Int × Connector.Functor) : Prop :=
  ∃ failures attempt, connector.attempts[failures]? = some attempt ∧
    timer = (attempt.start + Connector.delayMs failures, .startInLoop)

/-- Nothing but attempts is waiting, one of them behind each timer that has not
`fired`. -/
structure Retrying (fired : Nat) (client : TcpClient) : Prop where
  connect_ : client.connector_.connect_ = client.connect_
  channel_ : client.connector_.channel_ = none
  connections : client.connections = []
  functors : ∀ functor ∈ client.queued, functor = .startInLoop
  deferred : ∀ timer ∈ client.connector_.timers, Deferred client.connector_ timer
  retryDelayMs_ : client.connector_.retryDelayMs_ =
    Connector.delayMs client.connector_.attempts.length
  timers : client.connector_.timers.length + fired = client.connector_.attempts.length

/-- In the queue there is one attempt, and one more for each timer that has
fired. -/
structure Refusing (fired : Nat) (client : TcpClient) : Prop extends Retrying fired client where
  queue : client.queued.length = if client.connect_ then fired + 1 else 0
  fresh : client.connect_ = false → client.connector_.attempts = []

variable {client : TcpClient} {fired : Nat}

theorem refusing_new (now : Int) : Refusing 0 (new now) := by
  refine ⟨⟨rfl, rfl, rfl, ?_, ?_, rfl, rfl⟩, rfl, fun _ => rfl⟩ <;>
    simp [queued, new, Connector.new]

theorem Deferred.snoc {connector after : Connector} {attempt : Attempt}
    (attempts : after.attempts = connector.attempts ++ [attempt])
    {timer : Int × Connector.Functor} (deferred : Deferred connector timer) :
    Deferred after timer := by
  obtain ⟨failures, earlier, recorded, due⟩ := deferred
  refine ⟨failures, earlier, ?_, due⟩
  have inside := (List.getElem?_eq_some_iff.mp recorded).1
  rw [attempts, List.getElem?_append_left inside]
  exact recorded

theorem Retrying.attempt (retrying : Retrying fired client) (used : client.connect_ = true)
    (queue : client.queued.length = fired) {savedErrno : Nat}
    (retries : Connector.Retries savedErrno) :
    Refusing fired { client with connector_ := client.connector_.startInLoop savedErrno } := by
  have refused := Connector.startInLoop_refused (retrying.connect_.trans used) retries
  obtain ⟨putOff, attempts⟩ := refused.attempts
  have queuedAfter : queued { client with
      connector_ := client.connector_.startInLoop savedErrno } =
      client.queued ++ [.startInLoop] := by
    rw [queued, refused.pending_functors_, ← List.append_assoc]
    rfl
  refine ⟨⟨?_, ?_, retrying.connections, ?_, ?_, ?_, ?_⟩, ?_, ?_⟩
  · exact refused.connect_.trans retrying.connect_
  · exact refused.channel_.trans retrying.channel_
  · rw [queuedAfter]
    intro functor membership
    rcases List.mem_append.mp membership with earlier | last
    · exact retrying.functors functor earlier
    · exact List.mem_singleton.mp last
  · rw [refused.timers]
    intro timer membership
    rcases List.mem_append.mp membership with earlier | last
    · exact (retrying.deferred timer earlier).snoc attempts
    · refine ⟨client.connector_.attempts.length, ⟨client.connector_.now, putOff⟩, ?_, ?_⟩
      · rw [attempts, List.getElem?_concat_length]
      · rw [List.mem_singleton.mp last, retrying.retryDelayMs_]
  · rw [refused.retryDelayMs_, retrying.retryDelayMs_, attempts, List.length_append,
      List.length_singleton, Connector.delayMs_succ]
  · have timers := retrying.timers
    rw [refused.timers, attempts, List.length_append, List.length_append]
    simp only [List.length_singleton]
    omega
  · rw [queuedAfter, List.length_append, queue, if_pos used]
    rfl
  · intro unused
    exact absurd (used.symm.trans unused) (by decide)

theorem Refusing.fired_eq (refusing : Refusing fired client) (unused : client.connect_ = false) :
    fired = 0 := by
  have timers := refusing.timers
  rw [refusing.fresh unused, List.length_nil] at timers
  omega

theorem Refusing.connect (refusing : Refusing fired client) (inLoop : Bool) {savedErrno : Nat}
    (retries : Connector.Retries savedErrno) :
    Refusing fired (client.connect inLoop savedErrno) := by
  unfold TcpClient.connect
  split
  next used => exact refusing
  next unused =>
    have unused : client.connect_ = false := Bool.eq_false_iff.mpr unused
    have none := refusing.fired_eq unused
    have queue := refusing.queue
    rw [unused, if_neg (by decide)] at queue
    have retrying : Retrying fired { client with
        connect_ := true
        connector_ := { client.connector_ with connect_ := true } } :=
      ⟨rfl, refusing.channel_, refusing.connections, refusing.functors, refusing.deferred,
        refusing.retryDelayMs_, refusing.timers⟩
    cases inLoop with
    | true => exact retrying.attempt rfl (queue.trans none.symm) retries
    | false =>
        have empty : client.queued = [] := List.length_eq_zero_iff.mp queue
        have queuedAfter : queued { client with
            connect_ := true
            connector_ := client.connector_.start false savedErrno } =
              client.queued ++ [.startInLoop] := (List.append_assoc _ _ _).symm
        rw [empty, List.nil_append] at queuedAfter
        refine ⟨⟨rfl, refusing.channel_, refusing.connections, ?_, refusing.deferred,
          refusing.retryDelayMs_, refusing.timers⟩, ?_, fun unused => by cases unused⟩
        · rw [queuedAfter]
          exact fun functor membership => List.mem_singleton.mp membership
        · rw [queuedAfter, none]
          rfl

theorem Refusing.timer (refusing : Refusing fired client) {index savedErrno : Nat}
    (retries : Connector.Retries savedErrno) {timer : Int × Connector.Functor}
    (found : client.connector_.timers[index]? = some timer) {after : TcpClient}
    (step : client.next (.timer index savedErrno) = some after) :
    Refusing (fired + 1) after := by
  obtain ⟨inside, rfl⟩ := List.getElem?_eq_some_iff.mp found
  obtain ⟨failures, attempt, recorded, isTimer⟩ :=
    refusing.deferred _ (List.getElem_mem inside)
  have used : client.connect_ = true := by
    by_contra unused
    rw [refusing.fresh (Bool.eq_false_iff.mpr unused)] at recorded
    cases recorded
  have queue := refusing.queue
  rw [if_pos used] at queue
  have retrying : Retrying (fired + 1) { client with
      connector_ := { client.connector_ with
        timers := client.connector_.timers.eraseIdx index } } := by
    refine ⟨refusing.connect_, refusing.channel_, refusing.connections, refusing.functors, ?_,
      refusing.retryDelayMs_, ?_⟩
    · intro other membership
      exact refusing.deferred other (List.mem_of_mem_eraseIdx membership)
    · have timers := refusing.timers
      dsimp only
      rw [List.length_eraseIdx_of_lt inside]
      omega
  have isStep := step
  simp only [TcpClient.next, found, isTimer, runFunctor, Option.some.injEq] at isStep
  subst isStep
  exact retrying.attempt used queue retries

/-- The oldest activation makes room for the one that its refusal queues. -/
theorem Refusing.runFunctor (refusing : Refusing fired client) {savedErrno : Nat}
    (retries : Connector.Retries savedErrno) (some : client.batch ≠ []) {after : TcpClient}
    (step : client.next (.runFunctor savedErrno) = .some after) : Refusing fired after := by
  obtain ⟨functor, rest, batch⟩ := List.exists_cons_of_ne_nil some
  have isStart : functor = .startInLoop := by
    apply refusing.functors
    rw [queued, batch]
    exact List.mem_cons_self
  have queue := refusing.queue
  rw [queued, batch, List.cons_append, List.length_cons] at queue
  have used : client.connect_ = true := by
    by_contra unused
    rw [if_neg unused] at queue
    omega
  rw [if_pos used] at queue
  have retrying : Retrying fired { client with batch := rest } := by
    refine ⟨refusing.connect_, refusing.channel_, refusing.connections, ?_, refusing.deferred,
      refusing.retryDelayMs_, refusing.timers⟩
    intro other membership
    apply refusing.functors
    rw [queued, batch]
    exact List.mem_cons_of_mem _ membership
  simp only [TcpClient.next, batch, isStart, TcpClient.runFunctor, Option.some.injEq] at step
  subst step
  exact retrying.attempt used (Nat.add_right_cancel queue) retries

theorem Refusing.next (refusing : Refusing fired client) {event : Event}
    (enabled : client.Enabled event) (refused : event.Refused) {after : TcpClient}
    (step : client.next event = some after) :
    Refusing (fired + if event.isTimer then 1 else 0) after := by
  cases event with
  | enableRetry | advance =>
      cases step
      obtain ⟨⟨connect_, channel_, connections, functors, deferred, retryDelayMs_, timers⟩,
        queue, fresh⟩ := refusing
      exact ⟨⟨connect_, channel_, connections, functors, deferred, retryDelayMs_, timers⟩,
        queue, fresh⟩
  | connect inLoop savedErrno =>
      cases step
      exact refusing.connect inLoop refused
  | handleEvent return_events_ err =>
      obtain ⟨channel, present, -⟩ := enabled
      rw [refusing.channel_] at present
      cases present
  | timer index savedErrno =>
      obtain ⟨timer, found, -⟩ := enabled
      exact refusing.timer refused found step
  | closeCallback connId savedErrno =>
      obtain ⟨conn, membership, -⟩ := enabled
      rw [refusing.connections] at membership
      cases membership
  | doPendingFunctors =>
      have empty : client.batch = [] := enabled
      cases step
      obtain ⟨⟨connect_, channel_, connections, functors, deferred, retryDelayMs_, timers⟩,
        queue, fresh⟩ := refusing
      have same : queued { client with
          batch := client.connector_.pending_functors_
          connector_ := { client.connector_ with pending_functors_ := [] } } =
          client.queued := by
        rw [queued, queued, empty, List.append_nil, List.nil_append]
      refine ⟨⟨connect_, channel_, connections, ?_, deferred, retryDelayMs_, timers⟩, ?_, fresh⟩
      · rw [same]
        exact functors
      · rw [same]
        exact queue
  | runFunctor savedErrno => exact refusing.runFunctor refused enabled step

/-- As long as every attempt is refused for now, a client that has been told to
connect and is never stopped has, in every state, one attempt in the queue of
its loop, and one more for each timer that has fired, whatever the delay has
grown to; the timers that have not fired stand behind their attempts by 500 ms,
doubled with each refusal up to half a minute. -/
theorem refused_attempts_pile_up {events : List Event}
    (execution : system.Execution events client) (refused : ∀ event ∈ events, event.Refused)
    (called : client.connect_ = true) :
    let fired := events.countP Event.isTimer
    client.queued = List.replicate (fired + 1) .startInLoop ∧
    client.connector_.timers.length + fired = client.connector_.attempts.length ∧
    client.activations = client.connector_.attempts.length + 1 ∧
    ∀ timer ∈ client.connector_.timers, Deferred client.connector_ timer := by
  intro fired
  have refusing : Refusing fired client := by
    refine execution.history (fun past reached => (∀ event ∈ past, event.Refused) →
      Refusing (past.countP Event.isTimer) reached) ?_ ?_ refused
    · rintro _ ⟨now, rfl⟩ _
      exact refusing_new now
    · rintro past middle event after kept ⟨enabled, step⟩ refused
      obtain ⟨earlier, last⟩ := List.forall_mem_append.mp refused
      have next := (kept earlier).next enabled (List.forall_mem_singleton.mp last) step
      rw [List.countP_append, List.countP_singleton]
      exact next
  have queue := refusing.queue
  rw [if_pos called] at queue
  have queued : client.queued = List.replicate (fired + 1) .startInLoop :=
    List.eq_replicate_iff.mpr ⟨queue, refusing.functors⟩
  refine ⟨queued, refusing.timers, ?_, refusing.deferred⟩
  have functors : client.connector_.timers.map Prod.snd =
      List.replicate client.connector_.timers.length .startInLoop := by
    apply List.eq_replicate_iff.mpr
    refine ⟨List.length_map _, ?_⟩
    intro functor membership
    obtain ⟨timer, isTimer, rfl⟩ := List.mem_map.mp membership
    obtain ⟨failures, attempt, -, due⟩ := refusing.deferred timer isTimer
    rw [due]
  have timers := refusing.timers
  rw [activations, ← TcpClient.queued, queued, functors, List.count_append,
    List.count_replicate_self, List.count_replicate_self]
  omega

/-- Half a second after the first refusal its timer fires, and from then on two
attempts wait for each turn of the loop. -/
theorem refused_attempts_pile_up_second :
    let events : List Event := [.connect true ECONNREFUSED, .advance 500,
      .timer 0 ECONNREFUSED, .doPendingFunctors, .runFunctor ECONNREFUSED]
    ∃ client, system.Execution events client ∧
      client.connector_.timers = [(1500, .startInLoop), (2500, .startInLoop)] ∧
      client.queued = List.replicate 2 .startInLoop ∧ client.activations = 4 := by
  intro events
  have execution := System.Execution.foldl_getD system Enabled
    (fun _ _ _ enabled taken => ⟨enabled, taken⟩) ⟨0, rfl⟩
    (show System.Allowed _ _ (new 0) events by decide)
  have result := refused_attempts_pile_up execution (by decide) (by decide)
  exact ⟨_, execution, by decide, result.1, by decide⟩

end TcpClient

end GdRpc.Net
