import GdRpc.Net.TcpClient

/-!
# One attempt at a time

As long as nothing calls `retry` there is one token: the activation of
`startInLoop`, the connecting channel, or the connection. `retry` makes two
activations out of it, one for now and one for later.
-/

namespace GdRpc.Net

open GdRpc.Library

namespace TcpClient


/-- The functors to run and the timers to fire that call `startInLoop`. -/
def activations (client : TcpClient) : Nat :=
  (client.batch ++ client.connector_.pending_functors_ ++
    client.connector_.timers.map Prod.snd).count .startInLoop

/-- The channel that waits for the end of `::connect`. -/
def inFlight (client : TcpClient) : Nat :=
  if client.connector_.state_ = .kConnecting ∧ client.connector_.channel_.isSome then 1 else 0

def established (client : TcpClient) : Nat :=
  client.connections.countP fun conn => !conn.closed

/-- A client makes one attempt at a time, starts it from rest, and not before
the delay after a failure is over. -/
structure OneAttempt (client : TcpClient) : Prop where
  single : client.activations + client.inFlight + client.established ≤ 1
  entered : ∀ entry ∈ client.connector_.entered, entry = (.kDisconnected, none)
  delayed : ∀ attempt ∈ client.connector_.attempts, ∀ bound ∈ attempt.putOff,
    bound ≤ attempt.start

/-- The event does not call `retry`, and a connection that makes the client restart
is up until then. -/
def Fit (client : TcpClient) : Event → Prop
  | .connect _ savedErrno | .timer _ savedErrno | .runFunctor savedErrno =>
      ¬ Connector.Retries savedErrno
  | .closeCallback connId savedErrno =>
      client.retry_ ∧ client.connect_ → ¬ Connector.Retries savedErrno ∧
        ∃ conn ∈ client.connections, conn.connId = connId ∧ conn.closed = false
  | .handleEvent return_events_ err =>
      .errorCallback_ ∉ Channel.handleEventWithGuard return_events_ ∧
      (.writeCallback_ ∈ Channel.handleEventWithGuard return_events_ → err = 0)
  | .enableRetry | .advance _ | .doPendingFunctors => True

instance (client : TcpClient) : ∀ event, Decidable (client.Fit event)
  | .connect _ _ | .timer _ _ | .runFunctor _ | .closeCallback _ _ | .handleEvent _ _ => by
      unfold Fit
      infer_instance
  | .enableRetry | .advance _ | .doPendingFunctors => inferInstanceAs (Decidable True)

variable {client : TcpClient}

/-- One call of `retry` schedules two activations. -/
theorem activations_retry (client : TcpClient) (wanted : client.connector_.connect_ = true)
    (sockfd : Nat) :
    activations { client with connector_ := client.connector_.retry sockfd } =
      client.activations + 2 := by
  simp only [activations, Connector.retry, Connector.fail, Connector.close, wanted, if_true,
    Connector.queueInLoop, Connector.runAfter, List.count_append, List.map_append,
    List.map_cons, List.map_nil, List.count_cons_self, List.count_nil]
  omega

/-! ## The connector in runs without `retry` -/

/-- Nothing is under way in the connector: the next attempt may start. -/
structure Rested (connector : Connector) : Prop where
  state_ : connector.state_ = .kDisconnected
  channel_ : connector.channel_ = none
  putOff : connector.putOff = none

/-- What an attempt that does not come to `retry` makes of a rested connector. -/
structure Attempted (connector after : Connector) : Prop where
  connect_ : after.connect_ = connector.connect_
  functors : after.pending_functors_ = connector.pending_functors_
  timers : after.timers = connector.timers
  attempts : after.attempts = connector.attempts ++ [⟨connector.now, none⟩]
  outcome :
    (after.state_ = .kConnecting ∧ after.channel_.isSome ∧ after.putOff = none ∧
      after.entered = connector.entered ++ [(.kDisconnected, none)]) ∨
    (after.channel_ = none ∧ after.entered = connector.entered)

theorem Rested.connect {connector : Connector} (rested : Rested connector)
    {savedErrno : Nat} (settles : ¬ Connector.Retries savedErrno) :
    Attempted connector (connector.connect savedErrno) := by
  obtain ⟨disconnected, null, none⟩ := rested
  unfold Connector.connect
  dsimp only
  split
  next proceeds =>
    simp only [Connector.connecting, Connector.resetChannel, null]
    refine ⟨rfl, rfl, rfl, ?_, .inl ⟨rfl, rfl, rfl, ?_⟩⟩
    · simp [none]
    · simp [disconnected]
  next stuck =>
    refine ⟨rfl, rfl, rfl, ?_, .inr ⟨null, rfl⟩⟩
    simp [Connector.close, Connector.fail, none]

/-- What holds in every phase of such a run: no timer, no functor but
activations and destructions, and records as they should be. -/
structure Tidy (client : TcpClient) : Prop where
  connect_ : client.connector_.connect_ = client.connect_
  timers : client.connector_.timers = []
  functors : ∀ functor ∈ client.batch ++ client.connector_.pending_functors_,
    functor = .startInLoop ∨ ∃ connection, functor = .connectDestroyed connection
  entered : ∀ entry ∈ client.connector_.entered, entry = (.kDisconnected, none)
  attempts : ∀ attempt ∈ client.connector_.attempts, attempt.putOff = none

/-- The phases of the run; the token is the activation, the channel or the
connection. -/
inductive Phase (client : TcpClient) : Prop where
  | unused (fresh : client.connect_ = false) (activations : client.activations = 0)
      (established : client.established = 0) (rested : Rested client.connector_)
  | scheduled (used : client.connect_ = true) (activations : client.activations = 1)
      (established : client.established = 0) (rested : Rested client.connector_)
  | connecting (used : client.connect_ = true) (activations : client.activations = 0)
      (established : client.established = 0) (state : client.connector_.state_ = .kConnecting)
      (channel : client.connector_.channel_.isSome) (prompt : client.connector_.putOff = none)
  | connected (used : client.connect_ = true) (activations : client.activations = 0)
      (established : client.established = 1) (null : client.connector_.channel_ = none)
      (prompt : client.connector_.putOff = none)
  | ended (used : client.connect_ = true) (activations : client.activations = 0)
      (established : client.established = 0) (null : client.connector_.channel_ = none)

theorem Phase.congr {after : TcpClient} (phase : client.Phase)
    (connect_ : after.connect_ = client.connect_)
    (activations : after.activations = client.activations)
    (established : after.established = client.established)
    (state_ : after.connector_.state_ = client.connector_.state_)
    (channel_ : after.connector_.channel_ = client.connector_.channel_)
    (putOff : after.connector_.putOff = client.connector_.putOff) : after.Phase := by
  have rest : Rested client.connector_ → Rested after.connector_ := fun rested =>
    ⟨state_.trans rested.state_, channel_.trans rested.channel_, putOff.trans rested.putOff⟩
  cases phase with
  | unused fresh none down rested =>
      exact .unused (connect_.trans fresh) (activations.trans none) (established.trans down)
        (rest rested)
  | scheduled used one down rested =>
      exact .scheduled (connect_.trans used) (activations.trans one) (established.trans down)
        (rest rested)
  | connecting used none down state channel prompt =>
      refine .connecting (connect_.trans used) (activations.trans none)
        (established.trans down) (state_.trans state) ?_ (putOff.trans prompt)
      rw [channel_]
      exact channel
  | connected used none one null prompt =>
      exact .connected (connect_.trans used) (activations.trans none) (established.trans one)
        (channel_.trans null) (putOff.trans prompt)
  | ended used none down null =>
      exact .ended (connect_.trans used) (activations.trans none) (established.trans down)
        (channel_.trans null)

structure Orderly (client : TcpClient) : Prop where
  tidy : client.Tidy
  phase : client.Phase

theorem inFlight_of_null (null : client.connector_.channel_ = none) : client.inFlight = 0 := by
  simp [inFlight, null]

theorem Orderly.oneAttempt (orderly : client.Orderly) : client.OneAttempt := by
  obtain ⟨tidy, phase⟩ := orderly
  refine ⟨?_, tidy.entered, ?_⟩
  · cases phase with
    | unused fresh activations established rested
    | scheduled used activations established rested =>
        simp [activations, established, inFlight_of_null rested.channel_]
    | connecting used activations established state channel prompt =>
        simp [activations, established, inFlight, state, channel]
    | connected used activations established null prompt
    | ended used activations established null =>
        simp [activations, established, inFlight_of_null null]
  · intro attempt membership bound putOff
    rw [tidy.attempts attempt membership] at putOff
    cases putOff

theorem Tidy.attempt (tidy : client.Tidy) (used : client.connect_ = true)
    (activations : client.activations = 0) (established : client.established = 0)
    (rested : Rested client.connector_) {savedErrno : Nat}
    (settles : ¬ Connector.Retries savedErrno) :
    Orderly { client with connector_ := client.connector_.startInLoop savedErrno } := by
  have wanted : client.connector_.connect_ = true := tidy.connect_.trans used
  have attempted := rested.connect settles
  rw [Connector.startInLoop, if_pos wanted]
  have same : ({ client with connector_ := client.connector_.connect savedErrno } :
      TcpClient).activations = client.activations := by
    simp only [TcpClient.activations, attempted.functors, attempted.timers]
  refine ⟨⟨?_, ?_, ?_, ?_, ?_⟩, ?_⟩
  · exact attempted.connect_.trans tidy.connect_
  · exact attempted.timers.trans tidy.timers
  · dsimp only
    rw [attempted.functors]
    exact tidy.functors
  · intro entry membership
    rcases attempted.outcome with ⟨_, _, _, entered⟩ | ⟨_, entered⟩
    · dsimp only at membership
      rw [entered, List.mem_append, List.mem_singleton] at membership
      exact membership.elim (tidy.entered entry) id
    · dsimp only at membership
      rw [entered] at membership
      exact tidy.entered entry membership
  · intro attempt membership
    dsimp only at membership
    rw [attempted.attempts, List.mem_append, List.mem_singleton] at membership
    rcases membership with old | rfl
    · exact tidy.attempts attempt old
    · rfl
  · rcases attempted.outcome with ⟨state, channel, prompt, _⟩ | ⟨null, _⟩
    · exact .connecting used (same.trans activations) established state channel prompt
    · exact .ended used (same.trans activations) established null

/-! ## One step -/

theorem Orderly.new (now : Int) : Orderly (new now) := by
  refine ⟨⟨rfl, rfl, ?_, ?_, ?_⟩, .unused rfl rfl rfl ⟨rfl, rfl, rfl⟩⟩ <;>
    simp [TcpClient.new, Connector.new]

theorem Orderly.connect (orderly : client.Orderly) (inLoop : Bool) {savedErrno : Nat}
    (settles : ¬ Connector.Retries savedErrno) :
    (client.connect inLoop savedErrno).Orderly := by
  obtain ⟨tidy, phase⟩ := orderly
  unfold TcpClient.connect
  split
  next used => exact ⟨tidy, phase⟩
  next fresh =>
    cases phase with
    | scheduled used | connecting used | connected used | ended used => exact absurd used fresh
    | unused _ activations established rested =>
        let wanted : TcpClient := { client with
          connect_ := true
          connector_ := { client.connector_ with connect_ := true } }
        have tidyWanted : wanted.Tidy :=
          ⟨rfl, tidy.timers, tidy.functors, tidy.entered, tidy.attempts⟩
        have restedWanted : Rested wanted.connector_ :=
          ⟨rested.state_, rested.channel_, rested.putOff⟩
        cases inLoop with
        | true => exact tidyWanted.attempt rfl activations established restedWanted settles
        | false =>
            refine ⟨⟨rfl, tidy.timers, ?_, tidy.entered, tidy.attempts⟩,
              .scheduled rfl ?_ established ⟨rested.state_, rested.channel_, rested.putOff⟩⟩
            · intro functor membership
              simp only [Connector.start, Connector.queueInLoop, Bool.false_eq_true, if_false,
                ← List.append_assoc, List.mem_append, List.mem_singleton] at membership
              rcases membership with old | last
              · exact tidy.functors functor (List.mem_append.mpr old)
              · exact .inl last
            · simp only [TcpClient.activations, Connector.start, Connector.queueInLoop,
                Bool.false_eq_true, if_false] at activations ⊢
              simp only [List.count_append] at activations ⊢
              simp
              omega

theorem Orderly.callHandler (orderly : client.Orderly) {err : Nat}
    {handler : Channel.Handler} {after : TcpClient} (quiet : handler ≠ .errorCallback_)
    (success : handler = .writeCallback_ → err = 0)
    (called : client.callHandler err handler = some after) : after.Orderly := by
  obtain ⟨tidy, phase⟩ := orderly
  cases handler with
  | errorCallback_ => exact absurd rfl quiet
  | closeCallback_ | readCallback_ =>
      cases called
      exact ⟨tidy, phase⟩
  | writeCallback_ =>
      have ok := success rfl
      subst ok
      simp only [TcpClient.callHandler, Connector.handleWrite] at called
      by_cases waiting : client.connector_.state_ = .kConnecting
      · cases phase with
        | unused _ _ _ rested | scheduled _ _ _ rested =>
            rw [rested.state_] at waiting
            cases waiting
        | connected _ _ _ null | ended _ _ _ null => simp [waiting, null] at called
        | connecting used activations established state channel prompt =>
            obtain ⟨inFlight, present⟩ := Option.isSome_iff_exists.mp channel
            have wanted := tidy.connect_.trans used
            simp only [waiting, present, wanted, ne_eq, not_true_eq_false, if_true, if_false,
              Option.map_some, Option.some.injEq] at called
            subst called
            refine ⟨⟨used.symm, tidy.timers, tidy.functors, tidy.entered, tidy.attempts⟩,
              .connected used activations ?_ rfl prompt⟩
            simp only [TcpClient.established, newConnection,
              List.countP_append] at established ⊢
            simp [established]
      · simp only [if_neg waiting, Option.map_some, Option.some.injEq] at called
        subst called
        exact ⟨tidy, phase⟩

theorem Orderly.handlers {err : Nat} {handlers : List Channel.Handler} {after : TcpClient}
    (orderly : client.Orderly) (quiet : .errorCallback_ ∉ handlers)
    (success : .writeCallback_ ∈ handlers → err = 0)
    (called : handlers.foldlM (fun client handler => client.callHandler err handler) client =
      some after) : after.Orderly := by
  induction handlers generalizing client with
  | nil =>
      cases called
      exact orderly
  | cons handler handlers inductionHypothesis =>
      rw [List.foldlM_cons] at called
      obtain ⟨middle, first, later⟩ := Option.bind_eq_some_iff.mp called
      have now := orderly.callHandler (fun error => quiet (by simp [error]))
        (fun write => success (by simp [write])) first
      exact inductionHypothesis now (fun member => quiet (List.mem_cons_of_mem _ member))
        (fun member => success (List.mem_cons_of_mem _ member)) later

theorem Orderly.runFunctor {functor : Connector.Functor} {rest : List Connector.Functor}
    (orderly : client.Orderly) (here : client.batch = functor :: rest) {savedErrno : Nat}
    (settles : ¬ Connector.Retries savedErrno) {after : TcpClient}
    (ran : ({ client with batch := rest } : TcpClient).runFunctor functor savedErrno =
      some after) : after.Orderly := by
  obtain ⟨tidy, phase⟩ := orderly
  have tidyRest : Tidy { client with batch := rest } := by
    refine ⟨tidy.connect_, tidy.timers, ?_, tidy.entered, tidy.attempts⟩
    intro other membership
    apply tidy.functors other
    rw [here]
    exact List.mem_cons_of_mem _ membership
  have count : client.activations =
      (if functor = .startInLoop then 1 else 0) +
        TcpClient.activations { client with batch := rest } := by
    simp only [TcpClient.activations, here, List.cons_append, List.count_cons, beq_iff_eq]
    omega
  rcases tidy.functors functor (by simp [here]) with rfl | ⟨connection, rfl⟩
  · cases ran
    rw [if_pos rfl] at count
    cases phase with
    | unused _ activations | connecting _ activations | connected _ activations
    | ended _ activations => omega
    | scheduled used activations established rested =>
        exact tidyRest.attempt used (by omega) established rested settles
  · cases ran
    rw [if_neg (by simp), Nat.zero_add] at count
    exact ⟨tidyRest, phase.congr rfl count.symm rfl rfl rfl rfl⟩

theorem closeConnection_established {conn : ClientConnection} {connId : Nat}
    (membership : conn ∈ client.connections) (own : conn.connId = connId)
    (alive : conn.closed = false) (single : client.established = 1) :
    (client.closeConnection connId).established = 0 := by
  have split := List.countP_eq_countP_filter_add client.connections
    (fun conn => !conn.closed) (fun conn => conn.connId = connId)
  have positive : 0 < (client.connections.filter fun conn => conn.connId = connId).countP
      fun conn => !conn.closed :=
    List.countP_pos_iff.mpr ⟨conn, by simp [membership, own], by simp [alive]⟩
  have others : (client.connections.filter fun conn => !decide (conn.connId = connId)).countP
      (fun conn => !conn.closed) = 0 := by
    unfold established at single
    omega
  simp only [established, closeConnection, List.countP_map]
  rw [← others, List.countP_filter]
  apply List.countP_congr
  intro other _
  by_cases same : other.connId = connId <;> simp [same]

theorem closeConnection_established_le (client : TcpClient) (connId : Nat) :
    (client.closeConnection connId).established ≤ client.established := by
  simp only [established, closeConnection, List.countP_map]
  apply List.countP_mono_left
  intro conn _ up
  by_cases same : conn.connId = connId
  · simp [same] at up
  · simpa [same] using up

/-- What `removeConnection` does before it looks whether to restart. -/
def released (client : TcpClient) (connId : Nat) : TcpClient :=
  { client.closeConnection connId with
    connection_ := none
    connector_ := client.connector_.queueInLoop (.connectDestroyed connId) }

theorem activations_released (client : TcpClient) (connId : Nat) :
    (client.released connId).activations = client.activations := by
  simp [TcpClient.activations, released, closeConnection, Connector.queueInLoop]

theorem Tidy.released (tidy : client.Tidy) (connId : Nat) : (client.released connId).Tidy := by
  refine ⟨tidy.connect_, tidy.timers, ?_, tidy.entered, tidy.attempts⟩
  intro functor member
  change functor ∈ client.batch ++ (client.connector_.pending_functors_ ++ _) at member
  rw [← List.append_assoc, List.mem_append, List.mem_singleton] at member
  exact member.elim (tidy.functors functor) fun last => .inr ⟨connId, last⟩

/-- Whichever connection it is, a client that does not restart keeps its token or
loses it. -/
theorem Orderly.released (orderly : client.Orderly) (connId : Nat) :
    (client.released connId).Orderly := by
  obtain ⟨tidy, phase⟩ := orderly
  have same := client.activations_released connId
  have fewer : (client.released connId).established ≤ client.established :=
    client.closeConnection_established_le connId
  refine ⟨tidy.released connId, ?_⟩
  cases phase with
  | unused fresh activations established rested =>
      exact .unused fresh (same.trans activations) (by omega)
        ⟨rested.state_, rested.channel_, rested.putOff⟩
  | scheduled used activations established rested =>
      exact .scheduled used (same.trans activations) (by omega)
        ⟨rested.state_, rested.channel_, rested.putOff⟩
  | connecting used activations established state channel prompt =>
      exact .connecting used (same.trans activations) (by omega) state channel prompt
  | connected used activations established null prompt =>
      by_cases up : (client.released connId).established = 1
      · exact .connected used (same.trans activations) up null prompt
      · exact .ended used (same.trans activations) (by omega) null
  | ended used activations established null =>
      exact .ended used (same.trans activations) (by omega) null

/-- The established connection closes, and the client restarts from rest, with the
destruction of the old connection queued. -/
theorem Orderly.restart (orderly : client.Orderly) {connId : Nat}
    (alive : ∃ conn ∈ client.connections, conn.connId = connId ∧ conn.closed = false)
    {savedErrno : Nat} (settles : ¬ Connector.Retries savedErrno) :
    Orderly { client.released connId with
      connector_ := (client.released connId).connector_.restart savedErrno } := by
  obtain ⟨tidy, phase⟩ := orderly
  obtain ⟨conn, membership, own, alive⟩ := alive
  have positive : 0 < client.established :=
    List.countP_pos_iff.mpr ⟨conn, membership, by simp [alive]⟩
  cases phase with
  | unused _ _ established | scheduled _ _ established | connecting _ _ established
  | ended _ _ established => omega
  | connected used activations established null prompt =>
      have rest : (client.released connId).established = 0 :=
        closeConnection_established membership own alive established
      have tidyReleased := tidy.released connId
      have activationsReleased := (client.activations_released connId).trans activations
      let reset : TcpClient := { client.released connId with
        connector_ := { (client.released connId).connector_ with
          state_ := .kDisconnected
          retryDelayMs_ := Connector.kInitRetryDelayMs
          connect_ := true } }
      have tidyReset : reset.Tidy :=
        ⟨used.symm, tidyReleased.timers, tidyReleased.functors, tidyReleased.entered,
          tidyReleased.attempts⟩
      exact tidyReset.attempt used activationsReleased rest ⟨rfl, null, prompt⟩ settles

theorem Orderly.closeCallback (orderly : client.Orderly) {connId savedErrno : Nat}
    (fit : client.Fit (.closeCallback connId savedErrno)) :
    ((client.closeConnection connId).removeConnection connId savedErrno).Orderly := by
  have eq : (client.closeConnection connId).removeConnection connId savedErrno =
      { client.released connId with connector_ :=
          if client.retry_ ∧ client.connect_ then
            (client.released connId).connector_.restart savedErrno
          else (client.released connId).connector_ } := rfl
  rw [eq]
  split
  next restarts =>
    obtain ⟨settles, alive⟩ := fit restarts
    exact orderly.restart alive settles
  next stays => exact orderly.released connId

theorem Orderly.next (orderly : client.Orderly) {event : Event}
    (enabled : client.Enabled event) (fit : client.Fit event) {after : TcpClient}
    (step : client.next event = some after) : after.Orderly := by
  cases event with
  | enableRetry =>
      cases step
      have tidy := orderly.tidy
      exact ⟨⟨tidy.connect_, tidy.timers, tidy.functors, tidy.entered, tidy.attempts⟩,
        orderly.phase.congr rfl rfl rfl rfl rfl rfl⟩
  | connect inLoop savedErrno =>
      cases step
      exact orderly.connect inLoop fit
  | advance now =>
      cases step
      have tidy := orderly.tidy
      exact ⟨⟨tidy.connect_, tidy.timers, tidy.functors, tidy.entered, tidy.attempts⟩,
        orderly.phase.congr rfl rfl rfl rfl rfl rfl⟩
  | handleEvent return_events_ err => exact orderly.handlers fit.1 fit.2 step
  | timer index savedErrno =>
      obtain ⟨timer, here, _⟩ := enabled
      rw [orderly.tidy.timers] at here
      cases here
  | closeCallback connId savedErrno =>
      cases step
      exact orderly.closeCallback fit
  | doPendingFunctors =>
      cases step
      have tidy := orderly.tidy
      have empty : client.batch = [] := enabled
      refine ⟨⟨tidy.connect_, tidy.timers, ?_, tidy.entered, tidy.attempts⟩,
        orderly.phase.congr rfl ?_ rfl rfl rfl rfl⟩
      · simpa [empty] using tidy.functors
      · simp [activations, empty]
  | runFunctor savedErrno =>
      cases batch : client.batch with
      | nil => exact absurd batch enabled
      | cons functor rest =>
          simp only [TcpClient.next, batch] at step
          exact orderly.runFunctor batch fit step

/-- The runs in which every step is fit. -/
def fitSystem : System TcpClient Event where
  initial client := ∃ now, client = new now
  step client event after :=
    (client.Enabled event ∧ client.Fit event) ∧ client.next event = some after

/-- In every run in which nothing calls `retry` and only a connection that is up
makes the client restart, the client makes one attempt at a time. -/
theorem one_attempt_of_fit {events : List Event}
    (execution : fitSystem.Execution events client) : client.OneAttempt := by
  have orderly : client.Orderly := by
    apply execution.invariant Orderly
    · rintro start ⟨now, rfl⟩
      exact .new now
    · rintro before event after orderly ⟨⟨enabled, fit⟩, step⟩
      exact orderly.next enabled fit step
  exact orderly.oneAttempt

/-- One step of a run, wherever the step has a successor. -/
def advance (client : TcpClient) (event : Event) : TcpClient :=
  (client.next event).getD client

/-- Connect, close, reconnect. -/
theorem one_attempt_of_fit_reconnect :
    let events : List Event :=
      [.enableRetry, .connect false 0, .doPendingFunctors, .runFunctor EINPROGRESS,
        .handleEvent Channel.EPOLLOUT 0, .advance 10, .closeCallback 1 EINPROGRESS]
    let client := events.foldl advance (new 0)
    client.connector_.attempts.length = 2 ∧ client.inFlight = 1 ∧ client.OneAttempt := by
  intro events client
  have execution : fitSystem.Execution events client :=
    System.Execution.foldl_getD fitSystem
      (fun client event => client.Enabled event ∧ client.Fit event)
      (fun _ _ _ permitted taken => ⟨permitted, taken⟩) ⟨0, rfl⟩ (by decide)
  exact ⟨by decide, by decide, one_attempt_of_fit execution⟩

/-- The first attempt is refused, the second one succeeds at once, and the
timer of the first then starts a third. -/
def refusedOnce : List Event :=
  [.connect true ECONNREFUSED, .doPendingFunctors, .runFunctor EINPROGRESS,
    .handleEvent Channel.EPOLLOUT 0, .advance 500, .timer 0 EINPROGRESS]

/-- The client then has two tokens, has entered `connecting` while connected,
and has not waited. -/
theorem refused_attempt_doubles :
    ∃ events client, system.Execution events client ∧
      ¬ client.activations + client.inFlight + client.established ≤ 1 ∧
      (¬ ∀ entry ∈ client.connector_.entered, entry = (.kDisconnected, none)) ∧
      ¬ ∀ attempt ∈ client.connector_.attempts, ∀ bound ∈ attempt.putOff,
        bound ≤ attempt.start := by
  have execution : system.Execution refusedOnce (refusedOnce.foldl advance (new 0)) :=
    System.Execution.foldl_getD system Enabled
      (fun _ _ _ enabled taken => ⟨enabled, taken⟩) ⟨0, rfl⟩ (by decide)
  exact ⟨refusedOnce, _, execution, by decide, by decide, by decide⟩

end TcpClient

end GdRpc.Net
