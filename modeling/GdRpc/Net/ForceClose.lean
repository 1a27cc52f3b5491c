import GdRpc.Net.Lifecycle

/-!
# `forceClose`

`forceClose` leaves `kConnected` at once and closes the connection in a functor;
in `kDisconnecting` it does nothing. The owner destroys the connection only
after it has been told by `closeCallback_`.
-/

namespace GdRpc.Net

open GdRpc.Library

universe u

namespace TcpConnection

/-- Down, with no interest left and reported to the owner. -/
structure Closed (connection : TcpConnection) : Prop where
  state_ : connection.state_ = .kDisconnected
  channel_ : connection.channel_.isNoneEvent = true
  closes : 0 < connection.closes

/-- A connection that is down, or has told its owner so, is closed. -/
def EndsClosed (connection : TcpConnection) : Prop :=
  connection.state_ = .kDisconnected ∨ 0 < connection.closes → connection.Closed

theorem EndsClosed.congr {before after : TcpConnection} (ends : before.EndsClosed)
    (state : after.state_ = before.state_) (channel : after.channel_ = before.channel_)
    (closes : after.closes = before.closes) : after.EndsClosed := by
  intro ended
  rw [state, closes] at ended
  obtain ⟨down, idle, told⟩ := ends ended
  exact ⟨state.trans down, channel ▸ idle, closes ▸ told⟩

theorem EndsClosed.of_up {before after : TcpConnection} (ends : before.EndsClosed)
    (alive : before.state_ ≠ .kDisconnected) (closes : after.closes = before.closes)
    (state : after.state_ ≠ .kDisconnected) : after.EndsClosed := by
  rintro (down | told)
  · exact absurd down state
  · exact absurd (ends (Or.inr (closes ▸ told))).state_ alive

theorem Quiet.closes {before after : TcpConnection} (same : before.Quiet after) :
    after.closes = before.closes := by
  rw [TcpConnection.closes, TcpConnection.closes, same.ownerCalls]

theorem EndsClosed.quiet {before after : TcpConnection} (ends : before.EndsClosed)
    (alive : before.state_ ≠ .kDisconnected) (same : before.Quiet after) :
    after.EndsClosed :=
  ends.of_up alive same.closes (by rwa [same.state_])

theorem handleClose_closed (connection : TcpConnection) : connection.handleClose.Closed where
  state_ := rfl
  channel_ := rfl
  closes := by
    rw [closes_of_calls connection.ownerCalls_handleClose]
    exact Nat.succ_pos _

theorem handleClose_endsClosed (connection : TcpConnection) : connection.handleClose.EndsClosed :=
  fun _ => connection.handleClose_closed

theorem EndsClosed.sendInLoop {connection : TcpConnection} (ends : connection.EndsClosed)
    (s : Bytes) (result : WriteResult) : (connection.sendInLoop s result).EndsClosed := by
  by_cases down : connection.state_ = .kDisconnected
  · rw [TcpConnection.sendInLoop, if_pos down]
    exact ends
  · exact ends.quiet down (connection.sendInLoop_quiet s result)

theorem EndsClosed.shutdownInLoop {connection : TcpConnection} (ends : connection.EndsClosed) :
    connection.shutdownInLoop.EndsClosed := by
  rw [shutdownInLoop_eq]
  exact ends.congr rfl rfl rfl

theorem EndsClosed.forceCloseInLoop {connection : TcpConnection} (ends : connection.EndsClosed) :
    connection.forceCloseInLoop.EndsClosed := by
  unfold TcpConnection.forceCloseInLoop
  split
  · exact connection.handleClose_endsClosed
  · exact ends

theorem Closed.connectDestroyed {connection : TcpConnection} (closed : connection.Closed) :
    connection.connectDestroyed = connection := by
  simp [TcpConnection.connectDestroyed, compareExchange, closed.state_]

theorem EndsClosed.runFunctor {connection : TcpConnection} (ends : connection.EndsClosed)
    {functor : Functor} (told : functor = .connectDestroyed → 0 < connection.closes)
    (result : WriteResult) : (connection.runFunctor functor result).EndsClosed := by
  cases functor with
  | sendInLoop s => exact ends.sendInLoop s result
  | shutdownInLoop => exact ends.shutdownInLoop
  | forceCloseInLoop => exact ends.forceCloseInLoop
  | connectDestroyed =>
      rw [TcpConnection.runFunctor, (ends (Or.inr (told rfl))).connectDestroyed]
      exact ends
  | writeCompleteCallback | highWaterMarkCallback => exact ends

theorem EndsClosed.handleWrite {connection : TcpConnection} (ends : connection.EndsClosed)
    (result : WriteResult) : (connection.handleWrite result).EndsClosed := by
  by_cases down : connection.state_ = .kDisconnected
  · have idle : connection.channel_.isWriting = false :=
      Channel.isWriting_of_isNoneEvent (ends (Or.inl down)).channel_
    simp only [TcpConnection.handleWrite, idle]
    exact ends
  · exact ends.quiet down (connection.handleWrite_quiet result)

theorem EndsClosed.handleRead {connection : TcpConnection} (ends : connection.EndsClosed)
    (result : ReadvResult) : (connection.handleRead result).EndsClosed := by
  rcases connection.handleRead_cases result with
    ⟨data, inputBuffer_, -, -, eq⟩ | ⟨inputBuffer_, -, eq⟩ | ⟨errno, -, eq⟩
  · rw [eq]
    exact ends.congr rfl rfl (by simp [TcpConnection.closes, callOwner])
  · rw [eq]
    exact handleClose_endsClosed _
  · rw [eq]
    exact ends

theorem EndsClosed.compareExchange {connection : TcpConnection} (ends : connection.EndsClosed) :
    (connection.compareExchange .kConnected .kDisconnecting).2.EndsClosed := by
  unfold TcpConnection.compareExchange
  split
  next connected => exact ends.of_up (by simp [connected]) rfl (by simp)
  next => exact ends

/-! ## What is queued -/

/-- The queue of functors grows at its end only, and by notifications. -/
def Queues (before after : TcpConnection) : Prop :=
  ∃ added : List Functor, (∀ functor ∈ added, functor.Notifies) ∧
    after.pending_functors_ = before.pending_functors_ ++ added

theorem Queues.of_eq {before after : TcpConnection}
    (same : after.pending_functors_ = before.pending_functors_) : before.Queues after :=
  ⟨[], by simp, by simp [same]⟩

theorem Queues.trans {first second third : TcpConnection} (left : first.Queues second)
    (right : second.Queues third) : first.Queues third := by
  obtain ⟨front, frontNotify, frontEq⟩ := left
  obtain ⟨back, backNotify, backEq⟩ := right
  refine ⟨front ++ back, ?_, by rw [backEq, frontEq, List.append_assoc]⟩
  intro functor membership
  rcases List.mem_append.mp membership with early | late
  · exact frontNotify functor early
  · exact backNotify functor late

theorem sendInLoop_queues (connection : TcpConnection) (s : Bytes) (result : WriteResult) :
    connection.Queues (connection.sendInLoop s result) := by
  by_cases down : connection.state_ = .kDisconnected
  · rw [sendInLoop, if_pos down]
    exact .of_eq rfl
  · rcases write : connection.writeDirectly s result with ⟨nwrote, faultError, written⟩
    obtain ⟨-, -, functors, notify, writtenEq⟩ := connection.writeDirectly_spec s result write
    have direct : connection.Queues written := ⟨functors, notify, by rw [writtenEq]⟩
    rw [sendInLoop, if_neg down, write]
    dsimp only
    split
    · obtain ⟨-, warnings, warn, bufferedEq⟩ := written.bufferRemaining_spec (s.drop nwrote)
      apply direct.trans
      exact ⟨warnings, warn, by rw [bufferedEq]⟩
    · exact direct

theorem handleWrite_queues (connection : TcpConnection) (result : WriteResult) :
    connection.Queues (connection.handleWrite result) := by
  unfold handleWrite
  split
  · dsimp only
    split
    · generalize (result.taken connection.outputBuffer_.readable).length = n
      generalize advanced : { connection with
        accepted := connection.accepted ++
          result.taken connection.outputBuffer_.readable } = argument
      have accepts : connection.Queues argument := .of_eq (by rw [← advanced])
      apply accepts.trans
      by_cases drained : (argument.outputBuffer_.retrieve n).2.readableBytes = 0
      · obtain ⟨functors, notify, eq⟩ := argument.retrieveWritten_drained n drained
        exact ⟨functors, notify, by rw [eq]⟩
      · simp only [retrieveWritten, if_neg drained]
        exact .of_eq rfl
    · exact .of_eq rfl
  · exact .of_eq rfl

theorem handleRead_queues (connection : TcpConnection) (result : ReadvResult) :
    connection.Queues (connection.handleRead result) := by
  rcases connection.handleRead_cases result with
    ⟨data, inputBuffer_, -, -, eq⟩ | ⟨inputBuffer_, -, eq⟩ | ⟨errno, -, eq⟩ <;>
    · rw [eq]
      exact .of_eq rfl

theorem runFunctor_queues (connection : TcpConnection) (functor : Functor)
    (result : WriteResult) : connection.Queues (connection.runFunctor functor result) := by
  cases functor with
  | sendInLoop s => exact connection.sendInLoop_queues s result
  | shutdownInLoop =>
      rw [runFunctor, shutdownInLoop_eq]
      exact .of_eq rfl
  | forceCloseInLoop =>
      unfold runFunctor forceCloseInLoop
      dsimp only
      split <;> exact .of_eq rfl
  | connectDestroyed =>
      apply Queues.of_eq
      simp only [runFunctor, connectDestroyed, compareExchange]
      split_ifs <;> rfl
  | writeCompleteCallback | highWaterMarkCallback => exact .of_eq rfl

end TcpConnection

namespace Lifecycle

variable {Thread : Type u} [DecidableEq Thread]

/-- The rest of the functors swapped out. -/
def batch (lifecycle : Lifecycle Thread) : List Functor :=
  match lifecycle.iteration with
  | .functors batch => batch
  | _ => []

/-- The functors still to run, oldest first. -/
def functors (lifecycle : Lifecycle Thread) : List Functor :=
  lifecycle.batch ++ lifecycle.connection.pending_functors_

/-- The step runs a functor of the batch. -/
def Event.runs : Event Thread → Bool
  | .runFunctor _ => true
  | _ => false

/-- The owner asks for the destruction only once it has been told of the end. -/
def Told (lifecycle : Lifecycle Thread) : Event Thread → Prop
  | .request _ request => request.Destroys → 0 < lifecycle.connection.closes
  | _ => True

instance (lifecycle : Lifecycle Thread) : ∀ event, Decidable (lifecycle.Told event)
  | .request _ request =>
      inferInstanceAs (Decidable (request.Destroys → 0 < lifecycle.connection.closes))
  | .connectEstablished | .connectionCallback | .proceed _ _ _ | .poll _ | .handleEvent
  | .handle _ _ | .doPendingFunctors | .runFunctor _ | .endFunctors =>
      inferInstanceAs (Decidable True)

/-- A connection with an owner that waits for `closeCallback_`. -/
def owned (loop : Thread) : System (Lifecycle Thread) (Event Thread) where
  initial lifecycle :=
    ∃ writeComplete highWaterMark, lifecycle = start writeComplete highWaterMark
  step lifecycle event after :=
    lifecycle.Enabled loop event ∧ lifecycle.Told event ∧ after = lifecycle.next loop event

variable {loop : Thread} {lifecycle : Lifecycle Thread}

/-! ## One step -/

omit [DecidableEq Thread] in
theorem perform_fields (functor : Functor) (result : WriteResult) :
    (lifecycle.perform functor result).connection =
        lifecycle.connection.runFunctor functor result ∧
      (lifecycle.perform functor result).iteration = lifecycle.iteration ∧
      (lifecycle.perform functor result).calls = lifecycle.calls := by
  unfold perform
  dsimp only
  split <;> exact ⟨rfl, rfl, rfl⟩

omit [DecidableEq Thread] in
theorem perform_functors (functor : Functor) (result : WriteResult) :
    ∃ added : List Functor, (∀ functor ∈ added, functor.Notifies) ∧
      (lifecycle.perform functor result).functors = lifecycle.functors ++ added := by
  obtain ⟨connection, iteration, -⟩ := @perform_fields _ lifecycle functor result
  obtain ⟨added, notify, pending⟩ := lifecycle.connection.runFunctor_queues functor result
  refine ⟨added, notify, ?_⟩
  rw [functors, batch, iteration, connection, pending, ← List.append_assoc]
  rfl

omit [DecidableEq Thread] in
theorem callHandler_fields (handler : Channel.Handler) (read : ReadvResult)
    (write : WriteResult) :
    (lifecycle.callHandler handler read write).iteration = lifecycle.iteration ∧
      (lifecycle.callHandler handler read write).calls = lifecycle.calls ∧
      lifecycle.connection.Queues
        (lifecycle.callHandler handler read write).connection := by
  cases handler with
  | closeCallback_ => exact ⟨rfl, rfl, .of_eq rfl⟩
  | errorCallback_ => exact ⟨rfl, rfl, .of_eq rfl⟩
  | readCallback_ => exact ⟨rfl, rfl, lifecycle.connection.handleRead_queues read⟩
  | writeCallback_ => exact ⟨rfl, rfl, lifecycle.connection.handleWrite_queues write⟩

theorem test_pending (request : Request) (connection : TcpConnection) :
    (request.test connection).2.pending_functors_ = connection.pending_functors_ := by
  cases request with
  | send | runConnectDestroyed | queueConnectDestroyed => rfl
  | shutdown | forceClose =>
      simp only [Request.test, TcpConnection.compareExchange]
      split <;> rfl

theorem next_request (loop thread : Thread) (request : Request)
    (lifecycle : Lifecycle Thread) :
    (request.test lifecycle.connection).1 = true ∧
        lifecycle.next loop (.request thread request) = { lifecycle with
          connection := (request.test lifecycle.connection).2
          calls := lifecycle.calls ++ [(thread, request)] } ∨
      lifecycle.next loop (.request thread request) = lifecycle := by
  rcases tested : request.test lifecycle.connection with ⟨passed, connection⟩
  simp only [next, tested]
  cases passed with
  | true => exact Or.inl ⟨rfl, rfl⟩
  | false => exact Or.inr rfl

theorem next_functors {event : Event Thread} (enabled : lifecycle.Enabled loop event) :
    ∃ added : List Functor,
      (lifecycle.next loop event).functors =
          lifecycle.functors.drop (if event.runs then 1 else 0) ++ added ∧
        (.connectDestroyed ∈ added → ∃ entry ∈ lifecycle.calls, entry.2.Destroys) := by
  have noDestroy : ∀ added : List Functor, (∀ functor ∈ added, functor.Notifies) →
      (.connectDestroyed ∈ added → ∃ entry ∈ lifecycle.calls, entry.2.Destroys) :=
    fun added notify membership => (notify _ membership).elim
  cases event with
  | connectEstablished => exact ⟨[], by simp [next, functors, batch, commit,
      TcpConnection.beginEstablished, Event.runs], by simp⟩
  | connectionCallback => exact ⟨[], by simp [next, functors, batch,
      TcpConnection.reportState, TcpConnection.callOwner, Event.runs], by simp⟩
  | request thread request =>
      refine ⟨[], ?_, by simp⟩
      rcases next_request loop thread request lifecycle with ⟨-, eq⟩ | eq
      · simp [eq, functors, batch, Event.runs, test_pending]
      · simp [eq, Event.runs]
  | proceed thread request result =>
      simp only [next]
      split
      next now =>
        obtain ⟨added, notify, eq⟩ := @perform_functors _
          { lifecycle with calls := lifecycle.calls.erase (thread, request) }
          request.functor result
        exact ⟨added, eq, noDestroy added notify⟩
      next later =>
        refine ⟨[request.functor], by simp [functors, batch, TcpConnection.queueInLoop,
          Event.runs], ?_⟩
        intro membership
        refine ⟨(thread, request), enabled.1, ?_⟩
        cases request <;> simp_all [Request.functor, Request.Destroys]
  | poll return_events_ =>
      obtain ⟨free, polling, -⟩ := enabled
      exact ⟨[], by simp [next, functors, batch, polling, Event.runs], by simp⟩
  | handleEvent =>
      obtain ⟨return_events_, active⟩ := active_of_return_events? enabled.2
      exact ⟨[], by simp [next, functors, batch, active, Event.runs], by simp⟩
  | handle read write =>
      obtain ⟨handler, handlers, handling⟩ := handling_of_handler? enabled.2
      obtain ⟨iteration, -, added, notify, pending⟩ := @callHandler_fields _
        { lifecycle with iteration := .handling handlers } handler read write
      refine ⟨added, ?_, noDestroy added notify⟩
      simp only [next, handling]
      simp [functors, batch, iteration, pending, handling, Event.runs]
  | doPendingFunctors =>
      refine ⟨[], ?_, by simp⟩
      rcases enabled.2 with active | handling
      · simp [next, functors, batch, active, Event.runs]
      · simp [next, functors, batch, handling, Event.runs]
  | runFunctor result =>
      obtain ⟨functor, rest, here⟩ := functors_of_functor? enabled.2
      obtain ⟨added, notify, eq⟩ := @perform_functors _
        { lifecycle with iteration := .functors rest } functor result
      refine ⟨added, ?_, noDestroy added notify⟩
      simp only [next, here]
      rw [eq]
      simp [functors, batch, here, Event.runs]
  | endFunctors =>
      obtain ⟨free, done⟩ := enabled
      exact ⟨[], by simp [next, functors, batch, done, Event.runs], by simp⟩

/-- What holds of a connection whose owner waits for `closeCallback_`. -/
structure Orderly (lifecycle : Lifecycle Thread) : Prop where
  ends : lifecycle.connection.EndsClosed
  begun : lifecycle.stage ≠ .constructed → lifecycle.connection.state_ ≠ .kConnecting
  fresh : lifecycle.stage = .constructed →
    lifecycle.connection.state_ = .kConnecting ∧
      lifecycle.connection.ownerCalls = [] ∧ lifecycle.calls = []
  called : (∃ entry ∈ lifecycle.calls, entry.2.Destroys) → 0 < lifecycle.connection.closes
  queued : .connectDestroyed ∈ lifecycle.functors → 0 < lifecycle.connection.closes

theorem test_endsClosed {connection : TcpConnection} (ends : connection.EndsClosed)
    (request : Request) : (request.test connection).2.EndsClosed := by
  cases request with
  | send | runConnectDestroyed | queueConnectDestroyed => exact ends
  | shutdown | forceClose => exact ends.compareExchange

omit [DecidableEq Thread] in
theorem callHandler_endsClosed (ends : lifecycle.connection.EndsClosed)
    (handler : Channel.Handler) (read : ReadvResult) (write : WriteResult) :
    (lifecycle.callHandler handler read write).connection.EndsClosed := by
  cases handler with
  | closeCallback_ => exact lifecycle.connection.handleClose_endsClosed
  | errorCallback_ => exact ends
  | readCallback_ => exact ends.handleRead read
  | writeCallback_ => exact ends.handleWrite write

theorem Orderly.next_ends (orderly : lifecycle.Orderly) {event : Event Thread}
    (enabled : lifecycle.Enabled loop event) :
    (lifecycle.next loop event).connection.EndsClosed := by
  have ends := orderly.ends
  cases event with
  | connectEstablished =>
      obtain ⟨connecting, -, -⟩ := orderly.fresh enabled
      have alive : lifecycle.connection.state_ ≠ .kDisconnected := by simp [connecting]
      exact ends.of_up alive rfl (by simp [next, commit, TcpConnection.beginEstablished])
  | connectionCallback =>
      exact ends.congr rfl rfl (by simp [next, TcpConnection.reportState,
        TcpConnection.callOwner, TcpConnection.closes])
  | request thread request =>
      rcases next_request loop thread request lifecycle with ⟨-, eq⟩ | eq
      · rw [eq]
        exact test_endsClosed ends request
      · rw [eq]
        exact ends
  | proceed thread request result =>
      simp only [next]
      split
      · rw [(perform_fields request.functor result).1]
        apply ends.runFunctor
        intro destroys
        apply orderly.called
        refine ⟨(thread, request), enabled.1, ?_⟩
        cases request <;> simp_all [Request.functor, Request.Destroys]
      · exact ends.congr rfl rfl rfl
  | poll return_events_ => exact ends
  | handleEvent =>
      obtain ⟨return_events_, active⟩ := active_of_return_events? enabled.2
      simp only [next, active]
      exact ends
  | handle read write =>
      obtain ⟨handler, handlers, handling⟩ := handling_of_handler? enabled.2
      simp only [next, handling]
      exact @callHandler_endsClosed _ { lifecycle with iteration := .handling handlers } ends
        handler read write
  | doPendingFunctors => exact ends.congr rfl rfl rfl
  | runFunctor result =>
      obtain ⟨functor, rest, here⟩ := functors_of_functor? enabled.2
      simp only [next, here]
      rw [(perform_fields functor result).1]
      apply ends.runFunctor
      rintro rfl
      exact orderly.queued (by simp [functors, batch, here])
  | endFunctors => exact ends

omit [DecidableEq Thread] in
theorem Orderly.sound (orderly : lifecycle.Orderly) (constructed : lifecycle.stage = .constructed) :
    lifecycle.Sound := by
  simp only [Sound, constructed]
  exact orderly.fresh constructed

theorem Orderly.next_stage (orderly : lifecycle.Orderly) {event : Event Thread}
    (enabled : lifecycle.Enabled loop event) :
    lifecycle.connection.closes ≤ (lifecycle.next loop event).connection.closes ∧
      ((lifecycle.next loop event).stage = .constructed ∧
          lifecycle.next loop event = lifecycle ∨
        (lifecycle.next loop event).stage ≠ .constructed ∧
          (lifecycle.next loop event).connection.state_ ≠ .kConnecting) := by
  cases stage : lifecycle.stage with
  | constructed =>
      rcases next_constructed stage (orderly.sound stage) enabled with rfl | same
      · refine ⟨Nat.le_refl _, Or.inr ⟨by simp [next], ?_⟩⟩
        simp [next, commit, TcpConnection.beginEstablished]
      · rw [same]
        exact ⟨Nat.le_refl _, Or.inl ⟨stage, rfl⟩⟩
  | establishing =>
      have begun := orderly.begun (by simp [stage])
      rcases next_establishing stage enabled with rfl | ⟨stays, calls, state⟩
      · refine ⟨?_, Or.inr ⟨by simp [next], begun⟩⟩
        simp [next, TcpConnection.reportState, TcpConnection.callOwner, TcpConnection.closes]
      · refine ⟨?_, Or.inr ⟨by simp [stays], ?_⟩⟩
        · rw [TcpConnection.closes, TcpConnection.closes, calls]
        · rw [state]
          split
          · simp
          · exact begun
  | established =>
      have begun := orderly.begun (by simp [stage])
      obtain ⟨stays, received, change⟩ := next_change stage enabled
      obtain ⟨calls, eq, -, -⟩ := change.calls
      refine ⟨?_, Or.inr ⟨by simp [stays], change.established begun⟩⟩
      rw [TcpConnection.closes_of_calls eq]
      exact Nat.le_add_right _ _

theorem calls_cases {event : Event Thread} (enabled : lifecycle.Enabled loop event) :
    (lifecycle.next loop event).calls = lifecycle.calls ∨
      (∃ thread request, event = .request thread request ∧
        (lifecycle.next loop event).calls = lifecycle.calls ++ [(thread, request)]) ∨
      ∃ thread request result, event = .proceed thread request result ∧
        (lifecycle.next loop event).calls = lifecycle.calls.erase (thread, request) := by
  cases event with
  | connectEstablished | connectionCallback | poll | doPendingFunctors | endFunctors =>
      exact Or.inl rfl
  | request thread request =>
      rcases next_request loop thread request lifecycle with ⟨-, eq⟩ | eq
      · exact Or.inr (Or.inl ⟨thread, request, rfl, by rw [eq]⟩)
      · exact Or.inl (by rw [eq])
  | proceed thread request result =>
      right
      right
      refine ⟨thread, request, result, rfl, ?_⟩
      simp only [next]
      split
      · exact (perform_fields request.functor result).2.2
      · rfl
  | handleEvent =>
      obtain ⟨return_events_, active⟩ := active_of_return_events? enabled.2
      simp only [next, active]
      exact Or.inl trivial
  | handle read write =>
      obtain ⟨handler, handlers, handling⟩ := handling_of_handler? enabled.2
      simp only [next, handling]
      exact Or.inl (callHandler_fields handler read write).2.1
  | runFunctor result =>
      obtain ⟨functor, rest, here⟩ := functors_of_functor? enabled.2
      simp only [next, here]
      exact Or.inl (perform_fields functor result).2.2

theorem next_calls {event : Event Thread} (enabled : lifecycle.Enabled loop event) :
    ∀ entry ∈ (lifecycle.next loop event).calls, entry ∈ lifecycle.calls ∨
      ∃ thread request, event = .request thread request ∧ entry = (thread, request) := by
  intro entry membership
  rcases calls_cases enabled with same | ⟨thread, request, rfl, grown⟩ |
    ⟨thread, request, result, rfl, erased⟩
  · rw [same] at membership
    exact Or.inl membership
  · rw [grown] at membership
    rcases List.mem_append.mp membership with before | last
    · exact Or.inl before
    · exact Or.inr ⟨thread, request, rfl, List.mem_singleton.mp last⟩
  · rw [erased] at membership
    exact Or.inl (List.mem_of_mem_erase membership)

/-- The step lemma. -/
theorem Orderly.next (orderly : lifecycle.Orderly) {event : Event Thread}
    (enabled : lifecycle.Enabled loop event) (told : lifecycle.Told event) :
    (lifecycle.next loop event).Orderly := by
  obtain ⟨grows, stands⟩ := orderly.next_stage enabled
  constructor
  · exact orderly.next_ends enabled
  · intro begun
    rcases stands with ⟨constructed, -⟩ | ⟨-, state⟩
    · exact absurd constructed begun
    · exact state
  · intro constructed
    rcases stands with ⟨-, same⟩ | ⟨begun, -⟩
    · rw [same] at constructed ⊢
      exact orderly.fresh constructed
    · exact absurd constructed begun
  · rintro ⟨entry, membership, destroys⟩
    rcases next_calls enabled entry membership with before | ⟨thread, request, rfl, rfl⟩
    · exact (orderly.called ⟨entry, before, destroys⟩).trans_le grows
    · exact (told destroys).trans_le grows
  · intro membership
    obtain ⟨added, eq, byRequest⟩ := next_functors enabled
    rw [eq] at membership
    rcases List.mem_append.mp membership with before | new
    · exact (orderly.queued (List.mem_of_mem_drop before)).trans_le grows
    · exact (orderly.called (byRequest new)).trans_le grows

/-- The run lemma. -/
theorem reachable_orderly {events : List (Event Thread)}
    (execution : (owned loop).Execution events lifecycle) : lifecycle.Orderly := by
  apply execution.invariant Orderly
  · rintro _ ⟨writeComplete, highWaterMark, rfl⟩
    constructor <;>
      simp [start, TcpConnection.new, TcpConnection.EndsClosed, TcpConnection.closes,
        functors, batch]
  · rintro lifecycle event _ orderly ⟨enabled, told, rfl⟩
    exact orderly.next enabled told

/-! ## From the call to the close -/

theorem Orderly.closed_next (orderly : lifecycle.Orderly) {event : Event Thread}
    (enabled : lifecycle.Enabled loop event) (closed : lifecycle.connection.Closed) :
    (lifecycle.next loop event).connection.Closed := by
  apply orderly.next_ends enabled
  exact Or.inr (closed.closes.trans_le (orderly.next_stage enabled).1)

omit [DecidableEq Thread] in
/-- The functor closes the connection in whichever state it is. -/
theorem Orderly.forceCloseInLoop_closed (orderly : lifecycle.Orderly)
    (begun : lifecycle.stage ≠ .constructed) :
    lifecycle.connection.forceCloseInLoop.Closed := by
  unfold TcpConnection.forceCloseInLoop
  split
  · exact lifecycle.connection.handleClose_closed
  · apply orderly.ends
    left
    have neither := orderly.begun begun
    cases state : lifecycle.connection.state_ <;> simp_all

theorem Orderly.serve (orderly : lifecycle.Orderly) {event : Event Thread}
    (enabled : lifecycle.Enabled loop event) {front : Functor} {rest : List Functor}
    (queue : lifecycle.functors = front :: rest) (runs : event.runs = true) :
    front = .forceCloseInLoop → (lifecycle.next loop event).connection.Closed := by
  rintro rfl
  cases event with
  | runFunctor result =>
      obtain ⟨functor, batch, here⟩ := functors_of_functor? enabled.2
      have first : functor = .forceCloseInLoop := by
        simp only [functors, Lifecycle.batch, here, List.cons_append] at queue
        exact (List.cons.inj queue).1
      subst first
      have begun : lifecycle.stage ≠ .constructed := by simp [enabled.1.1]
      simp only [Lifecycle.next, here]
      rw [(perform_fields _ result).1]
      exact orderly.forceCloseInLoop_closed begun
  | _ => cases runs

/-- A close is under way: a functor for it is among the first `count` to run, or
it has happened. -/
def Closes (count : Nat) (lifecycle : Lifecycle Thread) : Prop :=
  .forceCloseInLoop ∈ lifecycle.functors.take count ∨ lifecycle.connection.Closed

/-- A functor that is run brings the close nearer. -/
theorem Orderly.closes_next (orderly : lifecycle.Orderly) {event : Event Thread}
    (enabled : lifecycle.Enabled loop event) {count : Nat} (closes : lifecycle.Closes count) :
    (lifecycle.next loop event).Closes (count - if event.runs then 1 else 0) := by
  rcases closes with waiting | closed
  · obtain ⟨added, eq, -⟩ := next_functors enabled
    cases runs : event.runs with
    | false =>
        left
        rw [eq, runs]
        simp only [Bool.false_eq_true, if_false, List.drop_zero, Nat.sub_zero]
        rw [List.take_append]
        exact List.mem_append_left _ waiting
    | true =>
        cases queue : lifecycle.functors with
        | nil =>
            rw [queue, List.take_nil] at waiting
            cases waiting
        | cons front rest =>
            cases count with
            | zero => simp at waiting
            | succ count =>
                rw [queue, List.take_succ_cons] at waiting
                rcases List.mem_cons.mp waiting with first | later
                · exact Or.inr (orderly.serve enabled queue runs first.symm)
                · left
                  rw [eq, runs, queue]
                  simp only [if_true, List.drop_succ_cons, List.drop_zero, Nat.add_sub_cancel]
                  rw [List.take_append]
                  exact List.mem_append_left _ later
  · exact Or.inr (orderly.closed_next enabled closed)

theorem closes_run {before after : Lifecycle Thread} {events : List (Event Thread)}
    (orderly : before.Orderly) (run : (owned loop).Run before events after) {count : Nat}
    (closes : before.Closes count) :
    after.Closes (count - events.countP Event.runs) := by
  have invariant := run.history
    (fun past reached => reached.Orderly ∧ reached.Closes (count - past.countP Event.runs))
    ⟨orderly, closes⟩ ?_
  · exact invariant.2
  · rintro past middle event _ ⟨orderly, closes⟩ ⟨enabled, told, rfl⟩
    apply And.intro (orderly.next enabled told)
    have step := orderly.closes_next enabled closes
    rw [List.countP_append, List.countP_singleton, ← Nat.sub_sub]
    exact step

/-- A call of `forceClose` that has passed its test is under way or has queued
its functor. -/
def CalledOn (thread : Thread) (lifecycle : Lifecycle Thread) : Prop :=
  (thread, .forceClose) ∈ lifecycle.calls ∨ .forceCloseInLoop ∈ lifecycle.functors ∨
    lifecycle.connection.Closed

theorem calls_next {event : Event Thread} (enabled : lifecycle.Enabled loop event)
    {entry : Thread × Request} (underWay : entry ∈ lifecycle.calls) :
    entry ∈ (lifecycle.next loop event).calls ∨
      ∃ result, event = .proceed entry.1 entry.2 result := by
  rcases calls_cases enabled with same | ⟨thread, request, rfl, grown⟩ |
    ⟨thread, request, result, rfl, erased⟩
  · left
    rwa [same]
  · left
    rw [grown]
    exact List.mem_append_left _ underWay
  · by_cases own : entry = (thread, request)
    · right
      exact ⟨result, by rw [own]⟩
    · left
      rw [erased]
      exact (List.mem_erase_of_ne own).mpr underWay

theorem Orderly.calledOn_next (orderly : lifecycle.Orderly) {event : Event Thread}
    (enabled : lifecycle.Enabled loop event) {thread : Thread}
    (called : lifecycle.CalledOn thread) : (lifecycle.next loop event).CalledOn thread := by
  rcases called with underWay | queued
  · rcases calls_next enabled underWay with still | ⟨result, rfl⟩
    · exact Or.inl still
    · right
      left
      have remote : ¬ (thread = loop ∧ Request.forceClose.RunsInLoop) := fun both => both.2
      simp only [Lifecycle.next, if_neg remote]
      exact List.mem_append_right _ (List.mem_append_right _ (List.mem_singleton_self _))
  · right
    have closes : lifecycle.Closes lifecycle.functors.length := by
      unfold Closes
      rw [List.take_length]
      exact queued
    rcases orderly.closes_next enabled closes with waiting | closed
    · exact Or.inl (List.mem_of_mem_take waiting)
    · exact Or.inr closed

theorem calledOn_run {before after : Lifecycle Thread} {events : List (Event Thread)}
    (orderly : before.Orderly) (run : (owned loop).Run before events after) {thread : Thread}
    (called : before.CalledOn thread) : after.Orderly ∧ after.CalledOn thread := by
  apply run.invariant (fun reached => reached.Orderly ∧ reached.CalledOn thread) ⟨orderly, called⟩
  rintro middle event _ ⟨orderly, called⟩ ⟨enabled, told, rfl⟩
  exact ⟨orderly.next enabled told, orderly.calledOn_next enabled called⟩

theorem forceClose_called (thread : Thread)
    (ready : lifecycle.connection.state_ = .kConnected ∨
      .forceCloseInLoop ∈ lifecycle.functors) :
    (lifecycle.next loop (.request thread .forceClose)).CalledOn thread := by
  by_cases connected : lifecycle.connection.state_ = .kConnected
  · left
    simp [next, Request.test, TcpConnection.compareExchange, connected]
  · right
    left
    have refused : lifecycle.next loop (.request thread .forceClose) = lifecycle := by
      simp [next, Request.test, TcpConnection.compareExchange, connected]
    rw [refused]
    exact ready.resolve_left connected

/-- `forceClose` called in `kConnected`, or when its functor is queued already:
once it has returned and the loop has run the functors queued by then, the
connection is closed, whatever else has happened. -/
theorem forceClose_closes {events during onward : List (Event Thread)}
    {before called returned after : Lifecycle Thread} {thread : Thread}
    (reached : (owned loop).Execution events before)
    (ready : before.connection.state_ = .kConnected ∨ .forceCloseInLoop ∈ before.functors)
    (call : (owned loop).step before (.request thread .forceClose) called)
    (run : (owned loop).Run called during returned) (idle : returned.Idle thread)
    (loops : (owned loop).Run returned onward after)
    (served : returned.functors.length ≤ onward.countP Event.runs) :
    after.connection.Closed := by
  obtain ⟨enabled, told, rfl⟩ := call
  have orderly := (reachable_orderly reached).next enabled told
  obtain ⟨orderlyReturned, calledReturned⟩ :=
    calledOn_run orderly run (forceClose_called thread ready)
  have closes : returned.Closes returned.functors.length := by
    rcases calledReturned with underWay | queued
    · exact absurd rfl (idle _ underWay)
    · unfold Closes
      rw [List.take_length]
      exact queued
  have final := closes_run orderlyReturned loops closes
  rw [Nat.sub_eq_zero_of_le served] at final
  rcases final with none | closed
  · cases none
  · exact closed

theorem owned_run (loop : Thread) {start : Lifecycle Thread} {events : List (Event Thread)}
    (allowed : System.Allowed
      (fun lifecycle event => lifecycle.Enabled loop event ∧ lifecycle.Told event)
      (Lifecycle.next loop) start events) :
    (owned loop).Run start events (events.foldl (Lifecycle.next loop) start) :=
  System.Run.foldl (owned loop)
    (fun lifecycle event => lifecycle.Enabled loop event ∧ lifecycle.Told event)
    (fun _ _ both => ⟨both.1, both.2, rfl⟩) allowed

/-- The connection is up. -/
def established : List (Event Bool) := [.connectEstablished, .connectionCallback]

/-- One more iteration of the loop, with one functor to run. -/
def iterate : List (Event Bool) :=
  [.endFunctors, .poll none, .doPendingFunctors, .runFunctor (.wrote 0)]

theorem forceClose_closes_connected :
    let before := established.foldl (Lifecycle.next false) (start false false)
    let called := before.next false (.request true .forceClose)
    let returned := called.next false (.proceed true .forceClose (.wrote 0))
    (iterate.foldl (Lifecycle.next false) returned).connection.Closed := by
  intro before called returned
  have reached : (owned false).Execution established before :=
    ⟨start false false, ⟨false, false, rfl⟩, owned_run false (by decide)⟩
  have call : (owned false).step before (.request true .forceClose) called :=
    ⟨by decide, by decide, rfl⟩
  have run : (owned false).Run called [.proceed true .forceClose (.wrote 0)] returned :=
    owned_run false (by decide)
  exact forceClose_closes reached (Or.inl (by decide)) call run (by decide)
    (owned_run false (by decide)) (by decide)

/-- After `shutdown` a `forceClose` does nothing, and the connection stays open
for as long as the peer does not close it. -/
theorem forceClose_after_shutdown :
    ¬ ∀ (events during onward : List (Event Bool))
        (before called returned after : Lifecycle Bool) (thread : Bool),
      (owned false).Execution events before → before.connection.Up →
      (owned false).step before (.request thread .forceClose) called →
      (owned false).Run called during returned → returned.Idle thread →
      (owned false).Run returned onward after →
      returned.functors.length ≤ onward.countP Event.runs → after.connection.Closed := by
  intro always
  let shut : List (Event Bool) :=
    established ++ [.request true .shutdown, .proceed true .shutdown (.wrote 0)]
  have reached : (owned false).Execution shut
      (shut.foldl (Lifecycle.next false) (start false false)) :=
    ⟨start false false, ⟨false, false, rfl⟩, owned_run false (by decide)⟩
  have closed := always shut [] iterate _ _ _ _ true reached (Or.inr (by decide))
    ⟨by decide, by decide, rfl⟩ .nil (by decide) (owned_run false (by decide)) (by decide)
  exact absurd closed.state_ (by decide)

end Lifecycle

end GdRpc.Net
