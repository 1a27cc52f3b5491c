import GdRpc.Library.Transition
import GdRpc.Net.EPollPoller
import GdRpc.Net.OwnerCalls

/-!
# The life of a connection

The loop thread establishes the connection, polls, handles what epoll returns
for its channel and runs functors. Between any two of these steps other threads,
and user code on the loop thread, may use the connection.
-/

namespace GdRpc.Net

open GdRpc.Library

universe u

/-- What a thread may ask of the connection. The owner destroys it by
`runInLoop` or by `queueInLoop`. -/
inductive Request where
  | send (s : Bytes)
  | shutdown
  | forceClose
  | runConnectDestroyed
  | queueConnectDestroyed
  deriving DecidableEq, Repr

namespace Request

/-- What is bound for the loop. -/
def functor : Request → Functor
  | .send s => .sendInLoop s
  | .shutdown => .shutdownInLoop
  | .forceClose => .forceCloseInLoop
  | .runConnectDestroyed | .queueConnectDestroyed => .connectDestroyed

/-- Handed to `runInLoop`, which runs it at once on the loop thread. -/
def RunsInLoop : Request → Prop
  | .send _ | .shutdown | .runConnectDestroyed => True
  | .forceClose | .queueConnectDestroyed => False

instance : ∀ request : Request, Decidable request.RunsInLoop
  | .send _ | .shutdown | .runConnectDestroyed => inferInstanceAs (Decidable True)
  | .forceClose | .queueConnectDestroyed => inferInstanceAs (Decidable False)

/-- The owner destroys only what it has had established. -/
def Destroys : Request → Prop
  | .runConnectDestroyed | .queueConnectDestroyed => True
  | .send _ | .shutdown | .forceClose => False

instance : ∀ request : Request, Decidable request.Destroys
  | .runConnectDestroyed | .queueConnectDestroyed => inferInstanceAs (Decidable True)
  | .send _ | .shutdown | .forceClose => inferInstanceAs (Decidable False)

/-- The two requests that leave `kConnected`. -/
def Leaves : Request → Prop
  | .shutdown | .forceClose => True
  | .send _ | .runConnectDestroyed | .queueConnectDestroyed => False

instance : ∀ request : Request, Decidable request.Leaves
  | .shutdown | .forceClose => inferInstanceAs (Decidable True)
  | .send _ | .runConnectDestroyed | .queueConnectDestroyed =>
      inferInstanceAs (Decidable False)

/-- The test of `state_` in front of the request. -/
def test (request : Request) (connection : TcpConnection) : Bool × TcpConnection :=
  match request with
  | .send _ => (connection.state_ = .kConnected, connection)
  | .shutdown | .forceClose => connection.compareExchange .kConnected .kDisconnecting
  | .runConnectDestroyed | .queueConnectDestroyed => (true, connection)

end Request

namespace TcpConnection

/-- `connectEstablished` up to its call of `connectionCallback_`. -/
def beginEstablished (connection : TcpConnection) : TcpConnection :=
  { connection with
    state_ := .kConnected
    channel_ := connection.channel_.enableReading }

/-- The call itself, which finds whatever `state_` is by then. -/
def reportState (connection : TcpConnection) : TcpConnection :=
  connection.callOwner (.connectionCallback connection.state_)

theorem reportState_beginEstablished (connection : TcpConnection) :
    connection.beginEstablished.reportState = connection.connectEstablished := rfl

end TcpConnection

/-- How far `connectEstablished` has come. -/
inductive Stage where
  | constructed
  | establishing
  | established
  deriving DecidableEq, Repr

/-- Where the loop is: about to poll, between the poll and the handling of the
channel, among its handlers, or among the functors swapped out. -/
inductive Iteration where
  | polling
  | active (return_events_ : Option (BitVec 32))
  | handling (handlers : List Channel.Handler)
  | functors (batch : List Functor)
  deriving DecidableEq, Repr

/-- `calls` are the requests past their test and not yet handed to the loop. -/
structure Lifecycle (Thread : Type u) where
  connection : TcpConnection
  poller : EPollPoller
  stage : Stage
  iteration : Iteration
  calls : List (Thread × Request)

namespace Lifecycle

variable {Thread : Type u} [DecidableEq Thread]

inductive Event (Thread : Type u) where
  | connectEstablished
  | connectionCallback
  | request (thread : Thread) (request : Request)
  | proceed (thread : Thread) (request : Request) (result : WriteResult)
  | poll (return_events_ : Option (BitVec 32))
  | handleEvent
  | handle (read : ReadvResult) (write : WriteResult)
  | doPendingFunctors
  | runFunctor (result : WriteResult)
  | endFunctors

def Idle (lifecycle : Lifecycle Thread) (thread : Thread) : Prop :=
  ∀ entry ∈ lifecycle.calls, entry.1 ≠ thread

instance (lifecycle : Lifecycle Thread) (thread : Thread) :
    Decidable (lifecycle.Idle thread) :=
  inferInstanceAs (Decidable (∀ entry ∈ lifecycle.calls, entry.1 ≠ thread))

/-- The loop thread is neither inside `connectEstablished` nor inside a request
of its own. -/
def Free (loop : Thread) (lifecycle : Lifecycle Thread) : Prop :=
  lifecycle.stage = .established ∧ lifecycle.Idle loop

instance (loop : Thread) (lifecycle : Lifecycle Thread) :
    Decidable (lifecycle.Free loop) :=
  inferInstanceAs (Decidable (_ ∧ _))

/-- The mask epoll has returned for the channel, not handled yet. -/
def return_events? (lifecycle : Lifecycle Thread) : Option (BitVec 32) :=
  match lifecycle.iteration with
  | .active return_events_ => return_events_
  | _ => none

/-- The next handler of the dispatch. -/
def handler? (lifecycle : Lifecycle Thread) : Option Channel.Handler :=
  match lifecycle.iteration with
  | .handling handlers => handlers.head?
  | _ => none

/-- The next functor of the batch. -/
def functor? (lifecycle : Lifecycle Thread) : Option Functor :=
  match lifecycle.iteration with
  | .functors batch => batch.head?
  | _ => none

def Enabled (loop : Thread) (lifecycle : Lifecycle Thread) : Event Thread → Prop
  | .connectEstablished => lifecycle.stage = .constructed
  | .connectionCallback => lifecycle.stage = .establishing
  | .request thread request =>
      lifecycle.Idle thread ∧
      (thread = loop → lifecycle.Free loop ∧ lifecycle.iteration ≠ .polling) ∧
      (request.Destroys → lifecycle.stage ≠ .constructed)
  | .proceed thread request _ =>
      (thread, request) ∈ lifecycle.calls ∧
      (thread = loop → lifecycle.stage = .established)
  | .poll return_events_ =>
      lifecycle.Free loop ∧ lifecycle.iteration = .polling ∧
      (return_events_.isSome → lifecycle.poller.registered.isSome)
  | .handleEvent => lifecycle.Free loop ∧ lifecycle.return_events?.isSome
  | .handle _ _ => lifecycle.Free loop ∧ lifecycle.handler?.isSome
  | .doPendingFunctors =>
      lifecycle.Free loop ∧
      (lifecycle.iteration = .active none ∨ lifecycle.iteration = .handling [])
  | .runFunctor _ => lifecycle.Free loop ∧ lifecycle.functor?.isSome
  | .endFunctors => lifecycle.Free loop ∧ lifecycle.iteration = .functors []

instance (loop : Thread) (lifecycle : Lifecycle Thread) :
    ∀ event, Decidable (lifecycle.Enabled loop event)
  | .connectEstablished | .connectionCallback | .request _ _ | .proceed _ _ _
  | .poll _ | .handleEvent | .handle _ _ | .doPendingFunctors | .runFunctor _
  | .endFunctors => by
      unfold Enabled
      infer_instance

/-- The loop thread has worked on the connection. Every change of the mask ends
in `update()`; `handleClose` calls it even when the mask is empty already. -/
def commit (lifecycle : Lifecycle Thread) (after : TcpConnection) : Lifecycle Thread :=
  { lifecycle with
    connection := after
    poller :=
      if after.channel_ ≠ lifecycle.connection.channel_ ∨
          after.closes ≠ lifecycle.connection.closes then
        lifecycle.poller.updateChannel after.channel_
      else
        lifecycle.poller }

/-- Run a functor; `connectDestroyed` ends in `channel_->remove()`. -/
def perform (lifecycle : Lifecycle Thread) (functor : Functor) (result : WriteResult) :
    Lifecycle Thread :=
  let after := lifecycle.commit (lifecycle.connection.runFunctor functor result)
  if functor = .connectDestroyed then
    { after with poller := after.poller.removeChannel after.connection.channel_ }
  else
    after

/-- Call one of the channel's callbacks; `handleError` only logs. -/
def callHandler (lifecycle : Lifecycle Thread) (handler : Channel.Handler)
    (read : ReadvResult) (write : WriteResult) : Lifecycle Thread :=
  match handler with
  | .closeCallback_ => lifecycle.commit lifecycle.connection.handleClose
  | .errorCallback_ => lifecycle
  | .readCallback_ => lifecycle.commit (lifecycle.connection.handleRead read)
  | .writeCallback_ => lifecycle.commit (lifecycle.connection.handleWrite write)

def next (loop : Thread) (lifecycle : Lifecycle Thread) : Event Thread → Lifecycle Thread
  | .connectEstablished =>
      { lifecycle.commit lifecycle.connection.beginEstablished with stage := .establishing }
  | .connectionCallback =>
      { lifecycle with
        connection := lifecycle.connection.reportState
        stage := .established }
  | .request thread request =>
      let (passed, connection) := request.test lifecycle.connection
      if passed then
        { lifecycle with
          connection := connection
          calls := lifecycle.calls ++ [(thread, request)] }
      else
        lifecycle
  | .proceed thread request result =>
      let returning := { lifecycle with calls := lifecycle.calls.erase (thread, request) }
      if thread = loop ∧ request.RunsInLoop then
        returning.perform request.functor result
      else
        { returning with connection := lifecycle.connection.queueInLoop request.functor }
  | .poll return_events_ => { lifecycle with iteration := .active return_events_ }
  | .handleEvent =>
      match lifecycle.iteration with
      | .active (some return_events_) =>
          { lifecycle with
            iteration := .handling (Channel.handleEventWithGuard return_events_) }
      | _ => lifecycle
  | .handle read write =>
      match lifecycle.iteration with
      | .handling (handler :: handlers) =>
          { lifecycle with iteration := .handling handlers }.callHandler handler read write
      | _ => lifecycle
  | .doPendingFunctors =>
      { lifecycle with
        iteration := .functors lifecycle.connection.pending_functors_
        connection := { lifecycle.connection with pending_functors_ := [] } }
  | .runFunctor result =>
      match lifecycle.iteration with
      | .functors (functor :: batch) =>
          { lifecycle with iteration := .functors batch }.perform functor result
      | _ => lifecycle
  | .endFunctors => { lifecycle with iteration := .polling }

/-- A new connection; its loop is among its functors. -/
def start (writeComplete highWaterMark : Bool) : Lifecycle Thread where
  connection := .new writeComplete highWaterMark
  poller := .new
  stage := .constructed
  iteration := .functors []
  calls := []

def system (loop : Thread) : System (Lifecycle Thread) (Event Thread) where
  initial lifecycle :=
    ∃ writeComplete highWaterMark, lifecycle = start writeComplete highWaterMark
  step lifecycle event after :=
    lifecycle.Enabled loop event ∧ after = lifecycle.next loop event

/-- One report while connected, at most one afterwards, and at most one call of
`closeCallback_`. -/
structure ReportedOnce (lifecycle : Lifecycle Thread) : Prop where
  before : lifecycle.stage ≠ .established → lifecycle.connection.reports = []
  after : lifecycle.stage = .established →
    lifecycle.connection.reports = [.kConnected] ∨
    ∃ later ≠ .kConnected, lifecycle.connection.reports = [.kConnected, later]
  closes : lifecycle.connection.closes ≤ 1

/-- The handler closes the connection, given what its read returns. -/
def closes (handler : Channel.Handler) (read : ReadvResult) : Prop :=
  match handler with
  | .closeCallback_ => True
  | .readCallback_ => read = .delivered []
  | .errorCallback_ | .writeCallback_ => False

instance (handler : Channel.Handler) (read : ReadvResult) :
    Decidable (closes handler read) := by
  unfold closes
  split <;> infer_instance

/-- No hang-up and no zero read is handled on a connection that is down, and
nobody calls `shutdown` or `forceClose` between the change to `kConnected` and
its report. -/
def Fit (lifecycle : Lifecycle Thread) : Event Thread → Prop
  | .handle read _ =>
      (∃ handler ∈ lifecycle.handler?, closes handler read) →
        lifecycle.connection.state_ ≠ .kDisconnected
  | .request _ request => request.Leaves → lifecycle.stage ≠ .establishing
  | _ => True

instance (lifecycle : Lifecycle Thread) : ∀ event, Decidable (lifecycle.Fit event)
  | .handle _ _ | .request _ _ => by
      unfold Fit
      infer_instance
  | .connectEstablished | .connectionCallback | .proceed _ _ _ | .poll _ | .handleEvent
  | .doPendingFunctors | .runFunctor _ | .endFunctors => inferInstanceAs (Decidable True)

/-! ## One step -/

variable {loop : Thread} {lifecycle : Lifecycle Thread}

omit [DecidableEq Thread] in
theorem callHandler_change (lifecycle : Lifecycle Thread) (handler : Channel.Handler)
    (read : ReadvResult) (write : WriteResult) :
    ∃ received, lifecycle.connection.Change
      (lifecycle.callHandler handler read write).connection
      (closes handler read → lifecycle.connection.state_ ≠ .kDisconnected) received := by
  cases handler with
  | closeCallback_ =>
      refine ⟨False, ?_⟩
      simpa [callHandler, commit, closes] using lifecycle.connection.handleClose_change
  | errorCallback_ => exact ⟨False, .quiet (.refl _) (by simp [closes]) id⟩
  | readCallback_ => exact ⟨_, lifecycle.connection.handleRead_change read⟩
  | writeCallback_ =>
      exact ⟨False, .quiet (lifecycle.connection.handleWrite_quiet write)
        (by simp [closes]) id⟩

omit [DecidableEq Thread] in
theorem perform_change (lifecycle : Lifecycle Thread) (functor : Functor)
    (result : WriteResult) :
    lifecycle.connection.Change (lifecycle.perform functor result).connection True False := by
  unfold perform
  dsimp only
  split <;> exact lifecycle.connection.runFunctor_change functor result

omit [DecidableEq Thread] in
theorem stage_perform (lifecycle : Lifecycle Thread) (functor : Functor)
    (result : WriteResult) : (lifecycle.perform functor result).stage = lifecycle.stage := by
  unfold perform
  dsimp only
  split <;> rfl

omit [DecidableEq Thread] in
theorem stage_callHandler (lifecycle : Lifecycle Thread) (handler : Channel.Handler)
    (read : ReadvResult) (write : WriteResult) :
    (lifecycle.callHandler handler read write).stage = lifecycle.stage := by
  cases handler <;> rfl

/-- The test in front of a request may leave `kConnected`, and does nothing
else. -/
theorem test_change (request : Request) (connection : TcpConnection) :
    connection.Change (request.test connection).2 True False := by
  cases request with
  | send s => exact (TcpConnection.Quiet.refl connection).change
  | shutdown | forceClose => exact connection.compareExchange_change
  | runConnectDestroyed | queueConnectDestroyed =>
      exact (TcpConnection.Quiet.refl connection).change

omit [DecidableEq Thread] in
theorem active_of_return_events? (some : lifecycle.return_events?.isSome) :
    ∃ return_events_, lifecycle.iteration = .active (.some return_events_) := by
  unfold return_events? at some
  split at some
  next return_events_ active =>
    obtain ⟨events, rfl⟩ := Option.isSome_iff_exists.mp some
    exact ⟨events, active⟩
  next => cases some

omit [DecidableEq Thread] in
theorem handling_of_handler? (some : lifecycle.handler?.isSome) :
    ∃ handler handlers, lifecycle.iteration = .handling (handler :: handlers) := by
  unfold handler? at some
  split at some
  next handlers handling =>
    cases handlers with
    | nil => cases some
    | cons handler handlers => exact ⟨handler, handlers, handling⟩
  next => cases some

omit [DecidableEq Thread] in
theorem functors_of_functor? (some : lifecycle.functor?.isSome) :
    ∃ functor rest, lifecycle.iteration = .functors (functor :: rest) := by
  unfold functor? at some
  split at some
  next batch here =>
    cases batch with
    | nil => cases some
    | cons functor rest => exact ⟨functor, rest, here⟩
  next => cases some

theorem next_change (established : lifecycle.stage = .established)
    {event : Event Thread} (enabled : lifecycle.Enabled loop event) :
    (lifecycle.next loop event).stage = .established ∧
      ∃ received, lifecycle.connection.Change (lifecycle.next loop event).connection
        (lifecycle.Fit event) received := by
  have same : lifecycle.connection.Change lifecycle.connection True False :=
    (TcpConnection.Quiet.refl _).change
  cases event with
  | connectEstablished | connectionCallback =>
      simp only [Enabled] at enabled
      rw [established] at enabled
      cases enabled
  | request thread request =>
      have fit : lifecycle.Fit (.request thread request) = True := by
        simp [Fit, established]
      have change := test_change request lifecycle.connection
      rcases passed : request.test lifecycle.connection with ⟨accepted, connection⟩
      rw [passed] at change
      simp only [next, passed, fit]
      split
      next => exact ⟨established, False, change⟩
      next => exact ⟨established, False, same⟩
  | proceed thread request result =>
      simp only [next]
      split
      next now =>
        rw [stage_perform]
        exact ⟨established, False, perform_change
          { lifecycle with calls := lifecycle.calls.erase (thread, request) } _ result⟩
      next later =>
        exact ⟨established, False, (lifecycle.connection.queueInLoop_quiet _).change⟩
  | poll return_events_ => exact ⟨established, False, same⟩
  | handleEvent =>
      simp only [next]
      split <;> exact ⟨established, False, same⟩
  | handle read write =>
      obtain ⟨handler, handlers, here⟩ := handling_of_handler? enabled.2
      obtain ⟨received, change⟩ := callHandler_change
        { lifecycle with iteration := .handling handlers } handler read write
      simp only [next, here]
      rw [stage_callHandler]
      refine ⟨established, received, ?_⟩
      simpa [Fit, handler?, here] using change
  | doPendingFunctors => exact ⟨established, False, .quiet ⟨rfl, rfl⟩ trivial id⟩
  | runFunctor result =>
      simp only [next]
      split
      next functor batch here =>
        rw [stage_perform]
        exact ⟨established, False, perform_change
          { lifecycle with iteration := .functors batch } functor result⟩
      next => exact ⟨established, False, same⟩
  | endFunctors => exact ⟨established, False, same⟩

/-! ## Runs -/

/-- Where a run stands as long as every step has been fit. -/
def Sound (lifecycle : Lifecycle Thread) : Prop :=
  match lifecycle.stage with
  | .constructed =>
      lifecycle.connection.state_ = .kConnecting ∧
      lifecycle.connection.ownerCalls = [] ∧ lifecycle.calls = []
  | .establishing =>
      lifecycle.connection.state_ = .kConnected ∧ lifecycle.connection.ownerCalls = []
  | .established => lifecycle.connection.Regular

/-- Where it stands after a step that was not. -/
def Broken (lifecycle : Lifecycle Thread) : Prop :=
  match lifecycle.stage with
  | .constructed => False
  | .establishing =>
      lifecycle.connection.state_ = .kDisconnecting ∧ lifecycle.connection.ownerCalls = []
  | .established => lifecycle.connection.Irregular

theorem next_establishing (establishing : lifecycle.stage = .establishing)
    {event : Event Thread} (enabled : lifecycle.Enabled loop event) :
    event = .connectionCallback ∨
    ((lifecycle.next loop event).stage = .establishing ∧
      (lifecycle.next loop event).connection.ownerCalls = lifecycle.connection.ownerCalls ∧
      (lifecycle.next loop event).connection.state_ =
        if lifecycle.connection.state_ = .kConnected ∧ ¬ lifecycle.Fit event then
          .kDisconnecting
        else
          lifecycle.connection.state_) := by
  cases event with
  | connectionCallback => exact .inl rfl
  | connectEstablished =>
      simp only [Enabled] at enabled
      rw [establishing] at enabled
      cases enabled
  | poll | handleEvent | handle | doPendingFunctors | runFunctor | endFunctors =>
      have free := enabled.1.1
      rw [establishing] at free
      cases free
  | proceed thread request result =>
      have remote : ¬ (thread = loop ∧ request.RunsInLoop) := by
        rintro ⟨own, _⟩
        have free := enabled.2 own
        rw [establishing] at free
        cases free
      refine .inr ?_
      simp [next, remote, establishing, Fit, TcpConnection.queueInLoop]
  | request thread request =>
      refine .inr ?_
      by_cases connected : lifecycle.connection.state_ = .kConnected
      · cases request <;>
          simp [next, Request.test, TcpConnection.compareExchange, connected, establishing,
            Fit, Request.Leaves]
      · cases request <;>
          simp [next, Request.test, TcpConnection.compareExchange, connected, establishing]

theorem next_constructed (constructed : lifecycle.stage = .constructed)
    (sound : lifecycle.Sound) {event : Event Thread}
    (enabled : lifecycle.Enabled loop event) :
    event = .connectEstablished ∨ lifecycle.next loop event = lifecycle := by
  simp only [Sound, constructed] at sound
  obtain ⟨connecting, _, none⟩ := sound
  cases event with
  | connectEstablished => exact .inl rfl
  | connectionCallback =>
      simp only [Enabled] at enabled
      rw [constructed] at enabled
      cases enabled
  | poll | handleEvent | handle | doPendingFunctors | runFunctor | endFunctors =>
      have free := enabled.1.1
      rw [constructed] at free
      cases free
  | proceed thread request result =>
      have underWay := enabled.1
      rw [none] at underWay
      cases underWay
  | request thread request =>
      refine .inr ?_
      cases request with
      | send | shutdown | forceClose =>
          simp [next, Request.test, TcpConnection.compareExchange, connecting]
      | runConnectDestroyed | queueConnectDestroyed =>
          exact absurd constructed (enabled.2.2 trivial)

theorem Sound.next (sound : lifecycle.Sound) {event : Event Thread}
    (enabled : lifecycle.Enabled loop event) :
    (lifecycle.Fit event → (lifecycle.next loop event).Sound) ∧
      (¬ lifecycle.Fit event → (lifecycle.next loop event).Broken) := by
  cases stage : lifecycle.stage with
  | constructed =>
      have fit : lifecycle.Fit event := by
        cases event with
        | request thread request =>
            intro _
            simp [stage]
        | handle read write =>
            have free := enabled.1.1
            rw [stage] at free
            cases free
        | _ => trivial
      refine ⟨fun _ => ?_, fun unfit => absurd fit unfit⟩
      rcases next_constructed stage sound enabled with rfl | same
      · simp only [Sound, stage] at sound
        exact ⟨rfl, sound.2.1⟩
      · rw [same]
        exact sound
  | establishing =>
      simp only [Sound, stage] at sound
      obtain ⟨connected, silent⟩ := sound
      rcases next_establishing stage enabled with rfl | ⟨stays, calls, state⟩
      · refine ⟨fun _ => .inl ⟨.inl connected, ?_, ?_⟩, fun unfit => absurd trivial unfit⟩
        · simp [Lifecycle.next, TcpConnection.reportState, TcpConnection.callOwner,
            TcpConnection.reports, silent, connected, OwnerCall.state?]
        · simp [Lifecycle.next, TcpConnection.reportState, TcpConnection.callOwner,
            TcpConnection.closes, silent]
      · simp only [Sound, Broken, stays, calls, silent, state, connected, true_and, and_true]
        constructor
        · intro fit
          simp [fit]
        · intro unfit
          simp [unfit]
  | established =>
      obtain ⟨stays, received, change⟩ := next_change stage enabled
      simp only [Sound, stage] at sound
      simp only [Sound, Broken, stays]
      exact sound.change change

theorem Broken.next (broken : lifecycle.Broken) {event : Event Thread}
    (enabled : lifecycle.Enabled loop event) : (lifecycle.next loop event).Broken := by
  cases stage : lifecycle.stage with
  | constructed => simp [Broken, stage] at broken
  | establishing =>
      simp only [Broken, stage] at broken
      obtain ⟨disconnecting, silent⟩ := broken
      rcases next_establishing stage enabled with rfl | ⟨stays, calls, state⟩
      · refine ⟨[], .inl ?_⟩
        simp [Lifecycle.next, TcpConnection.reportState, TcpConnection.callOwner,
          TcpConnection.reports, silent, disconnecting, OwnerCall.state?]
      · simp [Broken, stays, calls, silent, state, disconnecting]
  | established =>
      obtain ⟨stays, received, change⟩ := next_change stage enabled
      simp only [Broken, stage] at broken
      simp only [Broken, stays]
      exact broken.change change

/-- No step moves `state_` back. -/
theorem forward_next (standing : lifecycle.Sound ∨ lifecycle.Broken) {event : Event Thread}
    (enabled : lifecycle.Enabled loop event) :
    lifecycle.connection.state_.rank ≤ (lifecycle.next loop event).connection.state_.rank := by
  cases stage : lifecycle.stage with
  | constructed =>
      rcases standing with sound | broken
      · rcases next_constructed stage sound enabled with rfl | same
        · simp only [Sound, stage] at sound
          rw [sound.1]
          exact Nat.zero_le _
        · rw [same]
      · simp [Broken, stage] at broken
  | establishing =>
      rcases next_establishing stage enabled with rfl | ⟨_, _, state⟩
      · exact Nat.le_refl _
      · rw [state]
        split
        next left =>
          rw [left.1]
          decide
        next => exact Nat.le_refl _
  | established =>
      obtain ⟨_, received, change⟩ := next_change stage enabled
      exact change.forward

omit [DecidableEq Thread] in
theorem Sound.reportedOnce (sound : lifecycle.Sound) : lifecycle.ReportedOnce := by
  unfold Sound at sound
  split at sound
  next stage =>
    refine ⟨?_, by simp [stage], ?_⟩ <;>
      simp [TcpConnection.reports, TcpConnection.closes, sound.2.1]
  next stage =>
    refine ⟨?_, by simp [stage], ?_⟩ <;>
      simp [TcpConnection.reports, TcpConnection.closes, sound.2]
  next stage =>
    rcases sound with ⟨_, reports, closes⟩ | ⟨_, reports, closes⟩
    · exact ⟨by simp [stage], fun _ => .inl reports, by omega⟩
    · exact ⟨by simp [stage], fun _ => .inr ⟨_, by simp, reports⟩, closes⟩

omit [DecidableEq Thread] in
theorem Broken.reportedOnce_iff (broken : lifecycle.Broken) :
    lifecycle.ReportedOnce ↔ lifecycle.stage ≠ .established := by
  unfold Broken at broken
  split at broken
  next stage => exact broken.elim
  next stage =>
    refine iff_of_true ⟨?_, by simp [stage], ?_⟩ (by simp [stage]) <;>
      simp [TcpConnection.reports, TcpConnection.closes, broken.2]
  next stage =>
    refine iff_of_false ?_ (by simp [stage])
    intro once
    obtain ⟨later, missed | twice⟩ := broken
    · rcases once.after stage with reports | ⟨_, _, reports⟩ <;> simp [reports] at missed
    · rcases once.after stage with reports | ⟨_, _, reports⟩ <;> simp [reports] at twice

/-- Where a run stands, by whether all its steps have been fit. -/
theorem run_standing {start finish : Lifecycle Thread} {events : List (Event Thread)}
    (initial : (system loop).initial start)
    (run : (system loop).Run start events finish) :
    (System.Allowed Fit (Lifecycle.next loop) start events → finish.Sound) ∧
      (¬ System.Allowed Fit (Lifecycle.next loop) start events → finish.Broken) := by
  have base : start.Sound := by
    obtain ⟨writeComplete, highWaterMark, rfl⟩ := initial
    exact ⟨rfl, rfl, rfl⟩
  induction run with
  | nil => exact ⟨fun _ => base, fun unfit => absurd trivial unfit⟩
  | @snoc past middle event _ before step inductionHypothesis =>
      obtain ⟨enabled, rfl⟩ := step
      have reached := before.eq_foldl (Lifecycle.next loop) fun _ _ _ taken => taken.2
      rw [System.allowed_append, ← reached]
      by_cases allowed : System.Allowed Fit (Lifecycle.next loop) start past
      · have now := (inductionHypothesis.1 allowed).next enabled
        simpa [allowed] using now
      · have broken := (inductionHypothesis.2 allowed).next enabled
        simpa [allowed] using broken

theorem run_forward {start before after : Lifecycle Thread}
    {front back : List (Event Thread)} (initial : (system loop).initial start)
    (reached : (system loop).Run start front before)
    (onward : (system loop).Run before back after) :
    before.connection.state_.rank ≤ after.connection.state_.rank := by
  induction onward with
  | nil => exact Nat.le_refl _
  | snoc since step inductionHypothesis =>
      obtain ⟨enabled, rfl⟩ := step
      have standing := run_standing initial (reached.append since)
      refine inductionHypothesis.trans (forward_next ?_ enabled)
      exact (Classical.em _).imp standing.1 standing.2

/-- In every run `state_` only moves forward; and the life of an established
connection is reported once exactly when every step so far has been fit. -/
theorem reported_once_iff {start before after : Lifecycle Thread}
    {front back : List (Event Thread)} (initial : (system loop).initial start)
    (reached : (system loop).Run start front before)
    (onward : (system loop).Run before back after) :
    (before.connection.state_.rank ≤ after.connection.state_.rank ∧ after.ReportedOnce) ↔
      (after.stage = .established →
        System.Allowed Fit (Lifecycle.next loop) start (front ++ back)) := by
  have forward := run_forward initial reached onward
  obtain ⟨sound, broken⟩ := run_standing initial (reached.append onward)
  by_cases allowed : System.Allowed Fit (Lifecycle.next loop) start (front ++ back)
  · exact iff_of_true ⟨forward, (sound allowed).reportedOnce⟩ fun _ => allowed
  · have once := (broken allowed).reportedOnce_iff
    simp only [forward, true_and, once, allowed, imp_false, ne_eq]

theorem run_of_allowed (loop : Thread) {start : Lifecycle Thread} {events : List (Event Thread)}
    (allowed : System.Allowed (Enabled loop) (Lifecycle.next loop) start events) :
    (system loop).Run start events (events.foldl (Lifecycle.next loop) start) :=
  System.Run.foldl (system loop) (Enabled loop) (fun _ _ enabled => ⟨enabled, rfl⟩) allowed

/-- The peer closes, another thread has called `shutdown` before, and the owner
destroys the connection at the end. -/
theorem reported_once_iff_shutdown :
    let front : List (Event Bool) :=
      [.connectEstablished, .connectionCallback, .request true .shutdown,
        .proceed true .shutdown (.wrote 0)]
    let back : List (Event Bool) :=
      [.endFunctors, .poll (some Channel.EPOLLIN), .handleEvent,
        .handle (.delivered []) (.wrote 0), .request false .queueConnectDestroyed,
        .proceed false .queueConnectDestroyed (.wrote 0), .doPendingFunctors,
        .runFunctor (.wrote 0), .runFunctor (.wrote 0)]
    let before := front.foldl (Lifecycle.next false) (start false false)
    let after := back.foldl (Lifecycle.next false) before
    (before.connection.state_.rank ≤ after.connection.state_.rank ∧ after.ReportedOnce) ↔
      (after.stage = .established →
        System.Allowed Fit (Lifecycle.next false) (start false false) (front ++ back)) :=
  reported_once_iff ⟨false, false, rfl⟩ (run_of_allowed false (by decide))
    (run_of_allowed false (by decide +kernel))

/-- One dispatch of a hang-up with urgent data whose read returns zero. -/
def hangUpAndZeroRead : List (Event Unit) :=
  [.connectEstablished, .connectionCallback, .endFunctors,
    .poll (some (Channel.EPOLLHUP ||| Channel.EPOLLPRI)), .handleEvent,
    .handle (.delivered []) (.wrote 0), .handle (.delivered []) (.wrote 0)]

/-- `handleClose` runs twice in one dispatch. -/
theorem reported_twice_hangUpAndZeroRead :
    ¬ ∀ (events : List (Event Unit)) (lifecycle : Lifecycle Unit),
      (system ()).Execution events lifecycle → lifecycle.ReportedOnce := by
  intro always
  have execution : (system ()).Execution hangUpAndZeroRead
      (hangUpAndZeroRead.foldl (Lifecycle.next ()) (start false false)) :=
    ⟨start false false, ⟨false, false, rfl⟩, run_of_allowed () (by decide)⟩
  have once := (always _ _ execution).closes
  revert once
  decide +kernel

end Lifecycle

end GdRpc.Net
