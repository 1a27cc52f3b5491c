import GdRpc.Net.ForceClose

/-!
# What is left of a channel

`connectDestroyed` takes the channel out of epoll. Nothing brings it back: the
connection is closed by then, and no functor touches the mask of a closed
connection.
-/

namespace GdRpc.Net

open GdRpc.Library

universe u

namespace EPollPoller

/-- Only a channel in state `kAdded` is known to epoll. -/
def Registry (poller : EPollPoller) : Prop :=
  poller.state_ ≠ .kAdded → poller.registered = none

theorem updateChannel_registry (poller : EPollPoller) (channel : Channel) :
    (poller.updateChannel channel).Registry := by
  intro notAdded
  unfold updateChannel at notAdded ⊢
  split at notAdded
  next => exact absurd rfl notAdded
  next known =>
    rw [if_neg known]
    split at notAdded
    next none =>
      rw [if_pos none]
      rfl
    next =>
      have added : poller.state_ = .kAdded := by
        cases state : poller.state_ <;> simp_all
      exact absurd added notAdded

theorem removeChannel_registered {poller : EPollPoller} (registry : poller.Registry)
    (channel : Channel) : (poller.removeChannel channel).registered = none := by
  unfold removeChannel
  split
  next => rfl
  next notAdded => exact registry notAdded

end EPollPoller

namespace TcpConnection

theorem Closed.runFunctor_still {connection : TcpConnection} (closed : connection.Closed)
    (functor : Functor) (result : WriteResult) :
    (connection.runFunctor functor result).channel_ = connection.channel_ ∧
      (connection.runFunctor functor result).closes = connection.closes := by
  cases functor with
  | sendInLoop s =>
      rw [runFunctor, sendInLoop, if_pos closed.state_]
      exact ⟨rfl, rfl⟩
  | shutdownInLoop =>
      rw [runFunctor, shutdownInLoop_eq]
      exact ⟨rfl, rfl⟩
  | forceCloseInLoop =>
      rw [runFunctor, forceCloseInLoop, if_neg (by simp [closed.state_])]
      exact ⟨rfl, rfl⟩
  | connectDestroyed =>
      rw [runFunctor, closed.connectDestroyed]
      exact ⟨rfl, rfl⟩
  | writeCompleteCallback | highWaterMarkCallback => exact ⟨rfl, rfl⟩

end TcpConnection

namespace Lifecycle

variable {Thread : Type u} [DecidableEq Thread] {loop : Thread} {lifecycle : Lifecycle Thread}

omit [DecidableEq Thread] in
theorem commit_registry (registry : lifecycle.poller.Registry) (after : TcpConnection) :
    (lifecycle.commit after).poller.Registry := by
  simp only [commit]
  split
  · exact lifecycle.poller.updateChannel_registry after.channel_
  · exact registry

omit [DecidableEq Thread] in
theorem perform_registry (registry : lifecycle.poller.Registry) (functor : Functor)
    (result : WriteResult) : (lifecycle.perform functor result).poller.Registry := by
  have committed := commit_registry registry (lifecycle.connection.runFunctor functor result)
  unfold perform
  dsimp only
  split
  · exact fun _ => EPollPoller.removeChannel_registered committed _
  · exact committed

omit [DecidableEq Thread] in
theorem perform_connectDestroyed (registry : lifecycle.poller.Registry) (result : WriteResult) :
    (lifecycle.perform .connectDestroyed result).poller.registered = none :=
  EPollPoller.removeChannel_registered
    (commit_registry registry (lifecycle.connection.runFunctor .connectDestroyed result)) _

omit [DecidableEq Thread] in
theorem perform_unregistered (closed : lifecycle.connection.Closed)
    (registry : lifecycle.poller.Registry) (functor : Functor) (result : WriteResult)
    (unregistered : lifecycle.poller.registered = none) :
    (lifecycle.perform functor result).poller.registered = none := by
  by_cases last : functor = .connectDestroyed
  · subst last
    exact perform_connectDestroyed registry result
  · obtain ⟨channel, closes⟩ := closed.runFunctor_still functor result
    simp only [perform, if_neg last, commit, channel, closes, ne_eq, not_true_eq_false, or_self,
      if_false]
    exact unregistered

omit [DecidableEq Thread] in
theorem callHandler_registry (registry : lifecycle.poller.Registry) (handler : Channel.Handler)
    (read : ReadvResult) (write : WriteResult) :
    (lifecycle.callHandler handler read write).poller.Registry := by
  cases handler with
  | closeCallback_ | readCallback_ | writeCallback_ => exact commit_registry registry _
  | errorCallback_ => exact registry

theorem next_registry (registry : lifecycle.poller.Registry) (event : Event Thread) :
    (lifecycle.next loop event).poller.Registry := by
  cases event with
  | connectEstablished => exact commit_registry registry _
  | connectionCallback | poll | doPendingFunctors | endFunctors => exact registry
  | request thread request =>
      rcases next_request loop thread request lifecycle with ⟨-, eq⟩ | eq <;>
      · rw [eq]
        exact registry
  | proceed thread request result =>
      simp only [next]
      split
      · apply perform_registry
        exact registry
      · exact registry
  | handleEvent =>
      simp only [next]
      split <;> exact registry
  | handle read write =>
      simp only [next]
      split
      next handler handlers here =>
        apply callHandler_registry
        exact registry
      next => exact registry
  | runFunctor result =>
      simp only [next]
      split
      next functor batch here =>
        apply perform_registry
        exact registry
      next => exact registry

/-- Unless a handler runs, the channel of a closed connection stays out of
epoll. -/
theorem next_unregistered (closed : lifecycle.connection.Closed)
    (registry : lifecycle.poller.Registry) (begun : lifecycle.stage ≠ .constructed)
    {event : Event Thread} (enabled : lifecycle.Enabled loop event)
    (idle : lifecycle.handler? = none) (unregistered : lifecycle.poller.registered = none) :
    (lifecycle.next loop event).poller.registered = none := by
  cases event with
  | connectEstablished => exact absurd enabled begun
  | connectionCallback | poll | doPendingFunctors | endFunctors => exact unregistered
  | request thread request =>
      rcases next_request loop thread request lifecycle with ⟨-, eq⟩ | eq <;>
      · rw [eq]
        exact unregistered
  | proceed thread request result =>
      simp only [next]
      split
      · refine perform_unregistered ?_ ?_ _ _ ?_
        · exact closed
        · exact registry
        · exact unregistered
      · exact unregistered
  | handleEvent =>
      simp only [next]
      split <;> exact unregistered
  | handle read write =>
      have handles := enabled.2
      rw [idle] at handles
      cases handles
  | runFunctor result =>
      simp only [next]
      split
      next functor batch here =>
        refine perform_unregistered ?_ ?_ _ _ ?_
        · exact closed
        · exact registry
        · exact unregistered
      next => exact unregistered

/-- What comes into the queue of functors: notifications, and what a request
binds. Only `doPendingFunctors` takes something out. -/
theorem next_pending {event : Event Thread} (enabled : lifecycle.Enabled loop event)
    (waits : event ≠ .doPendingFunctors) :
    ∃ added, (lifecycle.next loop event).connection.pending_functors_ =
        lifecycle.connection.pending_functors_ ++ added ∧
      ∀ functor ∈ added, functor.Notifies ∨ ∃ thread request result,
        event = .proceed thread request result ∧ functor = request.functor ∧
          ¬ (thread = loop ∧ request.RunsInLoop) := by
  have notified : ∀ after : TcpConnection, lifecycle.connection.Queues after →
      ∃ added, after.pending_functors_ = lifecycle.connection.pending_functors_ ++ added ∧
        ∀ functor ∈ added, functor.Notifies ∨ ∃ thread request result,
          event = .proceed thread request result ∧ functor = request.functor ∧
            ¬ (thread = loop ∧ request.RunsInLoop) := by
    rintro after ⟨added, notify, eq⟩
    exact ⟨added, eq, fun functor membership => Or.inl (notify functor membership)⟩
  cases event with
  | connectEstablished | connectionCallback | poll | endFunctors => exact notified _ (.of_eq rfl)
  | request thread request =>
      apply notified
      rcases next_request loop thread request lifecycle with ⟨-, eq⟩ | eq
      · rw [eq]
        exact .of_eq (test_pending request lifecycle.connection)
      · rw [eq]
        exact .of_eq rfl
  | proceed thread request result =>
      simp only [next]
      split
      next now =>
        apply notified
        rw [(perform_fields request.functor result).1]
        exact lifecycle.connection.runFunctor_queues request.functor result
      next later =>
        refine ⟨[request.functor], rfl, ?_⟩
        intro functor membership
        rw [List.mem_singleton] at membership
        exact Or.inr ⟨thread, request, result, rfl, membership, later⟩
  | handleEvent =>
      apply notified
      simp only [next]
      split <;> exact .of_eq rfl
  | handle read write =>
      apply notified
      obtain ⟨handler, handlers, here⟩ := handling_of_handler? enabled.2
      simp only [next, here]
      exact (@callHandler_fields _ ⟨_, _, _, .handling handlers, _⟩ handler read write).2.2
  | doPendingFunctors => exact absurd rfl waits
  | runFunctor result =>
      apply notified
      obtain ⟨functor, rest, here⟩ := functors_of_functor? enabled.2
      simp only [next, here]
      rw [(perform_fields functor result).1]
      exact lifecycle.connection.runFunctor_queues functor result

/-- The loop changes its list of swapped out functors. -/
def Event.Swaps : Event Thread → Prop
  | .doPendingFunctors | .runFunctor _ | .endFunctors => True
  | _ => False

theorem next_functors_iff {event : Event Thread} (enabled : lifecycle.Enabled loop event)
    (other : ¬ event.Swaps) (batch : List Functor) :
    (lifecycle.next loop event).iteration = .functors batch ↔
      lifecycle.iteration = .functors batch := by
  cases event with
  | connectEstablished | connectionCallback => exact Iff.rfl
  | request thread request =>
      rcases next_request loop thread request lifecycle with ⟨-, eq⟩ | eq <;> rw [eq]
  | proceed thread request result =>
      simp only [next]
      split
      · rw [(perform_fields request.functor result).2.1]
      · exact Iff.rfl
  | poll return_events_ => simp [next, enabled.2.1]
  | handleEvent =>
      obtain ⟨return_events_, active⟩ := active_of_return_events? enabled.2
      simp [next, active]
  | handle read write =>
      obtain ⟨handler, handlers, here⟩ := handling_of_handler? enabled.2
      simp only [next, here]
      rw [(callHandler_fields handler read write).1]
      simp
  | doPendingFunctors | runFunctor | endFunctors => exact absurd trivial other

theorem next_batch {event : Event Thread} (enabled : lifecycle.Enabled loop event)
    (other : ¬ event.Swaps) : (lifecycle.next loop event).batch = lifecycle.batch := by
  have same := next_functors_iff enabled other
  unfold batch
  split
  next after here => rw [(same after).mp here]
  next elsewhere =>
    split
    next before here => exact absurd ((same before).mpr here) (elsewhere before)
    next => rfl

/-- The loop is inside `handleEvent` of the channel. -/
def Dispatching (lifecycle : Lifecycle Thread) : Prop :=
  match lifecycle.iteration with
  | .handling _ => True
  | _ => False

instance (lifecycle : Lifecycle Thread) : Decidable lifecycle.Dispatching := by
  unfold Dispatching
  split <;> infer_instance

/-- Nothing is left of the channel in epoll or in the loop. -/
structure Gone (lifecycle : Lifecycle Thread) : Prop where
  registered : lifecycle.poller.registered = none
  active : lifecycle.return_events? = none
  handling : ∀ handlers, lifecycle.iteration ≠ .handling handlers

omit [DecidableEq Thread] in
theorem Gone.handler? (gone : lifecycle.Gone) : lifecycle.handler? = none := by
  unfold Lifecycle.handler?
  split
  next handlers here => exact absurd here (gone.handling handlers)
  next => rfl

omit [DecidableEq Thread] in
theorem Gone.congr {after : Lifecycle Thread} (gone : lifecycle.Gone)
    (registered : after.poller.registered = none)
    (iteration : after.iteration = lifecycle.iteration) : after.Gone := by
  refine ⟨registered, ?_, by rw [iteration]; exact gone.handling⟩
  have active := gone.active
  unfold return_events? at active ⊢
  rw [iteration]
  exact active

omit [DecidableEq Thread] in
theorem Gone.of_functors {batch : List Functor} (registered : lifecycle.poller.registered = none)
    (here : lifecycle.iteration = .functors batch) : lifecycle.Gone :=
  ⟨registered, by simp [return_events?, here], by simp [here]⟩

theorem Gone.next (gone : lifecycle.Gone) (closed : lifecycle.connection.Closed)
    (registry : lifecycle.poller.Registry) (begun : lifecycle.stage ≠ .constructed)
    {event : Event Thread} (enabled : lifecycle.Enabled loop event) :
    (lifecycle.next loop event).Gone := by
  have registered := next_unregistered closed registry begun enabled gone.handler?
    gone.registered
  cases event with
  | connectEstablished => exact absurd enabled begun
  | connectionCallback => exact gone.congr registered rfl
  | request thread request =>
      apply gone.congr registered
      rcases next_request loop thread request lifecycle with ⟨-, eq⟩ | eq <;> rw [eq]
  | proceed thread request result =>
      apply gone.congr registered
      simp only [Lifecycle.next]
      split
      · exact (perform_fields request.functor result).2.1
      · rfl
  | poll return_events_ =>
      refine ⟨registered, ?_, by simp [Lifecycle.next]⟩
      cases return_events_ with
      | none => rfl
      | some events =>
          have known := enabled.2.2 rfl
          rw [gone.registered] at known
          cases known
  | handleEvent =>
      have active := enabled.2
      rw [gone.active] at active
      cases active
  | handle read write =>
      have handles := enabled.2
      rw [gone.handler?] at handles
      cases handles
  | doPendingFunctors => exact Gone.of_functors registered rfl
  | runFunctor result =>
      obtain ⟨functor, rest, here⟩ := functors_of_functor? enabled.2
      apply Gone.of_functors registered
      simp only [Lifecycle.next, here]
      exact (perform_fields functor result).2.1
  | endFunctors => exact ⟨registered, rfl, by simp [Lifecycle.next]⟩

theorem next_silent {event : Event Thread} (orderly : lifecycle.Orderly)
    (silent : lifecycle.stage ≠ .established → lifecycle.connection.closes = 0)
    (enabled : lifecycle.Enabled loop event)
    (early : (lifecycle.next loop event).stage ≠ .established) :
    (lifecycle.next loop event).connection.closes = 0 := by
  cases stage : lifecycle.stage with
  | constructed =>
      have before := silent (by simp [stage])
      rcases next_constructed stage (orderly.sound stage) enabled with rfl | same
      · exact before
      · rw [same]
        exact before
  | establishing =>
      have before := silent (by simp [stage])
      rcases next_establishing stage enabled with rfl | ⟨-, calls, -⟩
      · exact absurd rfl early
      · rw [TcpConnection.closes, calls]
        exact before
  | established => exact absurd (next_change stage enabled).1 early

end Lifecycle

end GdRpc.Net
