import GdRpc.Library.BatchQueue
import GdRpc.Library.Transition
import GdRpc.Util.TimingWheel

/-!
# `EventLoop`

One iteration polls, lets the timing wheel catch up with the poll's timestamp,
handles the active channels and runs the pending functors. What the user does
in a timer, a handler or a functor are events of their own; any thread may
call `queueInLoop` and `quit` at any time. The type of the functors and that
of the timer callbacks are left open.
-/

namespace GdRpc.Net

open GdRpc.Library GdRpc.Util

universe u v w

def TIMINGWHEEL_LEN : Nat := 60 * 1000

/-- A callback given to `runAfter`, with the call: the clock's reading and the
time the wheel had reached. -/
structure Timer (Callback : Type w) where
  callback : Callback
  afterMs : Int
  called : Int
  wheelTime : Int
  deriving DecidableEq, Repr

/-- The channel of `wakeupFd_` has a handler of its own. -/
inductive ActiveChannel where
  | wakeup
  | other
  deriving DecidableEq, Repr

/-- Where the loop thread is. `testing` is the head of the `while`;
`takeAllTimeout` still has the given number of ticks to do; `calling` is the
start of `doPendingFunctors`, before the swap. -/
inductive Location where
  | outside
  | testing
  | polling
  | takeAllTimeout (ticks : Nat)
  | handlers
  | calling
  | functors
  deriving DecidableEq, Repr

namespace Location

/-- In the loop of `takeAllTimeout`, with `condition` on the ticks to do. -/
def InTakeAllTimeout (condition : Nat → Prop) : Location → Prop
  | takeAllTimeout ticks => condition ticks
  | _ => False

theorem InTakeAllTimeout.exists {condition : Nat → Prop} {location : Location}
    (inside : location.InTakeAllTimeout condition) :
    ∃ ticks, location = .takeAllTimeout ticks ∧ condition ticks := by
  cases location with
  | takeAllTimeout ticks => exact ⟨ticks, rfl, inside⟩
  | outside | testing | polling | handlers | calling | functors => exact inside.elim

instance (condition : Nat → Prop) [∀ ticks, Decidable (condition ticks)] :
    ∀ location : Location, Decidable (location.InTakeAllTimeout condition)
  | takeAllTimeout ticks => inferInstanceAs (Decidable (condition ticks))
  | outside | testing | polling | handlers | calling | functors =>
      inferInstanceAs (Decidable False)

end Location

/-- `wakeupFd_` is the counter of the eventfd and `functors` the rest of the
vector local to `doPendingFunctors`. `waking` lists the threads between the two
halves of `queueInLoop`, `quitting` those between the two of `quit`; `clock` is
the last reading of the clock. The last four fields only record. -/
structure EventLoop (Thread : Type u) (Functor : Type v) (Callback : Type w) where
  looping_ : Bool
  quit_ : Bool
  epoll_reture_time_ : Int
  wakeupFd_ : Nat
  timeWheel_ : WheelRun (Timer Callback)
  starttime_ : Int
  active_channels_ : List ActiveChannel
  calling_pending_functors_ : Bool
  pending_functors_ : List Functor
  functors : List Functor
  location : Location
  clock : Int
  waking : List Thread
  quitting : List Thread
  batches : Nat
  enqueued : List (Functor × Nat)
  executed : List (Functor × Nat)
  fired : List (Timer Callback × Int)

namespace EventLoop

variable {Thread : Type u} {Functor : Type v} {Callback : Type w}

/-- The constructor, at time `now`. -/
def new (now : Int) : EventLoop Thread Functor Callback where
  looping_ := false
  quit_ := false
  epoll_reture_time_ := now
  wakeupFd_ := 0
  timeWheel_ := .start TIMINGWHEEL_LEN
  starttime_ := now
  active_channels_ := []
  calling_pending_functors_ := false
  pending_functors_ := []
  functors := []
  location := .outside
  clock := now
  waking := []
  quitting := []
  batches := 0
  enqueued := []
  executed := []
  fired := []

inductive Event (Thread : Type u) (Functor : Type v) (Callback : Type w) where
  | queueInLoop (thread : Thread) (cb : Functor)
  | wakeup (thread : Thread)
  | quit (thread : Thread)
  | quitWakeup (thread : Thread)
  | runAfter (now afterMs : Int) (cb : Callback) (times : Int)
  | remove (task : Nat)
  | loop
  | iterate
  | poll (now : Int) (channels : List ActiveChannel)
  | beginTick
  | visit
  | finish
  | endTick
  | endTakeAllTimeout
  | handleEvent
  | doPendingFunctors
  | swap
  | runFunctor
  | endFunctors
  | stop

/-- The loop thread may be executing code of the user. -/
def UserActs (loop : EventLoop Thread Functor Callback) : Prop :=
  match loop.location with
  | .outside | .handlers | .functors => True
  | .takeAllTimeout _ => loop.timeWheel_.phase.InCallback
  | .testing | .polling | .calling => False

instance (loop : EventLoop Thread Functor Callback) : Decidable loop.UserActs := by
  unfold UserActs
  split <;> infer_instance

/-- The time up to which the wheel has ticked. -/
def wheelTime (loop : EventLoop Thread Functor Callback) : Int :=
  match loop.location with
  | .takeAllTimeout ticks => loop.epoll_reture_time_ - ticks
  | _ => loop.starttime_

section Steps

variable [DecidableEq Thread] (self : Thread)

/-- `self` is the thread of the loop. -/
def Enabled (loop : EventLoop Thread Functor Callback) :
    Event Thread Functor Callback → Prop
  | .queueInLoop thread _ =>
      (thread ∉ loop.waking ∧ thread ∉ loop.quitting) ∧ (thread = self → loop.UserActs)
  | .wakeup thread => thread ∈ loop.waking
  | .quit thread =>
      (thread ∉ loop.waking ∧ thread ∉ loop.quitting) ∧ (thread = self → loop.UserActs)
  | .quitWakeup thread => thread ∈ loop.quitting
  | .runAfter now _ _ _ => self ∉ loop.waking ∧ loop.UserActs ∧ loop.clock ≤ now
  | .remove _ => self ∉ loop.waking ∧ loop.UserActs
  | .loop => self ∉ loop.waking ∧ loop.location = .outside
  | .iterate => self ∉ loop.waking ∧ loop.location = .testing ∧ loop.quit_ = false
  | .poll now channels =>
      self ∉ loop.waking ∧ loop.location = .polling ∧
        loop.clock ≤ now ∧ (.wakeup ∈ channels → 0 < loop.wakeupFd_)
  | .beginTick =>
      self ∉ loop.waking ∧ loop.location.InTakeAllTimeout (0 < ·) ∧
        loop.timeWheel_.Enabled .beginTick
  | .visit =>
      self ∉ loop.waking ∧ loop.location.InTakeAllTimeout (0 < ·) ∧
        loop.timeWheel_.Enabled .visit
  | .finish =>
      self ∉ loop.waking ∧ loop.location.InTakeAllTimeout (0 < ·) ∧
        loop.timeWheel_.Enabled .finish
  | .endTick =>
      self ∉ loop.waking ∧ loop.location.InTakeAllTimeout (0 < ·) ∧
        loop.timeWheel_.Enabled .endTick
  | .endTakeAllTimeout =>
      self ∉ loop.waking ∧ loop.location.InTakeAllTimeout (· = 0) ∧
        loop.timeWheel_.phase = .idle
  | .handleEvent =>
      self ∉ loop.waking ∧ loop.location = .handlers ∧ loop.active_channels_ ≠ []
  | .doPendingFunctors =>
      self ∉ loop.waking ∧ loop.location = .handlers ∧ loop.active_channels_ = []
  | .swap => self ∉ loop.waking ∧ loop.location = .calling
  | .runFunctor =>
      self ∉ loop.waking ∧ loop.location = .functors ∧ loop.functors ≠ []
  | .endFunctors =>
      self ∉ loop.waking ∧ loop.location = .functors ∧ loop.functors = []
  | .stop => self ∉ loop.waking ∧ loop.location = .testing ∧ loop.quit_ = true

instance (loop : EventLoop Thread Functor Callback) :
    ∀ event, Decidable (loop.Enabled self event)
  | .queueInLoop _ _ | .wakeup _ | .quit _ | .quitWakeup _ | .runAfter _ _ _ _ | .remove _
  | .loop | .iterate | .poll _ _ | .beginTick | .visit | .finish | .endTick | .endTakeAllTimeout
  | .swap | .stop => by unfold Enabled; infer_instance
  | .handleEvent => by unfold Enabled; infer_instance
  | .doPendingFunctors => decidable_of_iff (self ∉ loop.waking ∧
      loop.location = .handlers ∧ loop.active_channels_.isEmpty) (by simp [Enabled])
  | .runFunctor => decidable_of_iff (self ∉ loop.waking ∧
      loop.location = .functors ∧ ¬ loop.functors.isEmpty) (by simp [Enabled])
  | .endFunctors => decidable_of_iff (self ∉ loop.waking ∧
      loop.location = .functors ∧ loop.functors.isEmpty) (by simp [Enabled])

/-- `runAfter`, at time `now`; `times` is what `addTask` leaves uninitialised. -/
def runAfter (loop : EventLoop Thread Functor Callback) (now afterMs : Int)
    (cb : Callback) (times : Int) : EventLoop Thread Functor Callback :=
  { loop with
    timeWheel_ := loop.timeWheel_.addTask afterMs
      ⟨cb, afterMs, now, loop.wheelTime⟩ times
    clock := now }

/-- A turn of the loop of `tick`, recording the timer it starts to run. -/
def visit (loop : EventLoop Thread Functor Callback) :
    EventLoop Thread Functor Callback :=
  let wheel := loop.timeWheel_.next .visit
  { loop with
    timeWheel_ := wheel
    fired := loop.fired ++ (wheel.ran.drop loop.timeWheel_.ran.length).map
      fun ran => (ran.callback, loop.epoll_reture_time_) }

/-- The `int` that counts the ticks of `takeAllTimeout` has no bound here. It
would overflow at a `poll` whose reading is `2 ^ 31` ms or more behind the last
one. -/
def next (loop : EventLoop Thread Functor Callback) :
    Event Thread Functor Callback → EventLoop Thread Functor Callback
  | .queueInLoop thread cb =>
      { loop with
        pending_functors_ := loop.pending_functors_ ++ [cb]
        enqueued := loop.enqueued ++ [(cb, loop.batches)]
        waking := loop.waking ++ [thread] }
  | .wakeup thread =>
      let returned := { loop with waking := loop.waking.erase thread }
      if thread ≠ self ∨ loop.calling_pending_functors_ then
        { returned with wakeupFd_ := loop.wakeupFd_ + 1 }
      else
        returned
  | .quit thread =>
      let quitting := { loop with quit_ := true }
      if thread ≠ self then
        { quitting with quitting := loop.quitting ++ [thread] }
      else
        quitting
  | .quitWakeup thread =>
      { loop with
        quitting := loop.quitting.erase thread
        wakeupFd_ := loop.wakeupFd_ + 1 }
  | .runAfter now afterMs cb times => loop.runAfter now afterMs cb times
  | .remove task =>
      { loop with timeWheel_ := loop.timeWheel_.next (.delTask task) }
  | .loop => { loop with looping_ := true, quit_ := false, location := .testing }
  | .iterate => { loop with location := .polling }
  | .poll now channels =>
      { loop with
        active_channels_ := channels
        epoll_reture_time_ := now
        clock := now
        location := .takeAllTimeout (now - loop.starttime_).toNat }
  | .beginTick => { loop with timeWheel_ := loop.timeWheel_.next .beginTick }
  | .visit => loop.visit
  | .finish => { loop with timeWheel_ := loop.timeWheel_.next .finish }
  | .endTick =>
      match loop.location with
      | .takeAllTimeout ticks =>
          { loop with
            timeWheel_ := loop.timeWheel_.next .endTick
            location := .takeAllTimeout (ticks - 1) }
      | _ => loop
  | .endTakeAllTimeout =>
      { loop with
        starttime_ := loop.epoll_reture_time_
        location := .handlers }
  | .handleEvent =>
      match loop.active_channels_ with
      | [] => loop
      | .wakeup :: rest => { loop with wakeupFd_ := 0, active_channels_ := rest }
      | .other :: rest => { loop with active_channels_ := rest }
  | .doPendingFunctors =>
      { loop with calling_pending_functors_ := true, location := .calling }
  | .swap =>
      { loop with
        functors := loop.pending_functors_
        pending_functors_ := []
        batches := loop.batches + 1
        location := .functors }
  | .runFunctor =>
      match loop.functors with
      | [] => loop
      | functor :: rest =>
          { loop with
            functors := rest
            executed := loop.executed ++ [(functor, loop.batches)] }
  | .endFunctors =>
      { loop with calling_pending_functors_ := false, location := .testing }
  | .stop => { loop with looping_ := false, location := .outside }

/-- The runs of a loop made at some time. -/
def system : System (EventLoop Thread Functor Callback)
    (Event Thread Functor Callback) where
  initial loop := ∃ now, loop = new now
  step loop event after := loop.Enabled self event ∧ after = loop.next self event

end Steps

/-! ## The functors -/

/-- The functors of the loop as a queue drained in batches. -/
def queue (loop : EventLoop Thread Functor Callback) : BatchQueue Functor where
  pending := loop.pending_functors_
  batch := loop.functors
  begun := loop.batches
  added := loop.enqueued
  taken := loop.executed

/-- The functors are accounted for, and the local vector is empty outside of
the loop over it. -/
structure QueueInvariant (loop : EventLoop Thread Functor Callback) : Prop where
  accounted : loop.queue.Accounted
  local_vector : loop.location ≠ .functors → loop.functors = []

namespace QueueInvariant

variable {loop after : EventLoop Thread Functor Callback}

theorem frame (invariant : loop.QueueInvariant) (same : after.queue = loop.queue)
    (outside : after.location ≠ .functors → loop.functors = []) :
    after.QueueInvariant := by
  constructor
  · rw [same]
    exact invariant.accounted
  · intro elsewhere
    have batch := congrArg BatchQueue.batch same
    exact batch.trans (outside elsewhere)

theorem outside_of_eq (invariant : loop.QueueInvariant) {location : Location}
    (here : loop.location = location) (elsewhere : location ≠ .functors) :
    loop.functors = [] := by
  apply invariant.local_vector
  rw [here]
  exact elsewhere

theorem queueInLoop [DecidableEq Thread] (invariant : loop.QueueInvariant)
    (self thread : Thread) (cb : Functor) :
    (loop.next self (.queueInLoop thread cb)).QueueInvariant :=
  ⟨invariant.accounted.add cb, invariant.local_vector⟩

theorem swap [DecidableEq Thread] (invariant : loop.QueueInvariant) (self : Thread)
    (calling : loop.location = .calling) :
    (loop.next self .swap).QueueInvariant := by
  constructor
  · apply invariant.accounted.swap
    exact invariant.outside_of_eq calling (by decide)
  · intro elsewhere
    exact absurd rfl elsewhere

theorem runFunctor [DecidableEq Thread] (invariant : loop.QueueInvariant)
    (self : Thread) (running : loop.location = .functors) :
    (loop.next self .runFunctor).QueueInvariant := by
  have taken : (loop.next self .runFunctor).queue = loop.queue.take := by
    cases batch : loop.functors with
    | nil => simp [EventLoop.next, BatchQueue.take, queue, batch]
    | cons functor rest => simp [EventLoop.next, BatchQueue.take, queue, batch]
  have here : (loop.next self .runFunctor).location = loop.location := by
    cases batch : loop.functors with
    | nil => simp [EventLoop.next, batch]
    | cons functor rest => simp [EventLoop.next, batch]
  constructor
  · rw [taken]
    exact invariant.accounted.take
  · intro elsewhere
    rw [here] at elsewhere
    exact absurd running elsewhere

theorem next [DecidableEq Thread] {self : Thread}
    {event : Event Thread Functor Callback} (invariant : loop.QueueInvariant)
    (enabled : loop.Enabled self event) : (loop.next self event).QueueInvariant := by
  cases event with
  | queueInLoop thread cb => exact invariant.queueInLoop self thread cb
  | swap => exact invariant.swap self enabled.2
  | runFunctor => exact invariant.runFunctor self enabled.2.1
  | wakeup thread | quit thread =>
      simp only [EventLoop.next]
      split <;> exact invariant.frame rfl invariant.local_vector
  | runAfter now afterMs cb times => exact invariant.frame rfl invariant.local_vector
  | quitWakeup | remove | beginTick | visit | finish =>
      exact invariant.frame rfl invariant.local_vector
  | loop =>
      refine invariant.frame rfl fun _ => ?_
      exact invariant.outside_of_eq enabled.2 (by decide)
  | poll now channels =>
      refine invariant.frame rfl fun _ => ?_
      exact invariant.outside_of_eq enabled.2.1 (by decide)
  | endTick =>
      obtain ⟨ticks, here, _⟩ := enabled.2.1.exists
      have outside := invariant.outside_of_eq here (by simp)
      simp only [EventLoop.next]
      split <;> exact invariant.frame rfl fun _ => outside
  | endTakeAllTimeout =>
      obtain ⟨ticks, here, _⟩ := enabled.2.1.exists
      refine invariant.frame rfl fun _ => ?_
      exact invariant.outside_of_eq here (by simp)
  | handleEvent =>
      simp only [EventLoop.next]
      split <;> exact invariant.frame rfl invariant.local_vector
  | iterate | doPendingFunctors | stop =>
      refine invariant.frame rfl fun _ => ?_
      exact invariant.outside_of_eq enabled.2.1 (by decide)
  | endFunctors => exact invariant.frame rfl fun _ => enabled.2.2

end QueueInvariant

/-- For every interleaving of `queueInLoop` calls of any threads with the
iterations of the loop: the functors executed so far, the rest of the current
batch and the pending functors are together the functors enqueued, in their
order; and a functor enqueued when `batches` batches had been begun, the last
of which may be running, is executed in batch number `batches + 1`. -/
theorem functors_exactly_once_in_order [DecidableEq Thread] (self : Thread)
    {events : List (Event Thread Functor Callback)}
    {loop : EventLoop Thread Functor Callback}
    (execution : (system self).Execution events loop) :
    loop.executed.map Prod.fst ++ loop.functors ++ loop.pending_functors_ =
        loop.enqueued.map Prod.fst ∧
      ∀ (index : Nat) (functor ran : Functor) (batches batch : Nat),
        loop.enqueued[index]? = some (functor, batches) →
        loop.executed[index]? = some (ran, batch) →
        ran = functor ∧ batch = batches + 1 := by
  have invariant : loop.QueueInvariant := by
    apply execution.invariant
    · rintro start ⟨now, rfl⟩
      exact ⟨BatchQueue.accounted_empty, fun _ => rfl⟩
    · rintro before event after invariant ⟨enabled, rfl⟩
      exact invariant.next enabled
  constructor
  · exact invariant.accounted.items
  · intro index functor ran batches batch wasEnqueued wasExecuted
    have same := invariant.accounted.batch_of_taken wasEnqueued wasExecuted
    cases same
    exact ⟨rfl, rfl⟩

/-- Thread `1` enqueues before the first batch, and the first functor enqueues
another one while the second is still to run. -/
theorem functors_exactly_once_in_order_nested :
    let events : List (Event Nat Nat Unit) :=
      [.loop, .iterate, .queueInLoop 1 10, .poll 0 [], .queueInLoop 2 11, .endTakeAllTimeout,
        .doPendingFunctors, .wakeup 2, .swap, .runFunctor, .queueInLoop 0 12,
        .wakeup 0]
    let loop := events.foldl (EventLoop.next 0) (EventLoop.new 0)
    loop.executed = [(10, 1)] ∧ loop.functors = [11] ∧
      loop.pending_functors_ = [12] ∧
      loop.executed.map Prod.fst ++ loop.functors ++ loop.pending_functors_ =
        loop.enqueued.map Prod.fst ∧
      ∀ (index : Nat) (functor ran : Nat) (batches batch : Nat),
        loop.enqueued[index]? = some (functor, batches) →
        loop.executed[index]? = some (ran, batch) →
        ran = functor ∧ batch = batches + 1 := by
  intro events loop
  have execution : (system 0).Execution events loop :=
    System.Execution.foldl (system 0) (Enabled 0)
      (fun _ _ enabled => ⟨enabled, rfl⟩) ⟨0, rfl⟩ (by decide)
  refine ⟨by decide, by decide, by decide, ?_⟩
  exact functors_exactly_once_in_order 0 execution

end EventLoop

end GdRpc.Net
