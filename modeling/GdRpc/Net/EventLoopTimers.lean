import GdRpc.Net.EventLoop
import GdRpc.Util.TimingWheelDue

/-!
# Timers against the clock

`runAfter` counts from the time up to which the wheel has ticked, and that
time stays behind the clock while handlers run and while `takeAllTimeout`
catches up. A timer is early when a poll's timestamp falls between the time
the wheel allots to it and the time it asked for; in all other runs the wheel
keeps every timer back long enough.
-/

namespace GdRpc.Net

open GdRpc.Library GdRpc.Util

universe u v w

/-- The wheel lets the timer run in an iteration with this timestamp, though
its time has not come. -/
def Timer.Early {Callback : Type w} (timer : Timer Callback) (timestamp : Int) :
    Prop :=
  timer.wheelTime + TimeWheel.delay TIMINGWHEEL_LEN timer.afterMs < timestamp ∧
    timestamp < timer.called + timer.afterMs

instance {Callback : Type w} (timer : Timer Callback) (timestamp : Int) :
    Decidable (timer.Early timestamp) :=
  inferInstanceAs (Decidable (_ ∧ _))

namespace EventLoop

variable {Thread : Type u} {Functor : Type v} {Callback : Type w}

/-- No timer the wheel holds is early for a poll's timestamp, and none added
by a timer callback is for the timestamp of the iteration under way. -/
def Punctual (loop : EventLoop Thread Functor Callback) :
    Event Thread Functor Callback → Prop
  | .poll now _ => ∀ timer ∈ loop.timeWheel_.wheel.callbacks, ¬ timer.Early now
  | .runAfter now afterMs cb _ =>
      0 ≤ afterMs → loop.location.InTakeAllTimeout (fun _ => True) →
        ¬ (Timer.mk cb afterMs now loop.wheelTime).Early loop.epoll_reture_time_
  | _ => True

instance (loop : EventLoop Thread Functor Callback) :
    ∀ event, Decidable (loop.Punctual event)
  | .poll _ _ | .runAfter _ _ _ _ => by unfold Punctual; infer_instance
  | .queueInLoop _ _ | .wakeup _ | .quit _ | .quitWakeup _ | .remove _ | .loop | .iterate
  | .beginTick | .visit | .finish | .endTick | .endTakeAllTimeout | .handleEvent
  | .doPendingFunctors | .swap | .runFunctor | .endFunctors | .stop =>
      inferInstanceAs (Decidable True)

/-- The tick, counted from the making of the loop, that may run the timer. -/
def due (start : Int) (timer : Timer Callback) : Nat :=
  (timer.wheelTime - start).toNat + TimeWheel.delay TIMINGWHEEL_LEN timer.afterMs

structure TimerInvariant (start : Int) (loop : EventLoop Thread Functor Callback) :
    Prop where
  wheel : WheelRun.NotBefore (due start) loop.timeWheel_
  idle : ¬ loop.location.InTakeAllTimeout (fun _ => True) →
    loop.timeWheel_.phase = .idle
  slotLen : loop.timeWheel_.wheel.slotLen = TIMINGWHEEL_LEN
  time : loop.wheelTime = start + loop.timeWheel_.ticks
  caught_up : loop.starttime_ ≤ loop.clock
  polled : loop.epoll_reture_time_ ≤ loop.clock
  held : ∀ timer ∈ loop.timeWheel_.wheel.callbacks, start ≤ timer.wheelTime ∧
    (loop.location.InTakeAllTimeout (fun _ => True) →
      ¬ timer.Early loop.epoll_reture_time_)
  fired : ∀ entry ∈ loop.fired, entry.1.called + entry.1.afterMs ≤ entry.2

namespace TimerInvariant

variable {start : Int} {loop after : EventLoop Thread Functor Callback}

theorem new (start : Int) :
    TimerInvariant start (EventLoop.new start : EventLoop Thread Functor Callback) := by
  constructor
  · exact WheelRun.NotBefore.start TIMINGWHEEL_LEN (by decide)
  · exact fun _ => rfl
  · rfl
  · simp [wheelTime, EventLoop.new, WheelRun.start]
  · exact Int.le_refl _
  · exact Int.le_refl _
  · intro timer membership
    cases membership
  · intro entry membership
    cases membership

theorem frame (invariant : TimerInvariant start loop)
    (wheel : after.timeWheel_ = loop.timeWheel_)
    (time : after.wheelTime = loop.wheelTime)
    (caught_up : after.starttime_ = loop.starttime_)
    (timestamp : after.epoll_reture_time_ = loop.epoll_reture_time_)
    (clock : after.clock = loop.clock)
    (location : after.location.InTakeAllTimeout (fun _ => True) ↔
      loop.location.InTakeAllTimeout (fun _ => True))
    (fired : after.fired = loop.fired) : TimerInvariant start after := by
  constructor
  · rw [wheel]
    exact invariant.wheel
  · rw [wheel, location]
    exact invariant.idle
  · rw [wheel]
    exact invariant.slotLen
  · rw [time, wheel]
    exact invariant.time
  · rw [caught_up, clock]
    exact invariant.caught_up
  · rw [timestamp, clock]
    exact invariant.polled
  · rw [wheel, timestamp, location]
    exact invariant.held
  · rw [fired]
    exact invariant.fired

theorem wheelStep (invariant : TimerInvariant start loop)
    {event : WheelRun.Event (Timer Callback)} (running : event ≠ .endTick)
    (known : ∀ timeout timer times, event ≠ .addTask timeout timer times)
    (idle : ¬ loop.location.InTakeAllTimeout (fun _ => True) →
      (loop.timeWheel_.next event).phase = .idle)
    (enabled : loop.timeWheel_.Enabled event) :
    TimerInvariant start { loop with timeWheel_ := loop.timeWheel_.next event } := by
  constructor
  · apply invariant.wheel.next enabled
    intro timeout timer times same
    exact absurd same (known timeout timer times)
  · exact idle
  · rw [WheelRun.slotLen_next]
    exact invariant.slotLen
  · rw [loop.timeWheel_.ticks_next running]
    exact invariant.time
  · exact invariant.caught_up
  · exact invariant.polled
  · intro timer membership
    rcases loop.timeWheel_.mem_callbacks_next membership with
      before | ⟨timeout, times, same, _⟩
    · exact invariant.held timer before
    · exact absurd same (known timeout timer times)
  · exact invariant.fired

theorem userActs (invariant : TimerInvariant start loop) (acts : loop.UserActs) :
    loop.timeWheel_.UserActs := by
  intro it ticking
  by_cases inside : loop.location.InTakeAllTimeout (fun _ => True)
  · obtain ⟨ticks, here, _⟩ := inside.exists
    unfold UserActs at acts
    rw [here] at acts
    obtain ⟨it', task, running⟩ := acts.exists
    rw [ticking] at running
    cases running
  · have idle := invariant.idle inside
    rw [ticking] at idle
    cases idle

theorem runAfter (invariant : TimerInvariant start loop) {now afterMs : Int}
    {cb : Callback} {times : Int} (acts : loop.UserActs) (later : loop.clock ≤ now)
    (punctual : 0 ≤ afterMs → loop.location.InTakeAllTimeout (fun _ => True) →
      ¬ (Timer.mk cb afterMs now loop.wheelTime).Early loop.epoll_reture_time_) :
    TimerInvariant start (loop.runAfter now afterMs cb times) := by
  have started : start ≤ loop.wheelTime := by
    rw [invariant.time]
    exact Int.le_add_of_nonneg_right (Int.natCast_nonneg _)
  let call : WheelRun.Event (Timer Callback) :=
    .addTask afterMs ⟨cb, afterMs, now, loop.wheelTime⟩ times
  have enabled : loop.timeWheel_.Enabled call := invariant.userActs acts
  have samePhase : (loop.runAfter now afterMs cb times).timeWheel_.phase =
      loop.timeWheel_.phase := by
    simp only [EventLoop.runAfter, WheelRun.addTask]
    split <;> rfl
  constructor
  · apply invariant.wheel.next enabled
    intro timeout timer times' same _
    injection same with sameTimeout sameTimer _
    subst sameTimeout sameTimer
    unfold due
    dsimp only
    apply Nat.le_of_eq
    rw [invariant.time, invariant.slotLen, Int.add_comm start, Int.add_sub_cancel,
      Int.toNat_natCast]
  · rw [samePhase]
    exact invariant.idle
  · exact (loop.timeWheel_.slotLen_next call).trans invariant.slotLen
  · have sameTicks : (loop.timeWheel_.next call).ticks = loop.timeWheel_.ticks :=
      loop.timeWheel_.ticks_next (by simp [call])
    change loop.wheelTime = start + (loop.timeWheel_.next call).ticks
    rw [sameTicks]
    exact invariant.time
  · exact Int.le_trans invariant.caught_up later
  · exact Int.le_trans invariant.polled later
  · intro timer membership
    have entered : timer ∈ (loop.timeWheel_.next call).wheel.callbacks := membership
    rcases loop.timeWheel_.mem_callbacks_next entered with
      before | ⟨timeout, times', same, nonneg⟩
    · exact invariant.held timer before
    · injection same with sameTimeout sameTimer _
      subst sameTimeout sameTimer
      exact ⟨started, punctual nonneg⟩
  · exact invariant.fired

theorem visit (invariant : TimerInvariant start loop)
    (inside : loop.location.InTakeAllTimeout (0 < ·))
    (enabled : loop.timeWheel_.Enabled .visit) : TimerInvariant start loop.visit := by
  obtain ⟨ticks, here, positive⟩ := inside.exists
  have ticking : loop.location.InTakeAllTimeout (fun _ => True) := by
    rw [here]
    trivial
  have stepped := invariant.wheelStep (by simp) (by simp)
    (fun outside => absurd ticking outside) enabled
  refine { stepped with fired := ?_ }
  intro entry membership
  rcases List.mem_append.mp membership with before | new
  · exact invariant.fired entry before
  · -- the tick under way is one of those the timestamp allows for
    obtain ⟨ran, isNew, rfl⟩ := List.mem_map.mp new
    obtain ⟨it, phase, bound⟩ := enabled.exists
    have isVisit : loop.timeWheel_.next .visit = loop.timeWheel_.visit it := by
      simp [WheelRun.next, phase]
    rw [isVisit] at isNew
    obtain ⟨isDue, content, found, callable⟩ :=
      (invariant.wheel.visit phase bound).2 ran isNew
    obtain ⟨started, punctual⟩ := invariant.held ran.callback
      (List.mem_filterMap.mpr ⟨content, List.mem_of_getElem? found, callable⟩)
    have notEarly := punctual ticking
    have time := invariant.time
    unfold wheelTime at time
    rw [here] at time
    unfold due at isDue
    unfold Timer.Early at notEarly
    dsimp only at time ⊢
    omega

theorem poll (invariant : TimerInvariant start loop) {now : Int}
    (here : loop.location = .polling) (later : loop.clock ≤ now)
    (punctual : ∀ timer ∈ loop.timeWheel_.wheel.callbacks, ¬ timer.Early now)
    (channels : List ActiveChannel) :
    TimerInvariant start { loop with
      active_channels_ := channels
      epoll_reture_time_ := now
      clock := now
      location := .takeAllTimeout (now - loop.starttime_).toNat } := by
  have caughtUp := invariant.caught_up
  constructor
  · exact invariant.wheel
  · intro outside
    exact absurd trivial outside
  · exact invariant.slotLen
  · rw [← invariant.time]
    unfold wheelTime
    rw [here]
    dsimp only
    omega
  · exact Int.le_trans caughtUp later
  · exact Int.le_refl _
  · intro timer membership
    exact ⟨(invariant.held timer membership).1, fun _ => punctual timer membership⟩
  · exact invariant.fired

theorem endTick (invariant : TimerInvariant start loop) {ticks : Nat}
    (here : loop.location = .takeAllTimeout ticks) (positive : 0 < ticks)
    (enabled : loop.timeWheel_.Enabled .endTick) :
    TimerInvariant start { loop with
      timeWheel_ := loop.timeWheel_.next .endTick
      location := .takeAllTimeout (ticks - 1) } := by
  have ticking : loop.location.InTakeAllTimeout (fun _ => True) := by
    rw [here]
    trivial
  constructor
  · apply invariant.wheel.next enabled
    intro timeout timer times same
    cases same
  · exact fun _ => rfl
  · exact invariant.slotLen
  · have time := invariant.time
    unfold wheelTime at time ⊢
    rw [here] at time
    change loop.epoll_reture_time_ - (ticks - 1 : Nat) =
      start + (loop.timeWheel_.ticks + 1 : Nat)
    dsimp only at time
    omega
  · exact invariant.caught_up
  · exact invariant.polled
  · intro timer membership
    obtain ⟨started, punctual⟩ := invariant.held timer membership
    exact ⟨started, fun _ => punctual ticking⟩
  · exact invariant.fired

theorem endTakeAllTimeout (invariant : TimerInvariant start loop)
    (here : loop.location = .takeAllTimeout 0) (idle : loop.timeWheel_.phase = .idle) :
    TimerInvariant start { loop with
      starttime_ := loop.epoll_reture_time_
      location := .handlers } := by
  constructor
  · exact invariant.wheel
  · exact fun _ => idle
  · exact invariant.slotLen
  · rw [← invariant.time]
    unfold wheelTime
    rw [here]
    simp
  · exact invariant.polled
  · exact invariant.polled
  · intro timer membership
    exact ⟨(invariant.held timer membership).1, False.elim⟩
  · exact invariant.fired

theorem move (invariant : TimerInvariant start loop) {location : Location}
    (time : after.wheelTime = after.starttime_)
    (here : loop.location = location) (outside : ∀ ticks, location ≠ .takeAllTimeout ticks)
    (wheel : after.timeWheel_ = loop.timeWheel_)
    (caught_up : after.starttime_ = loop.starttime_)
    (timestamp : after.epoll_reture_time_ = loop.epoll_reture_time_)
    (clock : after.clock = loop.clock)
    (elsewhere : ¬ after.location.InTakeAllTimeout (fun _ => True))
    (fired : after.fired = loop.fired) : TimerInvariant start after := by
  have notInside : ¬ loop.location.InTakeAllTimeout (fun _ => True) := by
    intro inside
    obtain ⟨ticks, there, _⟩ := inside.exists
    exact outside ticks (here.symm.trans there)
  refine invariant.frame wheel ?_ caught_up timestamp clock ?_ fired
  · rw [time, caught_up]
    unfold wheelTime
    split
    next ticks there => exact absurd (here.symm.trans there) (outside ticks)
    next => rfl
  · exact ⟨fun inside => absurd inside elsewhere, fun inside => absurd inside notInside⟩

/-- The step lemma. -/
theorem next [DecidableEq Thread] {self : Thread}
    {event : Event Thread Functor Callback} (invariant : TimerInvariant start loop)
    (enabled : loop.Enabled self event) (punctual : loop.Punctual event) :
    TimerInvariant start (loop.next self event) := by
  cases event with
  | queueInLoop thread cb =>
      exact invariant.frame rfl rfl rfl rfl rfl Iff.rfl rfl
  | wakeup thread | quit thread =>
      simp only [EventLoop.next]
      split <;> exact invariant.frame rfl rfl rfl rfl rfl Iff.rfl rfl
  | quitWakeup thread => exact invariant.frame rfl rfl rfl rfl rfl Iff.rfl rfl
  | runAfter now afterMs cb times =>
      exact invariant.runAfter enabled.2.1 enabled.2.2 punctual
  | remove task =>
      refine invariant.wheelStep (by simp) (by simp) ?_ (invariant.userActs enabled.2)
      exact invariant.idle
  | poll now channels =>
      exact invariant.poll enabled.2.1 enabled.2.2.1 punctual channels
  | beginTick | finish =>
      obtain ⟨ticks, here, _⟩ := enabled.2.1.exists
      refine invariant.wheelStep (by simp) (by simp) ?_ enabled.2.2
      intro outside
      rw [here] at outside
      exact absurd trivial outside
  | visit => exact invariant.visit enabled.2.1 enabled.2.2
  | endTick =>
      obtain ⟨ticks, here, positive⟩ := enabled.2.1.exists
      simp only [EventLoop.next, here]
      exact invariant.endTick here positive enabled.2.2
  | endTakeAllTimeout =>
      obtain ⟨ticks, here, rfl⟩ := enabled.2.1.exists
      exact invariant.endTakeAllTimeout here enabled.2.2
  | handleEvent =>
      simp only [EventLoop.next]
      split <;> exact invariant.frame rfl rfl rfl rfl rfl Iff.rfl rfl
  | runFunctor =>
      simp only [EventLoop.next]
      split <;> exact invariant.frame rfl rfl rfl rfl rfl Iff.rfl rfl
  | loop => exact invariant.move rfl enabled.2 (by simp) rfl rfl rfl rfl id rfl
  | swap => exact invariant.move rfl enabled.2 (by simp) rfl rfl rfl rfl id rfl
  | iterate | doPendingFunctors | endFunctors | stop =>
      exact invariant.move rfl enabled.2.1 (by simp) rfl rfl rfl rfl id rfl

end TimerInvariant

/-- The runs in which every poll and every `runAfter` is punctual. -/
def punctualSystem [DecidableEq Thread] (self : Thread) :
    System (EventLoop Thread Functor Callback) (Event Thread Functor Callback) where
  initial loop := ∃ now, loop = new now
  step loop event after :=
    (loop.Enabled self event ∧ loop.Punctual event) ∧ after = loop.next self event

/-- In every run of the loop whose polls are punctual, no timer fires in an
iteration whose timestamp is less than the time of its `runAfter` plus its
delay. -/
theorem timers_not_early_of_punctual [DecidableEq Thread] (self : Thread)
    {events : List (Event Thread Functor Callback)}
    {loop : EventLoop Thread Functor Callback}
    (execution : (punctualSystem self).Execution events loop) :
    ∀ entry ∈ loop.fired, entry.1.called + entry.1.afterMs ≤ entry.2 := by
  obtain ⟨begin, ⟨start, rfl⟩, run⟩ := execution
  have invariant : TimerInvariant start loop := by
    apply run.invariant
    · exact TimerInvariant.new start
    · rintro before event after invariant ⟨⟨enabled, punctual⟩, rfl⟩
      exact invariant.next enabled punctual
  exact invariant.fired

/-- A handler runs for two milliseconds and asks for one more; the wheel, still
at the last poll, lets the timer run at once. -/
def slowHandler : List (Event Unit Unit Unit) :=
  [.loop, .iterate, .poll 0 [], .endTakeAllTimeout, .runAfter 2 1 () 0,
    .doPendingFunctors, .swap, .endFunctors, .iterate, .poll 2 [], .beginTick, .endTick,
    .beginTick, .visit]

theorem timers_early_slow_handler :
    ¬ ∀ (events : List (Event Unit Unit Unit)) (loop : EventLoop Unit Unit Unit),
      (system ()).Execution events loop →
      ∀ entry ∈ loop.fired, 0 ≤ entry.1.afterMs →
        entry.1.called + entry.1.afterMs ≤ entry.2 := by
  intro always
  have execution : (system ()).Execution slowHandler
      (slowHandler.foldl (EventLoop.next ()) (EventLoop.new 0)) :=
    System.Execution.foldl (system ()) (Enabled ())
      (fun _ _ enabled => ⟨enabled, rfl⟩) ⟨0, rfl⟩ (by decide +kernel)
  have fired : (⟨(), 1, 2, 0⟩, 2) ∈
      (slowHandler.foldl (EventLoop.next ()) (EventLoop.new 0)).fired := by
    decide +kernel
  exact absurd (always _ _ execution _ fired (by decide)) (by decide)

/-- The same request at the time of the poll, with an idle loop after it. -/
theorem timers_not_early_of_punctual_idle :
    let events : List (Event Unit Unit Unit) :=
      [.loop, .iterate, .poll 2 [], .beginTick, .endTick, .beginTick, .endTick,
        .endTakeAllTimeout, .runAfter 2 1 () 0, .doPendingFunctors, .swap,
        .endFunctors, .iterate, .poll 4 [], .beginTick, .endTick, .beginTick, .visit]
    let loop := events.foldl (EventLoop.next ()) (EventLoop.new 0)
    loop.fired = [(⟨(), 1, 2, 2⟩, 4)] ∧
      ∀ entry ∈ loop.fired, entry.1.called + entry.1.afterMs ≤ entry.2 := by
  intro events loop
  have execution : (punctualSystem ()).Execution events loop :=
    System.Execution.foldl (punctualSystem ())
      (fun loop event => loop.Enabled () event ∧ loop.Punctual event)
      (fun _ _ permitted => ⟨permitted, rfl⟩) ⟨0, rfl⟩ (by decide +kernel)
  exact ⟨by decide +kernel, timers_not_early_of_punctual () execution⟩

end EventLoop

end GdRpc.Net
