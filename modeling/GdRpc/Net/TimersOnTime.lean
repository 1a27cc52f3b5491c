import GdRpc.Net.EventLoop
import GdRpc.Util.TimingWheelLate

/-!
# No timer is overdue

The wheel has caught up with the timestamp of the poll before any channel is
handled. However long handlers, functors and other timers have run, a timer
whose time had come before that timestamp has then been executed.
-/

namespace GdRpc.Net

open GdRpc.Library GdRpc.Util

universe u v w

namespace EventLoop

variable {Thread : Type u} {Functor : Type v} {Callback : Type w}

/-- What is left in `times_` asks for no repetition. -/
def Event.Single : Event Thread Functor Callback → Prop
  | .runAfter _ afterMs _ times => 0 ≤ afterMs → ¬ (1 < times ∨ times = -1)
  | _ => True

/-- In `takeAllTimeout`. -/
def Catching (loop : EventLoop Thread Functor Callback) : Prop :=
  loop.location.InTakeAllTimeout fun _ => True

theorem wheelTime_of_not_catching {loop : EventLoop Thread Functor Callback}
    (outside : ¬ loop.Catching) : loop.wheelTime = loop.starttime_ := by
  unfold wheelTime
  split
  next ticks here =>
    unfold Catching at outside
    rw [here] at outside
    exact absurd trivial outside
  next => rfl

/-- The loop's clock and the ticks of its wheel, which was made at `start`. -/
structure Synchronous (start : Int) (loop : EventLoop Thread Functor Callback) : Prop where
  idle : ¬ loop.Catching → loop.timeWheel_.phase = .idle
  level : ¬ loop.Catching → loop.starttime_ = loop.epoll_reture_time_
  time : loop.wheelTime = start + loop.timeWheel_.ticks
  reached : loop.wheelTime ≤ loop.clock
  read : loop.epoll_reture_time_ ≤ loop.clock

/-- The callback of the timer and the record of its task tell the same. -/
def Asked (start : Int) (timer : Timer Callback) (timeout : Int) (added : Nat) : Prop :=
  timer.afterMs = timeout ∧ timer.wheelTime = start + added ∧ timer.wheelTime ≤ timer.called

namespace Synchronous

variable {start : Int} {loop after : EventLoop Thread Functor Callback}

theorem new (start : Int) :
    (EventLoop.new start : EventLoop Thread Functor Callback).Synchronous start := by
  refine ⟨fun _ => rfl, fun _ => rfl, ?_, Int.le_refl _, Int.le_refl _⟩
  simp [wheelTime, EventLoop.new, WheelRun.start]

theorem mono (synchronous : loop.Synchronous start)
    (catching : after.Catching ↔ loop.Catching)
    (idle : ¬ loop.Catching → after.timeWheel_.phase = loop.timeWheel_.phase)
    (ticks : after.timeWheel_.ticks = loop.timeWheel_.ticks)
    (time : after.wheelTime = loop.wheelTime) (starttime_ : after.starttime_ = loop.starttime_)
    (timestamp : after.epoll_reture_time_ = loop.epoll_reture_time_)
    (clock : loop.clock ≤ after.clock) : after.Synchronous start := by
  constructor
  · intro outside
    rw [catching] at outside
    exact (idle outside).trans (synchronous.idle outside)
  · intro outside
    rw [catching] at outside
    rw [starttime_, timestamp]
    exact synchronous.level outside
  · rw [time, ticks]
    exact synchronous.time
  · rw [time]
    exact Int.le_trans synchronous.reached clock
  · rw [timestamp]
    exact Int.le_trans synchronous.read clock

theorem move (synchronous : loop.Synchronous start) (before : ¬ loop.Catching)
    (outside : ¬ after.Catching) (wheel : after.timeWheel_ = loop.timeWheel_)
    (starttime_ : after.starttime_ = loop.starttime_)
    (timestamp : after.epoll_reture_time_ = loop.epoll_reture_time_)
    (clock : after.clock = loop.clock) : after.Synchronous start := by
  refine synchronous.mono (iff_of_false outside before) ?_ ?_ ?_ starttime_ timestamp ?_
  · exact fun _ => congrArg WheelRun.phase wheel
  · exact congrArg WheelRun.ticks wheel
  · rw [wheelTime_of_not_catching outside, wheelTime_of_not_catching before, starttime_]
  · exact Int.le_of_eq clock.symm

theorem poll (synchronous : loop.Synchronous start) (here : loop.location = .polling) {now : Int}
    (later : loop.clock ≤ now) (channels : List ActiveChannel) :
    Synchronous start { loop with
      active_channels_ := channels
      epoll_reture_time_ := now
      clock := now
      location := .takeAllTimeout (now - loop.starttime_).toNat } := by
  have outside : ¬ loop.Catching := by
    unfold Catching
    rw [here]
    exact id
  have reached := synchronous.reached
  have time := synchronous.time
  rw [wheelTime_of_not_catching outside] at reached time
  have behind : now - (now - loop.starttime_).toNat = loop.starttime_ := by omega
  constructor
  · exact fun outside => absurd trivial outside
  · exact fun outside => absurd trivial outside
  · exact behind.trans time
  · change now - (now - loop.starttime_).toNat ≤ now
    omega
  · exact Int.le_refl _

theorem endTick (synchronous : loop.Synchronous start) {ticks : Nat}
    (here : loop.location = .takeAllTimeout ticks) (positive : 0 < ticks) :
    Synchronous start { loop with
      timeWheel_ := loop.timeWheel_.next .endTick
      location := .takeAllTimeout (ticks - 1) } := by
  have read := synchronous.read
  have time := synchronous.time
  unfold wheelTime at time
  rw [here] at time
  dsimp only at time
  constructor
  · exact fun outside => absurd trivial outside
  · exact fun outside => absurd trivial outside
  · change loop.epoll_reture_time_ - (ticks - 1 : Nat) = start + (loop.timeWheel_.ticks + 1 : Nat)
    omega
  · change loop.epoll_reture_time_ - (ticks - 1 : Nat) ≤ loop.clock
    omega
  · exact read

theorem endTakeAllTimeout (synchronous : loop.Synchronous start)
    (here : loop.location = .takeAllTimeout 0) (idle : loop.timeWheel_.phase = .idle) :
    Synchronous start { loop with
      starttime_ := loop.epoll_reture_time_
      location := .handlers } := by
  have time := synchronous.time
  unfold wheelTime at time
  rw [here] at time
  dsimp only at time
  constructor
  · exact fun _ => idle
  · exact fun _ => rfl
  · change loop.epoll_reture_time_ = start + loop.timeWheel_.ticks
    omega
  · exact synchronous.read
  · exact synchronous.read

/-- Where the user acts, the wheel is not in the loop of `tick` itself. -/
theorem userActs (synchronous : loop.Synchronous start) (acts : loop.UserActs) :
    loop.timeWheel_.UserActs := by
  intro it ticking
  by_cases inside : loop.Catching
  · obtain ⟨ticks, here, -⟩ := inside.exists
    unfold UserActs at acts
    rw [here] at acts
    obtain ⟨_, _, running⟩ := acts.exists
    rw [ticking] at running
    cases running
  · have idle := synchronous.idle inside
    rw [ticking] at idle
    cases idle

/-- The step lemma. -/
theorem next [DecidableEq Thread] {self : Thread} (synchronous : loop.Synchronous start)
    {event : Event Thread Functor Callback} (enabled : loop.Enabled self event) :
    (loop.next self event).Synchronous start := by
  have outside : ∀ {location : Location}, loop.location = location →
      ¬ location.InTakeAllTimeout (fun _ => True) → ¬ loop.Catching := by
    rintro location here elsewhere catching
    unfold Catching at catching
    rw [here] at catching
    exact elsewhere catching
  have inside : ∀ {condition : Nat → Prop}, loop.location.InTakeAllTimeout condition →
      loop.Catching := by
    rintro condition catching
    obtain ⟨ticks, here, -⟩ := catching.exists
    unfold Catching
    rw [here]
    trivial
  cases event with
  | queueInLoop | quitWakeup =>
      exact synchronous.mono Iff.rfl (fun _ => rfl) rfl rfl rfl rfl (Int.le_refl _)
  | wakeup | quit =>
      simp only [EventLoop.next]
      split <;> exact synchronous.mono Iff.rfl (fun _ => rfl) rfl rfl rfl rfl (Int.le_refl _)
  | runAfter now afterMs cb times =>
      refine synchronous.mono Iff.rfl (fun _ => ?_) ?_ rfl rfl rfl enabled.2.2
      · simp only [EventLoop.next, EventLoop.runAfter, WheelRun.addTask]
        split <;> rfl
      · have call : (.addTask afterMs ⟨cb, afterMs, now, loop.wheelTime⟩ times :
            WheelRun.Event (Timer Callback)) ≠ .endTick := by simp
        exact loop.timeWheel_.ticks_next call
  | remove =>
      exact synchronous.mono Iff.rfl (fun _ => rfl) rfl rfl rfl rfl (Int.le_refl _)
  | poll now channels => exact synchronous.poll enabled.2.1 enabled.2.2.1 channels
  | beginTick | visit | finish =>
      refine synchronous.mono Iff.rfl (fun outside => absurd (inside enabled.2.1) outside) ?_
        rfl rfl rfl (Int.le_refl _)
      exact loop.timeWheel_.ticks_next (by simp)
  | endTick =>
      obtain ⟨ticks, here, positive⟩ := enabled.2.1.exists
      simp only [EventLoop.next, here]
      exact synchronous.endTick here positive
  | endTakeAllTimeout =>
      obtain ⟨ticks, here, rfl⟩ := enabled.2.1.exists
      exact synchronous.endTakeAllTimeout here enabled.2.2
  | handleEvent | runFunctor =>
      simp only [EventLoop.next]
      split <;> exact synchronous.mono Iff.rfl (fun _ => rfl) rfl rfl rfl rfl (Int.le_refl _)
  | loop | swap => exact synchronous.move (outside enabled.2 id) id rfl rfl rfl rfl
  | iterate | doPendingFunctors | endFunctors | stop =>
      exact synchronous.move (outside enabled.2.1 id) id rfl rfl rfl rfl

end Synchronous

/-- The timers the wheel holds are accounted for. -/
structure OnTime (start : Int) (loop : EventLoop Thread Functor Callback)
    (accepted : List Accepted) : Prop where
  synchronous : loop.Synchronous start
  ledger : Timers.Ledger (fun _ => True) loop.timeWheel_ accepted
  noted : Timers.Noted (Asked start) loop.timeWheel_ accepted

namespace OnTime

variable {start : Int} {loop after : EventLoop Thread Functor Callback}
  {accepted : List Accepted}

theorem new (start : Int) :
    (EventLoop.new start : EventLoop Thread Functor Callback).OnTime start [] where
  synchronous := .new start
  ledger := .start _ TIMINGWHEEL_LEN (by decide)
  noted := .nil

theorem elsewhere (onTime : loop.OnTime start accepted) (synchronous : after.Synchronous start)
    (wheel : after.timeWheel_ = loop.timeWheel_) : after.OnTime start accepted := by
  obtain ⟨-, ledger, noted⟩ := onTime
  rw [← wheel] at ledger noted
  exact ⟨synchronous, ledger, noted⟩

theorem wheelStep (onTime : loop.OnTime start accepted) (synchronous : after.Synchronous start)
    {event : WheelRun.Event (Timer Callback)}
    (wheel : after.timeWheel_ = loop.timeWheel_.next event)
    (enabled : loop.timeWheel_.Enabled event)
    (known : ∀ timeout timer times, event ≠ .addTask timeout timer times) :
    after.OnTime start (Timers.record loop.timeWheel_ accepted event) := by
  have single : (Timers.Event.wheel event).Single := by
    cases event with
    | addTask timeout timer times => exact absurd rfl (known timeout timer times)
    | delTask | beginTick | visit | finish | endTick => trivial
  refine ⟨synchronous, ?_, ?_⟩
  · rw [wheel]
    exact onTime.ledger.next enabled fun _ => single
  · rw [wheel]
    apply onTime.noted.next onTime.ledger enabled
    exact fun timeout timer times same => absurd same (known timeout timer times)

theorem runAfter (onTime : loop.OnTime start accepted) {now afterMs : Int} {cb : Callback}
    {times : Int} (synchronous : (loop.runAfter now afterMs cb times).Synchronous start)
    (acts : loop.UserActs) (later : loop.clock ≤ now)
    (single : 0 ≤ afterMs → ¬ (1 < times ∨ times = -1)) :
    ∃ accepted, (loop.runAfter now afterMs cb times).OnTime start accepted := by
  let call : WheelRun.Event (Timer Callback) :=
    .addTask afterMs ⟨cb, afterMs, now, loop.wheelTime⟩ times
  have enabled : loop.timeWheel_.Enabled call := onTime.synchronous.userActs acts
  refine ⟨_, synchronous, onTime.ledger.next enabled fun _ => single,
    onTime.noted.next onTime.ledger enabled ?_⟩
  intro timeout timer times' same
  obtain ⟨rfl, rfl, -⟩ := WheelRun.Event.addTask.inj same
  exact ⟨rfl, onTime.synchronous.time, Int.le_trans onTime.synchronous.reached later⟩

theorem next [DecidableEq Thread] {self : Thread} (onTime : loop.OnTime start accepted)
    {event : Event Thread Functor Callback} (enabled : loop.Enabled self event)
    (single : event.Single) : ∃ accepted, (loop.next self event).OnTime start accepted := by
  have synchronous := onTime.synchronous.next enabled
  cases event with
  | queueInLoop | quitWakeup | loop | iterate | poll | endTakeAllTimeout | doPendingFunctors
  | swap | endFunctors | stop => exact ⟨_, onTime.elsewhere synchronous rfl⟩
  | wakeup | quit | handleEvent | runFunctor =>
      refine ⟨_, onTime.elsewhere synchronous ?_⟩
      simp only [EventLoop.next]
      split <;> rfl
  | runAfter now afterMs cb times =>
      exact onTime.runAfter synchronous enabled.2.1 enabled.2.2 single
  | remove task =>
      have acts : loop.timeWheel_.Enabled (.delTask task) :=
        onTime.synchronous.userActs enabled.2
      exact ⟨_, onTime.wheelStep synchronous rfl acts (by simp)⟩
  | beginTick | visit | finish =>
      exact ⟨_, onTime.wheelStep synchronous rfl enabled.2.2 (by simp)⟩
  | endTick =>
      obtain ⟨ticks, here, -⟩ := enabled.2.1.exists
      refine ⟨_, onTime.wheelStep synchronous ?_ enabled.2.2 (by simp)⟩
      simp only [EventLoop.next, here]

/-- A timer whose time lies before that of the wheel has been executed. -/
theorem executed (onTime : loop.OnTime start accepted) {task : Nat}
    {content : Util.Task (Timer Callback)} {timer : Timer Callback}
    (found : loop.timeWheel_.wheel.tasks[task]? = some content)
    (callable : content.fun_ = some timer)
    (passed : timer.called + timer.afterMs < loop.wheelTime) :
    ∃ tick, ⟨tick, task, timer⟩ ∈ loop.timeWheel_.ran := by
  obtain ⟨timeout, added, ⟨rfl, wheelTime, called⟩, executed⟩ :=
    onTime.noted.executed onTime.ledger found callable
  apply executed
  have time := onTime.synchronous.time
  omega

end OnTime

theorem reachable_onTime [DecidableEq Thread] {self : Thread}
    {events : List (Event Thread Functor Callback)} {loop : EventLoop Thread Functor Callback}
    (execution : (system self).Execution events loop) (single : ∀ event ∈ events, event.Single) :
    ∃ start accepted, loop.OnTime start accepted := by
  have all := execution.history (fun past loop => (∀ event ∈ past, event.Single) →
    ∃ start accepted, loop.OnTime start accepted) ?_ ?_
  · exact all single
  · rintro _ ⟨start, rfl⟩ _
    exact ⟨start, [], .new start⟩
  · rintro past loop event _ inductionHypothesis ⟨enabled, rfl⟩ isSingle
    obtain ⟨start, accepted, onTime⟩ := inductionHypothesis fun earlier membership =>
      isSingle earlier (List.mem_append_left _ membership)
    exact ⟨start, onTime.next enabled (isSingle event (by simp))⟩

/-- Once the wheel has caught up with a poll, every timer whose time lies before
the poll's timestamp has been executed, unless it was removed. -/
theorem timers_not_overdue [DecidableEq Thread] {self : Thread}
    {events : List (Event Thread Functor Callback)} {loop : EventLoop Thread Functor Callback}
    (execution : (system self).Execution events loop) (single : ∀ event ∈ events, event.Single)
    (caughtUp : ¬ loop.location.InTakeAllTimeout fun _ => True) {task : Nat}
    {content : Util.Task (Timer Callback)} {timer : Timer Callback}
    (found : loop.timeWheel_.wheel.tasks[task]? = some content)
    (callable : content.fun_ = some timer)
    (overdue : timer.called + timer.afterMs < loop.epoll_reture_time_) :
    ∃ tick, ⟨tick, task, timer⟩ ∈ loop.timeWheel_.ran := by
  obtain ⟨start, accepted, onTime⟩ := reachable_onTime execution single
  apply onTime.executed found callable
  rw [wheelTime_of_not_catching caughtUp, onTime.synchronous.level caughtUp]
  exact overdue

/-- The timer asks for two milliseconds, and a poll returns after three. -/
def sleepy : List (Event Unit Unit Nat) :=
  [.loop, .iterate, .poll 0 [], .endTakeAllTimeout, .runAfter 0 2 7 0, .doPendingFunctors,
    .swap, .endFunctors, .iterate, .poll 3 [], .beginTick, .endTick, .beginTick, .endTick,
    .beginTick, .visit, .finish, .endTick, .endTakeAllTimeout]

theorem timers_not_overdue_sleepy :
    ∃ tick, ⟨tick, 0, ⟨7, 2, 0, 0⟩⟩ ∈
      (sleepy.foldl (EventLoop.next ()) (EventLoop.new 0)).timeWheel_.ran := by
  have execution : (system ()).Execution sleepy
      (sleepy.foldl (EventLoop.next ()) (EventLoop.new 0)) :=
    System.Execution.foldl (system ()) (Enabled ()) (fun _ _ enabled => ⟨enabled, rfl⟩)
      ⟨0, rfl⟩ (by decide +kernel)
  have single : ∀ event ∈ sleepy, event.Single := by
    simp [sleepy, Event.Single]
  have found : (sleepy.foldl (EventLoop.next ()) (EventLoop.new 0)).timeWheel_.wheel.tasks[0]? =
      some ⟨0, 2, 0, some ⟨7, 2, 0, 0⟩⟩ := by
    decide +kernel
  exact timers_not_overdue execution single (by decide +kernel) found rfl (by decide +kernel)

end EventLoop

end GdRpc.Net
