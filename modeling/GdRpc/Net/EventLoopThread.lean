import GdRpc.Net.EventLoop

/-!
# `EventLoopThread`

`threadFunc` publishes the address of its local loop before it calls `loop()`,
which begins by clearing `quit_`. A quit that falls in between is forgotten.
-/

namespace GdRpc.Net

open GdRpc.Library

universe u v w

/-- Where `threadFunc` is: in `callback_`, behind the section that publishes
the loop, inside `loop()`, behind it. -/
inductive ThreadFunc where
  | unstarted
  | callback
  | published
  | looping
  | returned
  | finished
  deriving DecidableEq, Repr

/-- Where the thread is that owns the `EventLoopThread`: it waits in
`startLoop`, or it is in the destructor. -/
inductive Owner where
  | constructed
  | starting
  | started
  | exiting
  | quitting
  | waking
  | joining
  | destroyed
  deriving DecidableEq, Repr

namespace Owner

/-- `startLoop` has returned the address. -/
def HasStarted : Owner → Prop
  | constructed | starting => False
  | started | exiting | quitting | waking | joining | destroyed => True

instance : ∀ owner : Owner, Decidable owner.HasStarted
  | constructed | starting => inferInstanceAs (Decidable False)
  | started | exiting | quitting | waking | joining | destroyed =>
      inferInstanceAs (Decidable True)

end Owner

/-- `loop` is the local variable of `threadFunc`, `loop_` says whether the
pointer is set. The last two fields only record whether a quit has been
requested since `startLoop` returned, and the iterations begun since then. -/
structure EventLoopThread (Thread : Type u) (Functor : Type v) (Callback : Type w) where
  loop : Option (EventLoop Thread Functor Callback)
  loop_ : Bool
  exiting_ : Bool
  threadFunc : ThreadFunc
  owner : Owner
  requested : Bool
  begun : Nat

namespace EventLoopThread

variable {Thread : Type u} {Functor : Type v} {Callback : Type w}

def new : EventLoopThread Thread Functor Callback where
  loop := none
  loop_ := false
  exiting_ := false
  threadFunc := .unstarted
  owner := .constructed
  requested := false
  begun := 0

/-- `act` is a step of the loop or a call of one of its functions. -/
inductive Event (Thread : Type u) (Functor : Type v) (Callback : Type w) where
  | startLoop
  | construct (now : Int)
  | publish
  | return_startLoop
  | act (event : EventLoop.Event Thread Functor Callback)
  | clear
  | destroy
  | test_loop
  | quit
  | quitWakeup
  | join

section Steps

variable [DecidableEq Thread] (self own : Thread)

/-- Who may do what to the loop: its thread what `threadFunc` has come to, the
others what they like once they know the address. -/
def Permitted (thread : EventLoopThread Thread Functor Callback) :
    EventLoop.Event Thread Functor Callback → Prop
  | .queueInLoop caller _ | .wakeup caller | .quit caller | .quitWakeup caller =>
      if caller = self then
        thread.threadFunc = .callback ∨ thread.threadFunc = .looping
      else
        thread.owner.HasStarted ∧ (caller = own → thread.owner = .started)
  | .runAfter _ _ _ _ | .remove _ =>
      thread.threadFunc = .callback ∨ thread.threadFunc = .looping
  | .loop => thread.threadFunc = .published
  | _ => thread.threadFunc = .looping

instance (thread : EventLoopThread Thread Functor Callback) :
    ∀ event, Decidable (thread.Permitted self own event)
  | .queueInLoop _ _ | .wakeup _ | .quit _ | .quitWakeup _ | .runAfter _ _ _ _ | .remove _
  | .loop | .iterate | .poll _ _ | .beginTick | .visit | .finish | .endTick
  | .endTakeAllTimeout | .handleEvent | .doPendingFunctors | .swap | .runFunctor
  | .endFunctors | .stop => by
      unfold Permitted
      infer_instance

/-- The owner is not inside of a call of its own on the loop. -/
def OwnerIdle (loop : EventLoop Thread Functor Callback) : Prop :=
  own ∉ loop.waking ∧ own ∉ loop.quitting

instance (loop : EventLoop Thread Functor Callback) : Decidable (OwnerIdle own loop) :=
  inferInstanceAs (Decidable (_ ∧ _))

/-- `loop_ = nullptr` ends the life of the loop, so calls on it are over. -/
def Enabled (thread : EventLoopThread Thread Functor Callback) :
    Event Thread Functor Callback → Prop
  | .startLoop => thread.owner = .constructed
  | .construct _ => thread.owner = .starting ∧ thread.threadFunc = .unstarted
  | .publish =>
      thread.threadFunc = .callback ∧ ∀ loop ∈ thread.loop, self ∉ loop.waking
  | .return_startLoop => thread.owner = .starting ∧ thread.loop_ = true
  | .act event =>
      thread.Permitted self own event ∧ ∃ loop ∈ thread.loop, loop.Enabled self event
  | .clear => thread.threadFunc = .returned
  | .destroy => thread.owner = .started ∧ ∀ loop ∈ thread.loop, OwnerIdle own loop
  | .test_loop => thread.owner = .exiting
  | .quit => thread.owner = .quitting ∧ thread.loop.isSome
  | .quitWakeup => thread.owner = .waking ∧ thread.loop.isSome
  | .join => thread.owner = .joining ∧ thread.threadFunc = .finished

instance (thread : EventLoopThread Thread Functor Callback) :
    ∀ event, Decidable (thread.Enabled self own event)
  | .startLoop | .construct _ | .publish | .return_startLoop | .act _ | .clear | .destroy
  | .test_loop | .quit | .quitWakeup | .join => by
      unfold Enabled
      infer_instance

/-- A step of the loop, recorded. -/
def act (thread : EventLoopThread Thread Functor Callback)
    (event : EventLoop.Event Thread Functor Callback) :
    EventLoopThread Thread Functor Callback :=
  let after := { thread with loop := thread.loop.map fun loop => loop.next self event }
  match event with
  | .loop => { after with threadFunc := .looping }
  | .stop => { after with threadFunc := .returned }
  | .iterate => { after with begun := thread.begun + if thread.requested then 1 else 0 }
  | .quit _ =>
      { after with requested := thread.requested || decide thread.owner.HasStarted }
  | _ => after

def next (thread : EventLoopThread Thread Functor Callback) :
    Event Thread Functor Callback → EventLoopThread Thread Functor Callback
  | .startLoop => { thread with owner := .starting }
  | .construct now => { thread with loop := some (.new now), threadFunc := .callback }
  | .publish => { thread with loop_ := true, threadFunc := .published }
  | .return_startLoop => { thread with owner := .started }
  | .act event => thread.act self event
  | .clear => { thread with loop := none, loop_ := false, threadFunc := .finished }
  | .destroy => { thread with exiting_ := true, owner := .exiting }
  | .test_loop =>
      { thread with owner := if thread.loop_ then .quitting else .destroyed }
  | .quit => { thread.act self (.quit own) with owner := .waking }
  | .quitWakeup => { thread.act self (.quitWakeup own) with owner := .joining }
  | .join => { thread with owner := .destroyed }

def system : System (EventLoopThread Thread Functor Callback)
    (Event Thread Functor Callback) where
  initial thread := thread = new
  step thread event after :=
    thread.Enabled self own event ∧ after = thread.next self own event

/-- A quit comes when `loop()` has cleared `quit_`. -/
def Fit (thread : EventLoopThread Thread Functor Callback) :
    Event Thread Functor Callback → Prop
  | .act (.quit _) | .quit => thread.threadFunc ≠ .published
  | _ => True

instance (thread : EventLoopThread Thread Functor Callback) :
    ∀ event, Decidable (thread.Fit event)
  | .quit => inferInstanceAs (Decidable (_ ≠ _))
  | .act event => by
      cases event <;> unfold Fit <;> infer_instance
  | .startLoop | .construct _ | .publish | .return_startLoop | .clear | .destroy
  | .test_loop | .quitWakeup | .join => inferInstanceAs (Decidable True)

/-- The runs in which every step is fit. -/
def fitSystem : System (EventLoopThread Thread Functor Callback)
    (Event Thread Functor Callback) where
  initial thread := thread = new
  step thread event after :=
    (thread.Enabled self own event ∧ thread.Fit event) ∧ after = thread.next self own event

end Steps

/-- The loop does not begin a second iteration after the request, and the
destructor does not wait for a loop that goes on. -/
structure Heeds (thread : EventLoopThread Thread Functor Callback) : Prop where
  begun : thread.begun ≤ 1
  joining : thread.owner = .joining → ∀ loop ∈ thread.loop, loop.quit_ = true

/-! ## Runs without an early quit -/

theorem quit_next [DecidableEq Thread] (self : Thread)
    {loop : EventLoop Thread Functor Callback}
    {event : EventLoop.Event Thread Functor Callback} (other : event ≠ .loop)
    (set : loop.quit_ = true) : (loop.next self event).quit_ = true := by
  cases event with
  | loop => exact absurd rfl other
  | wakeup thread | quit thread | endTick | handleEvent | runFunctor =>
      simp only [EventLoop.next]
      split <;> simp [set]
  | queueInLoop | quitWakeup | runAfter | remove | iterate | poll | beginTick | visit
  | finish | endTakeAllTimeout | doPendingFunctors | swap | endFunctors | stop => exact set

theorem quit_next_quit [DecidableEq Thread] (self caller : Thread)
    (loop : EventLoop Thread Functor Callback) :
    (loop.next self (.quit caller)).quit_ = true := by
  simp only [EventLoop.next]
  split <;> rfl

/-- `loop()` has been called. -/
def Entered (threadFunc : ThreadFunc) : Prop :=
  threadFunc = .looping ∨ threadFunc = .returned ∨ threadFunc = .finished

/-- Once a quit has been requested `quit_` is set for good, and no iteration
begins. -/
structure Heard (thread : EventLoopThread Thread Functor Callback) : Prop where
  address : thread.loop_ = true ∨ thread.owner.HasStarted →
    thread.threadFunc = .published ∨ Entered thread.threadFunc
  entered : thread.requested = true → Entered thread.threadFunc
  quit_ : thread.requested = true → ∀ loop ∈ thread.loop, loop.quit_ = true
  begun : thread.begun = 0
  waiting : thread.owner = .waking ∨ thread.owner = .joining → thread.requested = true

namespace Heard

variable {thread : EventLoopThread Thread Functor Callback}

theorem new : Heard (new : EventLoopThread Thread Functor Callback) := by
  constructor <;> simp [EventLoopThread.new, Owner.HasStarted]

theorem step [DecidableEq Thread] (heard : thread.Heard) (self : Thread)
    (event : EventLoop.Event Thread Functor Callback) (other : event ≠ .loop) :
    Heard { thread with loop := thread.loop.map fun loop => loop.next self event } := by
  refine ⟨heard.address, heard.entered, ?_, heard.begun, heard.waiting⟩
  intro requested after membership
  obtain ⟨loop, here, rfl⟩ := Option.map_eq_some_iff.mp membership
  exact quit_next self other (heard.quit_ requested loop here)

/-- A quit that is not early sets `quit_` for good. -/
theorem quit [DecidableEq Thread] (heard : thread.Heard) (self caller : Thread)
    (late : thread.threadFunc ≠ .published) : Heard (thread.act self (.quit caller)) := by
  refine ⟨heard.address, ?_, ?_, heard.begun, ?_⟩
  · intro requested
    rcases Bool.or_eq_true_iff.mp requested with before | now
    · exact heard.entered before
    · exact (heard.address (.inr (of_decide_eq_true now))).resolve_left late
  · intro _ after membership
    obtain ⟨loop, _, rfl⟩ := Option.map_eq_some_iff.mp membership
    exact quit_next_quit self caller loop
  · intro waits
    exact Bool.or_eq_true_iff.mpr (.inl (heard.waiting waits))

theorem act [DecidableEq Thread] (heard : thread.Heard) {self own : Thread}
    {event : EventLoop.Event Thread Functor Callback}
    (permitted : thread.Permitted self own event)
    (enabled : ∃ loop ∈ thread.loop, loop.Enabled self event)
    (fit : thread.Fit (.act event)) : Heard (thread.act self event) := by
  cases event with
  | quit caller => exact heard.quit self caller fit
  | loop =>
      have here : thread.threadFunc = .published := permitted
      have quiet : thread.requested = true → False := by
        intro requested
        have entered := heard.entered requested
        simp [Entered, here] at entered
      exact ⟨fun _ => .inr (.inl rfl), fun requested => (quiet requested).elim,
        fun requested => (quiet requested).elim, heard.begun, heard.waiting⟩
  | stop =>
      have stepped := heard.step self .stop (by simp)
      exact ⟨fun _ => .inr (.inr (.inl rfl)), fun _ => .inr (.inl rfl), stepped.quit_,
        heard.begun, heard.waiting⟩
  | iterate =>
      -- the test has found `quit_` false, so nothing has been requested
      obtain ⟨loop, here, _, _, clear⟩ := enabled
      have quiet : thread.requested = false := by
        by_contra requested
        have set := heard.quit_ (Bool.not_eq_false _ ▸ requested) loop here
        rw [clear] at set
        cases set
      have stepped := heard.step self .iterate (by simp)
      refine ⟨heard.address, heard.entered, stepped.quit_, ?_, heard.waiting⟩
      simp [EventLoopThread.act, heard.begun, quiet]
  | queueInLoop | wakeup | quitWakeup | runAfter | remove | poll | beginTick | visit
  | finish | endTick | endTakeAllTimeout | handleEvent | doPendingFunctors | swap
  | runFunctor | endFunctors => exact heard.step self _ (by simp)

theorem next [DecidableEq Thread] (heard : thread.Heard) {self own : Thread}
    {event : Event Thread Functor Callback} (enabled : thread.Enabled self own event)
    (fit : thread.Fit event) : Heard (thread.next self own event) := by
  cases event with
  | startLoop =>
      refine ⟨?_, heard.entered, heard.quit_, heard.begun, ?_⟩
      · rintro (set | started)
        · exact heard.address (.inl set)
        · exact started.elim
      · rintro (waking | joining)
        · cases waking
        · cases joining
  | construct now =>
      have quiet : thread.requested = true → False := by
        intro requested
        have entered := heard.entered requested
        simp [Entered, enabled.2] at entered
      have unknown : ¬ (thread.loop_ = true ∨ thread.owner.HasStarted) := by
        intro known
        have address := heard.address known
        simp [Entered, enabled.2] at address
      exact ⟨fun known => absurd known unknown, fun requested => (quiet requested).elim,
        fun requested => (quiet requested).elim, heard.begun, heard.waiting⟩
  | publish =>
      have quiet : thread.requested = true → False := by
        intro requested
        have entered := heard.entered requested
        simp [Entered, enabled.1] at entered
      exact ⟨fun _ => .inl rfl, fun requested => (quiet requested).elim, heard.quit_,
        heard.begun, heard.waiting⟩
  | return_startLoop =>
      refine ⟨fun _ => heard.address (.inl enabled.2), heard.entered, heard.quit_,
        heard.begun, ?_⟩
      rintro (waking | joining)
      · cases waking
      · cases joining
  | act event => exact heard.act enabled.1 enabled.2 fit
  | clear =>
      refine ⟨fun _ => .inr (.inr (.inr rfl)), fun _ => .inr (.inr rfl), ?_, heard.begun,
        heard.waiting⟩
      intro _ loop none
      cases none
  | destroy =>
      refine ⟨fun _ => heard.address (.inr ?_), heard.entered, heard.quit_, heard.begun, ?_⟩
      · rw [enabled.1]
        trivial
      · rintro (waking | joining)
        · cases waking
        · cases joining
  | test_loop =>
      refine ⟨fun _ => heard.address (.inr ?_), heard.entered, heard.quit_, heard.begun, ?_⟩
      · rw [show thread.owner = .exiting from enabled]
        trivial
      · intro waits
        simp only [EventLoopThread.next] at waits
        split at waits <;> rcases waits with waking | joining <;> contradiction
  | quit =>
      have started : thread.owner.HasStarted := by
        rw [enabled.1]
        trivial
      have quit := heard.quit self own fit
      refine ⟨fun _ => heard.address (.inr started), quit.entered, quit.quit_, quit.begun,
        fun _ => ?_⟩
      simp [EventLoopThread.next, EventLoopThread.act, started]
  | quitWakeup =>
      have started : thread.owner.HasStarted := by
        rw [enabled.1]
        trivial
      have stepped := heard.step self (.quitWakeup own) (by simp)
      exact ⟨fun _ => heard.address (.inr started), stepped.entered, stepped.quit_,
        stepped.begun, fun _ => heard.waiting (.inl enabled.1)⟩
  | join =>
      refine ⟨fun _ => .inr (.inr (.inr enabled.2)), heard.entered, heard.quit_, heard.begun,
        ?_⟩
      rintro (waking | joining)
      · cases waking
      · cases joining

theorem heeds (heard : thread.Heard) : thread.Heeds := by
  constructor
  · rw [heard.begun]
    exact Nat.zero_le _
  · intro joining
    exact heard.quit_ (heard.waiting (.inr joining))

end Heard

/-- In every run in which no quit is requested between the publication of the
loop and the clearing of `quit_` by `loop()`, the loop heeds the request. -/
theorem heeds_of_fit [DecidableEq Thread] (self own : Thread)
    {events : List (Event Thread Functor Callback)}
    {thread : EventLoopThread Thread Functor Callback}
    (execution : (fitSystem self own).Execution events thread) : thread.Heeds := by
  have heard : thread.Heard := by
    apply execution.invariant Heard
    · rintro start rfl
      exact .new
    · rintro before event after heard ⟨⟨enabled, fit⟩, rfl⟩
      exact heard.next enabled fit
  exact heard.heeds

/-- The destructor runs after the first iteration. -/
theorem heeds_of_fit_joined :
    let events : List (Event Nat Nat Unit) :=
      [.startLoop, .construct 0, .publish, .return_startLoop, .act .loop, .act .iterate,
        .act (.poll 0 []), .destroy, .test_loop, .quit, .quitWakeup,
        .act .endTakeAllTimeout, .act .doPendingFunctors, .act .swap, .act .endFunctors]
    let thread := events.foldl (next 0 1) new
    thread.owner = .joining ∧ thread.requested = true ∧ thread.Heeds := by
  intro events thread
  have execution : (fitSystem 0 1).Execution events thread :=
    System.Execution.foldl (fitSystem 0 1)
      (fun thread event => thread.Enabled 0 1 event ∧ thread.Fit event)
      (fun _ _ permitted => ⟨permitted, rfl⟩) rfl (by decide +kernel)
  exact ⟨by decide +kernel, by decide +kernel, heeds_of_fit 0 1 execution⟩

/-- `loop()` forgets a quit requested before. -/
theorem quit_forgotten [DecidableEq Thread] (self : Thread)
    (thread : EventLoopThread Thread Functor Callback) :
    ∀ loop ∈ (thread.act self .loop).loop, loop.quit_ = false := by
  intro after membership
  obtain ⟨loop, _, rfl⟩ := Option.map_eq_some_iff.mp membership
  rfl

/-- The owner is destroyed as soon as `startLoop` has returned; the loop clears
`quit_` behind it and iterates on. -/
def earlyQuit : List (Event Nat Nat Unit) :=
  [.startLoop, .construct 0, .publish, .return_startLoop, .destroy, .test_loop, .quit,
    .quitWakeup, .act .loop, .act .iterate, .act (.poll 0 []), .act .endTakeAllTimeout,
    .act .doPendingFunctors, .act .swap, .act .endFunctors, .act .iterate]

theorem quit_lost_before_loop :
    ∃ events thread, (system 0 1).Execution events
        (thread : EventLoopThread Nat Nat Unit) ∧
      ¬ thread.begun ≤ 1 ∧
      ¬ (thread.owner = .joining → ∀ loop ∈ thread.loop, loop.quit_ = true) := by
  have execution : (system 0 1).Execution earlyQuit (earlyQuit.foldl (next 0 1) new) :=
    System.Execution.foldl (system 0 1) (fun thread event => thread.Enabled 0 1 event)
      (fun _ _ enabled => ⟨enabled, rfl⟩) rfl (by decide +kernel)
  exact ⟨earlyQuit, _, execution, by decide +kernel, by decide +kernel⟩

end EventLoopThread

end GdRpc.Net
