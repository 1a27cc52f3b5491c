import GdRpc.Net.EventLoop

/-!
# Wakeups

While a batch of functors runs, whoever queues another one will write to the
eventfd; what is queued before the batch is swapped out needs no wakeup. The
loop therefore never goes to poll with functors that nobody announces, but for
those its own thread has left before `loop()`.
-/

namespace GdRpc.Net

open GdRpc.Library

universe u v w

namespace EventLoop

variable {Thread : Type u} {Functor : Type v} {Callback : Type w}

/-- The last call of `loop()` has ended an iteration. -/
def hasIterated (events : List (Event Thread Functor Callback)) : Bool :=
  events.foldl (fun iterated event =>
    match event with
    | .loop => false
    | .endFunctors => true
    | _ => iterated) false

/-- The eventfd is readable, or another thread is about to make it so. -/
def Signalled (self : Thread) (loop : EventLoop Thread Functor Callback) : Prop :=
  0 < loop.wakeupFd_ ∨ ∃ thread ∈ loop.waking, thread ≠ self

/-- Functors wait only where somebody announces them: in the loop over a batch
it may still be the loop thread itself. -/
structure Announced (own : Thread) (past : List (Event Thread Functor Callback))
    (loop : EventLoop Thread Functor Callback) : Prop where
  flag : loop.location = .calling ∨ loop.location = .functors →
    loop.calling_pending_functors_ = true
  batch : loop.location = .functors → loop.pending_functors_ ≠ [] →
    0 < loop.wakeupFd_ ∨ loop.waking ≠ []
  polling : hasIterated past = true →
    loop.location = .testing ∨ loop.location = .polling →
    loop.pending_functors_ ≠ [] → Signalled own loop

namespace Announced

variable {self : Thread} {past : List (Event Thread Functor Callback)}
  {loop after : EventLoop Thread Functor Callback}
  {event : Event Thread Functor Callback}

theorem new (self : Thread) (now : Int) :
    Announced self ([] : List (Event Thread Functor Callback)) (EventLoop.new now) := by
  constructor <;> simp [EventLoop.new]

theorem frame (announced : Announced self past loop)
    (same : hasIterated (past ++ [event]) = hasIterated past)
    (location : after.location = loop.location)
    (flag : after.calling_pending_functors_ = loop.calling_pending_functors_)
    (pending : after.pending_functors_ = loop.pending_functors_)
    (fd : loop.wakeupFd_ ≤ after.wakeupFd_) (waking : after.waking = loop.waking) :
    Announced self (past ++ [event]) after := by
  constructor
  · rw [location, flag]
    exact announced.flag
  · rw [location, pending, waking]
    intro here waiting
    exact (announced.batch here waiting).imp_left fun readable =>
      Nat.lt_of_lt_of_le readable fd
  · rw [same, location, pending]
    intro iterated here waiting
    unfold Signalled
    rw [waking]
    exact (announced.polling iterated here waiting).imp_left fun readable =>
      Nat.lt_of_lt_of_le readable fd

theorem elsewhere (batch : after.location ≠ .functors) (testing : after.location ≠ .testing)
    (polling : after.location ≠ .polling)
    (flag : after.location = .calling → after.calling_pending_functors_ = true) :
    Announced self past after := by
  constructor
  · rintro (here | here)
    · exact flag here
    · exact absurd here batch
  · intro here
    exact absurd here batch
  · rintro _ (here | here)
    · exact absurd here testing
    · exact absurd here polling

/-- Inside of an iteration the loop thread may queue, and announces it if it is
in the loop over a batch. -/
theorem queueInLoop [DecidableEq Thread] (announced : Announced self past loop)
    {thread : Thread} (acts : thread = self → loop.UserActs) (cb : Functor) :
    Announced self (past ++ [.queueInLoop thread cb])
      (loop.next self (.queueInLoop thread cb)) := by
  refine ⟨announced.flag, fun _ _ => .inr (by simp [EventLoop.next]), ?_⟩
  intro _ here _
  have other : thread ≠ self := by
    intro same
    have acting := acts same
    simp only [EventLoop.next] at here
    unfold UserActs at acting
    rcases here with here | here
    · rw [here] at acting
      exact acting
    · rw [here] at acting
      exact acting
  exact .inr ⟨thread, by simp [EventLoop.next], other⟩

/-- A thread that does not write to the eventfd is the loop thread outside of
the loop over a batch. -/
theorem wakeup [DecidableEq Thread] (announced : Announced self past loop)
    (thread : Thread) :
    Announced self (past ++ [.wakeup thread]) (loop.next self (.wakeup thread)) := by
  have unchanged : hasIterated (past ++ [.wakeup thread]) = hasIterated past := by
    simp [hasIterated]
  by_cases writes : thread ≠ self ∨ loop.calling_pending_functors_
  · simp only [EventLoop.next, if_pos writes]
    exact ⟨announced.flag, fun _ _ => .inl (Nat.succ_pos _),
      fun _ _ _ => .inl (Nat.succ_pos _)⟩
  · simp only [EventLoop.next, if_neg writes]
    obtain ⟨own, quiet⟩ := not_or.mp writes
    have same : thread = self := not_ne_iff.mp own
    refine ⟨announced.flag, ?_, ?_⟩
    · intro here
      exact absurd (announced.flag (.inr here)) quiet
    · rw [unchanged]
      intro iterated here waiting
      apply (announced.polling iterated here waiting).imp_right
      rintro ⟨other, membership, differs⟩
      exact ⟨other, (List.mem_erase_of_ne (same ▸ differs)).mpr membership, differs⟩

/-- Behind the batch the loop thread has woken itself for all it has queued. -/
theorem endFunctors [DecidableEq Thread] (announced : Announced self past loop)
    (awake : self ∉ loop.waking) (here : loop.location = .functors) :
    Announced self (past ++ [.endFunctors]) (loop.next self .endFunctors) := by
  refine ⟨by simp [EventLoop.next], by simp [EventLoop.next], ?_⟩
  intro _ _ waiting
  apply (announced.batch here waiting).imp_right
  intro some
  obtain ⟨thread, membership⟩ := List.exists_mem_of_ne_nil _ some
  exact ⟨thread, membership, fun same => awake (same ▸ membership)⟩

theorem next [DecidableEq Thread] (announced : Announced self past loop)
    (enabled : loop.Enabled self event) :
    Announced self (past ++ [event]) (loop.next self event) := by
  cases event with
  | queueInLoop thread cb => exact announced.queueInLoop enabled.2 cb
  | wakeup thread => exact announced.wakeup thread
  | quit thread =>
      simp only [EventLoop.next]
      split <;> exact announced.frame (by simp [hasIterated]) rfl rfl rfl (Nat.le_refl _) rfl
  | quitWakeup thread =>
      exact announced.frame (by simp [hasIterated]) rfl rfl rfl (Nat.le_succ _) rfl
  | runAfter | remove | beginTick | visit | finish =>
      exact announced.frame (by simp [hasIterated]) rfl rfl rfl (Nat.le_refl _) rfl
  | loop => exact ⟨by simp [EventLoop.next], by simp [EventLoop.next], by simp [hasIterated]⟩
  | iterate =>
      refine ⟨by simp [EventLoop.next], by simp [EventLoop.next], ?_⟩
      intro iterated _ waiting
      exact announced.polling (by simpa [hasIterated] using iterated) (.inl enabled.2.1) waiting
  | poll | endTakeAllTimeout | stop =>
      exact elsewhere (by simp [EventLoop.next]) (by simp [EventLoop.next])
        (by simp [EventLoop.next]) (by simp [EventLoop.next])
  | doPendingFunctors =>
      exact elsewhere (by simp [EventLoop.next]) (by simp [EventLoop.next])
        (by simp [EventLoop.next]) fun _ => rfl
  | endTick =>
      obtain ⟨ticks, here, _⟩ := enabled.2.1.exists
      have next : (loop.next self .endTick).location = .takeAllTimeout (ticks - 1) := by
        simp [EventLoop.next, here]
      exact elsewhere (by simp [next]) (by simp [next]) (by simp [next]) (by simp [next])
  | handleEvent =>
      have next : (loop.next self .handleEvent).location = .handlers := by
        rw [← enabled.2.1]
        simp only [EventLoop.next]
        split <;> rfl
      exact elsewhere (by simp [next]) (by simp [next]) (by simp [next]) (by simp [next])
  | swap =>
      exact ⟨fun _ => announced.flag (.inl enabled.2), by simp [EventLoop.next],
        by simp [EventLoop.next]⟩
  | runFunctor =>
      simp only [EventLoop.next]
      split <;> exact announced.frame (by simp [hasIterated]) rfl rfl rfl (Nat.le_refl _) rfl
  | endFunctors => exact announced.endFunctors enabled.1 enabled.2.1

end Announced

/-- For every interleaving of `queueInLoop` calls with the steps of the loop:
where the loop thread tests `quit_` before the poll or sits in it while functors
are pending, and an iteration has ended since `loop()` was called, the eventfd
is readable or another thread stands between its two halves of `queueInLoop`. -/
theorem no_lost_wakeup [DecidableEq Thread] (self : Thread)
    {events : List (Event Thread Functor Callback)}
    {loop : EventLoop Thread Functor Callback}
    (execution : (system self).Execution events loop)
    (iterated : hasIterated events = true)
    (entering : loop.location = .testing ∨ loop.location = .polling)
    (pending : loop.pending_functors_ ≠ []) :
    0 < loop.wakeupFd_ ∨ ∃ thread ∈ loop.waking, thread ≠ self := by
  have announced : Announced self events loop := by
    refine execution.history (Announced self) ?_ ?_
    · rintro start ⟨now, rfl⟩
      exact .new self now
    · rintro past before event after announced ⟨enabled, rfl⟩
      exact announced.next enabled
  exact announced.polling iterated entering pending

/-- A functor queues another one, and thread `1` stands between its append and
its wakeup when the loop polls again. -/
theorem no_lost_wakeup_nested :
    let events : List (Event Nat Nat Unit) :=
      [.loop, .iterate, .poll 0 [], .queueInLoop 1 10, .wakeup 1, .endTakeAllTimeout,
        .doPendingFunctors, .swap, .runFunctor, .queueInLoop 0 11, .wakeup 0,
        .endFunctors, .iterate, .poll 1 [.wakeup], .beginTick, .endTick,
        .endTakeAllTimeout, .handleEvent, .doPendingFunctors, .swap, .runFunctor,
        .endFunctors, .iterate, .queueInLoop 1 12]
    let loop := events.foldl (EventLoop.next 0) (EventLoop.new 0)
    loop.wakeupFd_ = 0 ∧ (0 < loop.wakeupFd_ ∨ ∃ thread ∈ loop.waking, thread ≠ 0) := by
  intro events loop
  have execution : (system 0).Execution events loop :=
    System.Execution.foldl (system 0) (Enabled 0)
      (fun _ _ enabled => ⟨enabled, rfl⟩) ⟨0, rfl⟩ (by decide +kernel)
  exact ⟨by decide +kernel, no_lost_wakeup 0 execution (by decide) (by decide +kernel)
    (by decide +kernel)⟩

end EventLoop

end GdRpc.Net
