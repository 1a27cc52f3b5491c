import Mathlib.Data.List.Infix
import GdRpc.Net.EventLoopThread

/-!
# The last batch

`loop` tests `quit_` behind `doPendingFunctors`, so the iteration in which a
quit comes is still brought to its end, and no other is begun. Functors queued
behind the swap of that iteration are never run.
-/

namespace GdRpc.Net

open GdRpc.Library GdRpc.Util

universe u v w

variable {Thread : Type u} {Functor : Type v} {Callback : Type w}

/-- Inside of an iteration that has still to swap `pending_functors_` out. -/
def Location.BeforeSwap : Location → Prop
  | .polling | .takeAllTimeout _ | .handlers | .calling => True
  | .outside | .testing | .functors => False

instance : ∀ location : Location, Decidable location.BeforeSwap
  | .polling | .takeAllTimeout _ | .handlers | .calling => inferInstanceAs (Decidable True)
  | .outside | .testing | .functors => inferInstanceAs (Decidable False)

namespace EventLoop

/-- The functors swapped out so far, whether or not they have been run. -/
def swappedOut (loop : EventLoop Thread Functor Callback) : List Functor :=
  loop.executed.map Prod.fst ++ loop.functors

variable {loop : EventLoop Thread Functor Callback}

theorem QueueInvariant.enqueued_eq (invariant : loop.QueueInvariant) :
    loop.enqueued.map Prod.fst = loop.swappedOut ++ loop.pending_functors_ :=
  invariant.accounted.items.symm

variable [DecidableEq Thread] {self : Thread}

/-! ## One step -/

theorem swappedOut_swap (invariant : loop.QueueInvariant)
    (enabled : loop.Enabled self (.swap : Event Thread Functor Callback)) :
    (loop.next self .swap).swappedOut = loop.swappedOut ++ loop.pending_functors_ := by
  have nothing : loop.functors = [] := invariant.outside_of_eq enabled.2 (by decide)
  simp [next, swappedOut, nothing]

theorem swappedOut_next {event : Event Thread Functor Callback} (other : event ≠ .swap) :
    (loop.next self event).swappedOut = loop.swappedOut := by
  cases event with
  | swap => exact absurd rfl other
  | runFunctor =>
      cases batch : loop.functors with
      | nil => simp [next, batch]
      | cons functor rest => simp [next, swappedOut, batch]
  | wakeup | quit | endTick | handleEvent =>
      simp only [next]
      split <;> rfl
  | queueInLoop | quitWakeup | runAfter | remove | loop | iterate | poll | beginTick | visit
  | finish | endTakeAllTimeout | doPendingFunctors | endFunctors | stop => rfl

theorem swappedOut_grows (invariant : loop.QueueInvariant)
    {event : Event Thread Functor Callback} (enabled : loop.Enabled self event) :
    loop.swappedOut <+: (loop.next self event).swappedOut := by
  cases event with
  | swap =>
      rw [swappedOut_swap invariant enabled]
      exact List.prefix_append _ _
  | _ =>
      rw [swappedOut_next (by simp)]

theorem enqueued_grows (event : Event Thread Functor Callback) :
    loop.enqueued <+: (loop.next self event).enqueued := by
  cases event with
  | queueInLoop thread cb => exact List.prefix_append _ _
  | wakeup | quit | endTick | handleEvent | runFunctor =>
      simp only [next]
      split <;> exact List.prefix_refl _
  | quitWakeup | runAfter | remove | loop | iterate | poll | beginTick | visit | finish
  | endTakeAllTimeout | doPendingFunctors | swap | endFunctors | stop => exact List.prefix_refl _

theorem beforeSwap_next (before : loop.location.BeforeSwap)
    {event : Event Thread Functor Callback} (enabled : loop.Enabled self event)
    (other : event ≠ .swap) : (loop.next self event).location.BeforeSwap := by
  cases event with
  | swap => exact absurd rfl other
  | loop | iterate | runFunctor | endFunctors | stop =>
      simp [enabled.2, Location.BeforeSwap] at before
  | poll | endTakeAllTimeout | doPendingFunctors => trivial
  | wakeup | quit | endTick | handleEvent =>
      simp only [next]
      split <;> first | exact before | trivial
  | queueInLoop | quitWakeup | runAfter | remove | beginTick | visit | finish => exact before

/-- Behind the swap of the last iteration no other one comes. -/
theorem behindSwap_next (quit : loop.quit_ = true) (behind : ¬ loop.location.BeforeSwap)
    {event : Event Thread Functor Callback} (enabled : loop.Enabled self event)
    (other : event ≠ .loop) :
    ¬ (loop.next self event).location.BeforeSwap ∧ event ≠ .swap := by
  refine ⟨?_, ?_⟩
  · cases event with
    | loop => exact absurd rfl other
    | iterate =>
        rw [enabled.2.2] at quit
        cases quit
    | poll | doPendingFunctors =>
        simp [enabled.2.1, Location.BeforeSwap] at behind
    | swap => simp [next, Location.BeforeSwap]
    | beginTick | visit | finish | endTick | endTakeAllTimeout =>
        obtain ⟨ticks, here, -⟩ := enabled.2.1.exists
        simp [here, Location.BeforeSwap] at behind
    | wakeup | quit | handleEvent | runFunctor =>
        simp only [next]
        split <;> exact behind
    | endFunctors | stop => exact id
    | queueInLoop | quitWakeup | runAfter | remove => exact behind
  · rintro rfl
    rw [enabled.2] at behind
    exact behind trivial

/-! ## From the quit to the end -/

/-- What holds from the request on: `before` is the loop at that moment. -/
structure Quitting (before loop : EventLoop Thread Functor Callback) : Prop where
  invariant : loop.QueueInvariant
  quit_ : loop.quit_ = true
  enqueued : before.enqueued <+: loop.enqueued
  swapped : before.swappedOut <+: loop.swappedOut
  reached : before.location.BeforeSwap →
    loop.location.BeforeSwap ∨ before.enqueued.map Prod.fst <+: loop.swappedOut
  missed : ¬ before.location.BeforeSwap →
    ¬ loop.location.BeforeSwap ∧ loop.swappedOut = before.swappedOut

variable {before : EventLoop Thread Functor Callback}

theorem Quitting.next (quitting : Quitting before loop)
    {event : Event Thread Functor Callback} (enabled : loop.Enabled self event)
    (other : event ≠ .loop) : Quitting before (loop.next self event) := by
  have grows := swappedOut_grows quitting.invariant enabled
  refine ⟨quitting.invariant.next enabled, ?_, ?_, quitting.swapped.trans grows, ?_, ?_⟩
  · exact EventLoopThread.quit_next self other quitting.quit_
  · exact quitting.enqueued.trans (enqueued_grows event)
  · intro early
    rcases quitting.reached early with here | all
    · by_cases swap : event = .swap
      · right
        subst swap
        rw [swappedOut_swap quitting.invariant enabled, ← quitting.invariant.enqueued_eq]
        exact quitting.enqueued.map Prod.fst
      · exact .inl (beforeSwap_next here enabled swap)
    · exact .inr (all.trans grows)
  · intro late
    obtain ⟨behind, same⟩ := quitting.missed late
    obtain ⟨stillBehind, noSwap⟩ := behindSwap_next quitting.quit_ behind enabled other
    exact ⟨stillBehind, (swappedOut_next noSwap).trans same⟩

theorem Quitting.start (invariant : before.QueueInvariant) {thread : Thread}
    (enabled : before.Enabled self (.quit thread)) :
    Quitting before (before.next self (.quit thread)) := by
  have same : (before.next self (.quit thread)).swappedOut = before.swappedOut :=
    swappedOut_next (by simp)
  have here : (before.next self (.quit thread)).location = before.location := by
    simp only [EventLoop.next]
    split <;> rfl
  refine ⟨invariant.next enabled, ?_, enqueued_grows _, ?_, ?_, ?_⟩
  · exact EventLoopThread.quit_next_quit self thread before
  · rw [same]
  · intro early
    rw [here]
    exact .inl early
  · intro late
    rw [here]
    exact ⟨late, same⟩

/-- A functor queued before a quit is run by the time the loop is left, whoever
quits and whatever comes in between, exactly if the iteration the quit comes in
has not swapped yet, or nothing is queued behind its swap. -/
theorem quit_runs_queued_iff {past rest : List (Event Thread Functor Callback)}
    (execution : (system self).Execution past before) {thread : Thread}
    (enabled : before.Enabled self (.quit thread)) {finish : EventLoop Thread Functor Callback}
    (run : (system self).Run (before.next self (.quit thread)) rest finish)
    (once : .loop ∉ rest) (left : finish.location = .outside) :
    before.enqueued.map Prod.fst <+: finish.executed.map Prod.fst ↔
      before.location.BeforeSwap ∨ before.pending_functors_ = [] := by
  have invariant : before.QueueInvariant := by
    apply execution.invariant
    · rintro start ⟨now, rfl⟩
      exact ⟨BatchQueue.accounted_empty, fun _ => rfl⟩
    · rintro state event after kept ⟨enabled, rfl⟩
      exact kept.next enabled
  have quitting : .loop ∉ rest → Quitting before finish := by
    apply run.history (fun labels reached => .loop ∉ labels → Quitting before reached)
    · exact fun _ => Quitting.start invariant enabled
    · rintro labels state event after kept ⟨enabled, rfl⟩ none
      rw [List.mem_append, List.mem_singleton, not_or] at none
      exact (kept none.1).next enabled (Ne.symm none.2)
  obtain ⟨atEnd, -, -, swapped, reached, missed⟩ := quitting once
  have nothing : finish.functors = [] := atEnd.outside_of_eq left (by decide)
  have ran : finish.executed.map Prod.fst = finish.swappedOut := by
    rw [swappedOut, nothing, List.append_nil]
  rw [ran]
  constructor
  · intro all
    by_contra neither
    obtain ⟨late, queued⟩ := not_or.mp neither
    rw [invariant.enqueued_eq, (missed late).2] at all
    have length := all.length_le
    rw [List.length_append] at length
    have some := List.length_pos_iff.mpr queued
    omega
  · rintro (early | none)
    · rcases reached early with before | all
      · rw [left] at before
        exact before.elim
      · exact all
    · rw [invariant.enqueued_eq, none, List.append_nil]
      exact swapped

/-- Thread `1` queues `7` and quits while the loop runs its functors; `7` is
never run. -/
theorem quit_runs_queued_iff_late :
    let past : List (Event Nat Nat Unit) :=
      [.loop, .iterate, .poll 0 [], .endTakeAllTimeout, .doPendingFunctors, .swap,
        .queueInLoop 1 7, .wakeup 1]
    let before := past.foldl (EventLoop.next 0) (EventLoop.new 0)
    let rest : List (Event Nat Nat Unit) := [.quitWakeup 1, .endFunctors, .stop]
    let finish := rest.foldl (EventLoop.next 0) (before.next 0 (.quit 1))
    (before.enqueued.map Prod.fst = [7] ∧ finish.executed.map Prod.fst = []) ∧
      (before.enqueued.map Prod.fst <+: finish.executed.map Prod.fst ↔
        before.location.BeforeSwap ∨ before.pending_functors_ = []) := by
  intro past before rest finish
  have execution : (system 0).Execution past before :=
    System.Execution.foldl (system 0) (Enabled 0)
      (fun _ _ enabled => ⟨enabled, rfl⟩) ⟨0, rfl⟩ (by decide)
  have run : (system 0).Run (before.next 0 (.quit 1)) rest finish :=
    System.Run.foldl (system 0) (Enabled 0) (fun _ _ enabled => ⟨enabled, rfl⟩) (by decide)
  refine ⟨by decide, ?_⟩
  exact quit_runs_queued_iff execution (by decide) run (by simp [rest]) (by decide)

end EventLoop

end GdRpc.Net
