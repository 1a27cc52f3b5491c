import GdRpc.Util.AsyncLogStop

/-!
# Joining the backend

`threadFunc` sets `running_` itself, behind the latch, so a `stop` that comes
before is forgotten and its `join` waits for ever. The destructor asks for
`running_` first.
-/

namespace GdRpc.Gdlog

open GdRpc.Library

namespace AsyncLogging

/-- The backend can return without any step of another thread. -/
def Ends (logging : AsyncLogging) : Prop :=
  ∃ (times : List Bytes) (finish : AsyncLogging),
    system.Run logging (times.map Event.backend) finish ∧ finish.phase = .finished

variable {logging after : AsyncLogging}

theorem Ends.of_step {time : Bytes} (step : logging.backend time = some after)
    (ends : after.Ends) : logging.Ends := by
  obtain ⟨times, finish, run, finished⟩ := ends
  have first := System.Run.single system logging (.backend time) ⟨trivial, step⟩
  exact ⟨time :: times, finish, first.append run, finished⟩

theorem ends_of_top (stopped : logging.running_ = false) (phase : logging.phase = .top) :
    logging.Ends := by
  have step : logging.backend [] = some { logging with phase := .finished } := by
    simp [backend, phase, stopped]
  exact Ends.of_step step ⟨[], _, .nil, rfl⟩

theorem take_running (took : logging.take = some after) :
    after.phase = .taken ∧ after.running_ = logging.running_ := by
  unfold take at took
  split at took
  · cases took
  · dsimp only at took
    split at took <;> cases took <;> exact ⟨rfl, rfl⟩

namespace Orderly

theorem ends_of_writing (orderly : logging.Orderly) (stopped : logging.running_ = false)
    {next : Nat} (phase : logging.phase = .writing next) : logging.Ends := by
  induction left : logging.buffersToWrite.length - next generalizing logging next with
  | zero =>
      obtain ⟨spare1, spare2⟩ := orderly.writing phase
      have none : logging.buffersToWrite[next]? = none := List.getElem?_eq_none (by omega)
      have step := recycle_eq spare1 spare2
      have taken : logging.backend [] = logging.recycle := by
        simp [backend, phase, write, none]
      refine Ends.of_step (taken.trans step) (ends_of_top ?_ rfl)
      exact stopped
  | succ left inductionHypothesis =>
      have inside : next < logging.buffersToWrite.length := by omega
      have step : logging.backend [] = some { logging with
          file_ := logging.file_ ++ logging.buffersToWrite[next].data
          phase := .writing (next + 1) } := by
        simp [backend, phase, write, inside]
      obtain ⟨after, taken, kept⟩ := backend_orderly orderly []
      obtain rfl := Option.some.inj (taken.symm.trans step)
      exact Ends.of_step step (inductionHypothesis kept stopped rfl (by dsimp only; omega))

theorem ends_of_taken (orderly : logging.Orderly) (stopped : logging.running_ = false)
    (phase : logging.phase = .taken) : logging.Ends := by
  have step : logging.backend [] = some (logging.drop []) := by
    simp [backend, phase]
  obtain ⟨behind, running_, -, -⟩ := drop_secured [] phase
  exact Ends.of_step step
    ((drop_orderly [] orderly phase).ends_of_writing (running_.trans stopped) behind)

theorem ends_of_waiting (orderly : logging.Orderly) (stopped : logging.running_ = false)
    (phase : logging.phase = .waiting) : logging.Ends := by
  obtain ⟨after, step, kept⟩ := backend_orderly orderly []
  refine Ends.of_step step ?_
  simp only [backend, phase] at step
  obtain ⟨behind, running_⟩ := take_running step
  exact kept.ends_of_taken (running_.trans stopped) behind

theorem ends (orderly : logging.Orderly) (stopped : logging.running_ = false)
    (started : logging.phase ≠ .latch) : logging.Ends := by
  cases phase : logging.phase with
  | latch => exact absurd phase started
  | top => exact ends_of_top stopped phase
  | taken => exact orderly.ends_of_taken stopped phase
  | writing next => exact orderly.ends_of_writing stopped phase
  | finished => exact ⟨[], logging, .nil, phase⟩
  | waiting => exact orderly.ends_of_waiting stopped phase
  | locking =>
      obtain ⟨after, step, kept⟩ := backend_orderly orderly []
      refine Ends.of_step step ?_
      simp only [backend, phase, lock] at step
      split at step
      · cases step
        exact kept.ends_of_waiting stopped rfl
      · obtain ⟨behind, running_⟩ := take_running step
        exact kept.ends_of_taken (running_.trans stopped) behind

end Orderly

/-! ## A stop that is forgotten -/

/-- The backend has not looked at `running_` since it was set. -/
def Unstopped (logging : AsyncLogging) : Prop :=
  logging.phase = .latch ∨ logging.running_ = true ∧ logging.phase ≠ .finished

theorem backend_running {time : Bytes} (step : logging.backend time = some after) :
    after.phase ≠ .latch ∧
    (after.running_ = if logging.phase = .latch then true else logging.running_) ∧
    (after.phase = .finished → logging.phase = .finished ∨
      logging.phase = .top ∧ logging.running_ = false) := by
  unfold backend at step
  cases phase : logging.phase with
  | latch =>
      rw [phase] at step
      cases step
      simp [beginThread]
  | top =>
      rw [phase] at step
      cases step
      cases logging.running_ <;> simp
  | locking =>
      simp only [phase, lock] at step
      split at step
      · cases step
        simp
      · obtain ⟨behind, running_⟩ := take_running step
        simp [behind, running_]
  | waiting =>
      rw [phase] at step
      obtain ⟨behind, running_⟩ := take_running step
      simp [behind, running_]
  | taken =>
      rw [phase] at step
      cases step
      obtain ⟨behind, running_, -, -⟩ := drop_secured time phase
      simp [behind, running_]
  | writing next =>
      rw [phase] at step
      obtain ⟨behind, running_, -, -⟩ := write_secured phase step
      rcases behind with there | there <;> simp [there, running_]
  | finished =>
      rw [phase] at step
      cases step
      simp [phase]

theorem Unstopped.next (unstopped : logging.Unstopped) {event : Event} (other : event ≠ .stop)
    (step : logging.next event = some after) : after.Unstopped := by
  cases event with
  | stop => exact absurd rfl other
  | append logline =>
      obtain ⟨phase, running_, -, -⟩ := append_secured step
      rw [Unstopped, phase, running_]
      exact unstopped
  | backend time =>
      obtain ⟨-, running_, finished⟩ := backend_running step
      right
      rcases unstopped with latch | ⟨running, going⟩
      · rw [if_pos latch] at running_
        exact ⟨running_, fun ends => by simpa [latch] using finished ends⟩
      · rw [running, ite_self] at running_
        exact ⟨running_, fun ends => by simpa [running, going] using finished ends⟩

theorem reachable_latch {events : List Event} (execution : system.Execution events logging) :
    logging.phase = .latch → logging.running_ = false := by
  refine execution.invariant
    (fun logging => logging.phase = .latch → logging.running_ = false) ?_ ?_
  · rintro _ rfl _
    rfl
  · rintro logging event after before ⟨-, step⟩ latch
    cases event with
    | append logline =>
        obtain ⟨phase, running_, -, -⟩ := append_secured step
        exact running_.trans (before (phase.symm.trans latch))
    | stop =>
        cases step
        rfl
    | backend time => exact absurd latch (backend_running step).1

/-- The `join` in `stop` ends, whatever is appended meanwhile, if the backend
has got through the latch; otherwise it does not, unless somebody stops again.
The destructor finds `running_` set only when the backend has got through. -/
theorem stop_joins {before : List Event} (reached : system.Execution before logging) :
    (logging.phase ≠ .latch → ∀ more finish,
      system.Run { logging with running_ := false } more finish → finish.Ends) ∧
    (logging.phase = .latch → ∀ more finish, .stop ∉ more →
      system.Run { logging with running_ := false } more finish → finish.phase ≠ .finished) ∧
    (logging.running_ = true → logging.phase ≠ .latch) := by
  refine ⟨?_, ?_, ?_⟩
  · intro started more finish run
    obtain ⟨orderly, conserved⟩ := reachable_conserved reached
    have invariant := run.invariant
      (fun state => (state.Orderly ∧ state.Conserved) ∧ Stopped [] True state)
      ⟨⟨⟨orderly.current, orderly.next, orderly.spares⟩, conserved.lines, conserved.file⟩,
        rfl, started, List.nil_prefix, fun _ => trivial,
        fun _ => iff_of_true List.nil_prefix trivial⟩ ?_
    · obtain ⟨⟨orderly, -⟩, stopped⟩ := invariant
      exact orderly.ends stopped.running_ stopped.started
    · rintro state event next ⟨⟨orderly, conserved⟩, stopped⟩ ⟨admissible, step⟩
      obtain ⟨_, taken, kept⟩ := next_step orderly conserved admissible
      obtain rfl := Option.some.inj (taken.symm.trans step)
      exact ⟨kept, stopped.next conserved step⟩
  · intro latch more finish none run
    have invariant := run.history
      (fun past state => .stop ∉ past → state.Unstopped) (fun _ => .inl latch) ?_ none
    · rcases invariant with stillLatch | ⟨-, going⟩
      · simp [stillLatch]
      · exact going
    · rintro past state event next unstopped ⟨-, step⟩ none
      rw [List.mem_append, List.mem_singleton, not_or] at none
      exact (unstopped none.1).next (Ne.symm none.2) step
  · intro running latch
    rw [reachable_latch reached latch] at running
    cases running

/-- A stop before the backend runs, and one behind its latch. -/
theorem stop_joins_latch :
    let before : List Event := [.append [1]]
    let begun : List Event := [.append [1], .backend []]
    (∃ logging, system.Execution before logging ∧ ∀ more finish, .stop ∉ more →
      system.Run { logging with running_ := false } more finish → finish.phase ≠ .finished) ∧
    ∃ logging, system.Execution begun logging ∧ ∀ more finish,
      system.Run { logging with running_ := false } more finish → finish.Ends := by
  intro before begun
  have first := System.Execution.foldl_getD system (fun _ event => event.Admissible)
    (fun _ _ _ admissible taken => ⟨admissible, taken⟩) rfl
    (show System.Allowed _ _ new before by decide)
  have second := System.Execution.foldl_getD system (fun _ event => event.Admissible)
    (fun _ _ _ admissible taken => ⟨admissible, taken⟩) rfl
    (show System.Allowed _ _ new begun by decide)
  exact ⟨⟨_, first, (stop_joins first).2.1 (by decide)⟩,
    ⟨_, second, (stop_joins second).1 (by decide)⟩⟩

end AsyncLogging

end GdRpc.Gdlog
