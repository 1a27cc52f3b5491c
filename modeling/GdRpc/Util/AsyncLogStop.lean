import GdRpc.Util.AsyncLogConservation

/-!
# Stopping the log

`stop` clears `running_`, which the backend looks at only between two rounds.
A round that has not taken its buffers yet still takes them all; behind that
section nothing is taken any more, whatever waits.
-/

namespace GdRpc.Gdlog

open GdRpc.Library

namespace AsyncLogging

/-- The backend has passed its test of `running_` and not taken the buffers. -/
def WillTake (logging : AsyncLogging) : Prop :=
  logging.phase = .locking ∨ logging.phase = .waiting

instance (logging : AsyncLogging) : Decidable logging.WillTake :=
  inferInstanceAs (Decidable (_ ∨ _))

/-- What the backend has ever taken. -/
def secured (logging : AsyncLogging) : Bytes :=
  (logging.rounds.map Round.contents).flatten ++ contents logging.undecided

/-- What it has still to take. -/
def untaken (logging : AsyncLogging) : Bytes :=
  contents logging.buffers_ ++ logging.current

theorem Conserved.secured_untaken {logging : AsyncLogging} (conserved : logging.Conserved) :
    logging.lines.flatten = logging.secured ++ logging.untaken := by
  rw [conserved.lines, secured, untaken, List.append_assoc]

/-! ## What a step takes -/

theorem append_secured {logging after : AsyncLogging} {logline : Bytes}
    (appended : logging.append logline = some after) :
    after.phase = logging.phase ∧ after.running_ = logging.running_ ∧
      after.lines = logging.lines ++ [logline] ∧ after.secured = logging.secured := by
  unfold append at appended
  cases current : logging.currentBuffer_ with
  | none => simp [current] at appended
  | some buffer =>
      simp only [current] at appended
      split at appended <;> cases appended <;> exact ⟨rfl, rfl, rfl, rfl⟩

theorem take_secured {logging after : AsyncLogging} (conserved : logging.Conserved)
    (willTake : logging.WillTake) (took : logging.take = some after) :
    after.phase = .taken ∧ after.running_ = logging.running_ ∧
      after.lines = logging.lines ∧ after.secured = logging.lines.flatten := by
  have nothing : logging.undecided = [] := by
    rcases willTake with phase | phase <;> simp [undecided, phase]
  have lines := conserved.lines
  rw [nothing] at lines
  unfold take at took
  cases isCurrent : logging.currentBuffer_ with
  | none => simp [isCurrent] at took
  | some buffer =>
      have own : logging.current = buffer.data := by simp [current, isCurrent]
      simp only [isCurrent] at took
      split at took <;> cases took <;> refine ⟨rfl, rfl, rfl, ?_⟩ <;>
        simp [secured, undecided, lines, own, contents]

theorem drop_secured {logging : AsyncLogging} (time : Bytes)
    (phase : logging.phase = .taken) :
    (logging.drop time).phase = .writing 0 ∧
      (logging.drop time).running_ = logging.running_ ∧
      (logging.drop time).lines = logging.lines ∧
      (logging.drop time).secured = logging.secured := by
  unfold drop
  dsimp only
  split <;> refine ⟨rfl, rfl, rfl, ?_⟩ <;>
    simp [secured, undecided, phase, contents, Round.contents]

theorem write_secured {logging after : AsyncLogging} {next : Nat}
    (phase : logging.phase = .writing next) (wrote : logging.write next = some after) :
    (after.phase = .writing (next + 1) ∨ after.phase = .top) ∧
      after.running_ = logging.running_ ∧ after.lines = logging.lines ∧
      after.secured = logging.secured := by
  unfold write at wrote
  split at wrote
  next buffer here =>
    cases wrote
    exact ⟨.inl rfl, rfl, rfl, by simp [secured, undecided, phase]⟩
  next =>
    unfold recycle at wrote
    split at wrote
    next => cases wrote
    next =>
      split at wrote
      next => cases wrote
      next =>
        cases wrote
        exact ⟨.inr rfl, rfl, rfl, by simp [secured, undecided, phase]⟩

/-! ## After `stop` -/

/-- `text` is to be flushed; whether it will be is decided by the time the
backend is behind its last lock section. -/
structure Stopped (text : Bytes) (flushes : Prop) (logging : AsyncLogging) : Prop where
  running_ : logging.running_ = false
  started : logging.phase ≠ .latch
  lines : text <+: logging.lines.flatten
  taking : logging.WillTake → flushes
  taken : ¬ logging.WillTake → (text <+: logging.secured ↔ flushes)

namespace Stopped

variable {text : Bytes} {flushes : Prop} {logging after : AsyncLogging}

theorem frame (stopped : Stopped text flushes logging)
    (running_ : after.running_ = logging.running_) (started : after.phase ≠ .latch)
    (lines : logging.lines.flatten <+: after.lines.flatten)
    (side : after.WillTake ↔ logging.WillTake)
    (secured : after.secured = logging.secured) : Stopped text flushes after := by
  refine ⟨running_.trans stopped.running_, started, stopped.lines.trans lines, ?_, ?_⟩
  · rw [side]
    exact stopped.taking
  · rw [side, secured]
    exact stopped.taken

theorem append (stopped : Stopped text flushes logging) {logline : Bytes}
    (appended : logging.append logline = some after) : Stopped text flushes after := by
  obtain ⟨phase, running_, lines, secured⟩ := append_secured appended
  refine stopped.frame running_ ?_ ?_ ?_ secured
  · rw [phase]
    exact stopped.started
  · rw [lines, List.flatten_append]
    exact List.prefix_append _ _
  · rw [WillTake, WillTake, phase]

theorem take (stopped : Stopped text flushes logging) (conserved : logging.Conserved)
    (willTake : logging.WillTake) (took : logging.take = some after) :
    Stopped text flushes after := by
  obtain ⟨phase, running_, lines, secured⟩ := take_secured conserved willTake took
  refine ⟨running_.trans stopped.running_, by simp [phase], lines ▸ stopped.lines, ?_, ?_⟩
  · intro again
    simp [WillTake, phase] at again
  · intro _
    rw [secured]
    exact iff_of_true stopped.lines (stopped.taking willTake)

theorem backend (stopped : Stopped text flushes logging) (conserved : logging.Conserved)
    {time : Bytes} (step : logging.backend time = some after) :
    Stopped text flushes after := by
  unfold AsyncLogging.backend at step
  cases phase : logging.phase with
  | latch => exact absurd phase stopped.started
  | top =>
      simp only [phase, stopped.running_, Bool.false_eq_true, if_false] at step
      cases step
      refine stopped.frame stopped.running_.symm (by simp) (List.prefix_refl _) ?_ ?_
      · simp [WillTake, phase]
      · simp [secured, undecided, phase]
  | locking =>
      have willTake : logging.WillTake := .inl phase
      simp only [phase] at step
      unfold lock at step
      split at step
      next =>
        cases step
        refine stopped.frame rfl (by simp) (List.prefix_refl _) ?_ ?_
        · simp [WillTake, phase]
        · simp [secured, undecided, phase]
      next => exact stopped.take conserved willTake step
  | waiting =>
      simp only [phase] at step
      exact stopped.take conserved (.inr phase) step
  | taken =>
      simp only [phase] at step
      cases step
      obtain ⟨behind, running_, lines, secured⟩ := drop_secured time phase
      refine stopped.frame running_ (by simp [behind]) ?_ ?_ secured
      · exact lines ▸ List.prefix_refl _
      · simp [WillTake, phase, behind]
  | writing next =>
      simp only [phase] at step
      obtain ⟨behind, running_, lines, secured⟩ := write_secured phase step
      refine stopped.frame running_ ?_ ?_ ?_ secured
      · rcases behind with there | there <;> simp [there]
      · exact lines ▸ List.prefix_refl _
      · rcases behind with there | there <;> simp [WillTake, phase, there]
  | finished =>
      simp only [phase] at step
      cases step
      exact stopped

theorem next (stopped : Stopped text flushes logging) (conserved : logging.Conserved)
    {event : Event} (step : logging.next event = some after) :
    Stopped text flushes after := by
  cases event with
  | append logline => exact stopped.append step
  | stop =>
      cases step
      exact stopped.frame stopped.running_.symm stopped.started (List.prefix_refl _)
        Iff.rfl rfl
  | backend time => exact stopped.backend conserved step

end Stopped

theorem stopped_stop {logging : AsyncLogging} (conserved : logging.Conserved)
    (started : logging.phase ≠ .latch) :
    Stopped logging.lines.flatten (logging.WillTake ∨ logging.untaken = [])
      { logging with running_ := false } := by
  refine ⟨rfl, started, List.prefix_refl _, .inl, ?_⟩
  intro behind
  have elsewhere : ¬ logging.WillTake := behind
  have split := conserved.secured_untaken
  have same : ({ logging with running_ := false } : AsyncLogging).secured =
      logging.secured := rfl
  rw [same, split, or_iff_right elsewhere]
  constructor
  · intro inside
    have lengths := inside.length_le
    rw [List.length_append] at lengths
    exact List.eq_nil_of_length_eq_zero (by omega)
  · intro nothing
    exact ⟨[], by simp [nothing]⟩

/-- When no round takes more than 25 buffers, all that is taken is written by
the end of `threadFunc`. -/
theorem Conserved.file_of_finished {logging : AsyncLogging} (conserved : logging.Conserved)
    (finished : logging.phase = .finished)
    (few : ∀ round ∈ logging.rounds, round.taken.length ≤ 25) :
    logging.file_ = logging.secured := by
  have whole : logging.rounds.map Round.written = logging.rounds.map Round.contents := by
    apply List.map_congr_left
    intro round membership
    exact if_pos (few round membership)
  have file := conserved.file
  rw [whole] at file
  simpa [unwritten, undecided, secured, finished, contents] using file

/-- By the time `threadFunc` returns, all lines appended before `stop` are in
the file exactly if `stop` came when the backend had still to take its buffers,
or when no line waited. -/
theorem stop_flushes_iff {before after : List Event} {logging finish : AsyncLogging}
    (reached : system.Execution before logging) (started : logging.phase ≠ .latch)
    (run : system.Run { logging with running_ := false } after finish)
    (returned : finish.phase = .finished)
    (few : ∀ round ∈ finish.rounds, round.taken.length ≤ 25) :
    logging.lines.flatten <+: finish.file_ ↔
      (logging.phase = .locking ∨ logging.phase = .waiting) ∨
        contents logging.buffers_ ++ logging.current = [] := by
  obtain ⟨orderly, conserved⟩ := reachable_conserved reached
  have conservedStop : ({ logging with running_ := false } : AsyncLogging).Orderly ∧
      ({ logging with running_ := false } : AsyncLogging).Conserved :=
    ⟨⟨orderly.current, orderly.next, orderly.spares⟩, conserved.lines, conserved.file⟩
  have invariant : (finish.Orderly ∧ finish.Conserved) ∧
      Stopped logging.lines.flatten (logging.WillTake ∨ logging.untaken = []) finish := by
    refine run.invariant (fun state => (state.Orderly ∧ state.Conserved) ∧
      Stopped logging.lines.flatten (logging.WillTake ∨ logging.untaken = []) state)
      ⟨conservedStop, stopped_stop conserved started⟩ ?_
    rintro state event next ⟨⟨orderly, conserved⟩, stopped⟩ ⟨admissible, step⟩
    obtain ⟨_, taken, kept⟩ := next_step orderly conserved admissible
    obtain rfl := Option.some.inj (taken.symm.trans step)
    exact ⟨kept, stopped.next conserved step⟩
  obtain ⟨⟨_, conservedFinish⟩, stopped⟩ := invariant
  have behind : ¬ finish.WillTake := by simp [WillTake, returned]
  rw [conservedFinish.file_of_finished returned few]
  exact stopped.taken behind

/-- The step of a computed run. -/
def advance (logging : AsyncLogging) (event : Event) : AsyncLogging :=
  (logging.next event).getD logging

/-- The backend waits for the condition variable when `stop` comes. -/
theorem stop_flushes_iff_waiting :
    let before : List Event := [.backend [], .backend [], .backend [], .append [1]]
    let after : List Event := [.append [2], .backend [], .backend [], .backend [],
      .backend [], .backend []]
    let logging := before.foldl advance new
    let finish := after.foldl advance { logging with running_ := false }
    logging.lines = [[1]] ∧ finish.file_ = [1, 2] ∧
      (logging.lines.flatten <+: finish.file_ ↔
        (logging.phase = .locking ∨ logging.phase = .waiting) ∨
          contents logging.buffers_ ++ logging.current = []) := by
  intro before after logging finish
  have reached : system.Execution before logging :=
    System.Execution.foldl_getD system (fun _ event => event.Admissible)
      (fun _ _ _ admissible taken => ⟨admissible, taken⟩) rfl (by decide)
  have run : system.Run { logging with running_ := false } after finish :=
    System.Run.foldl_getD system (fun _ event => event.Admissible)
      (fun _ _ _ admissible taken => ⟨admissible, taken⟩) (by decide)
  exact ⟨by decide, by decide,
    stop_flushes_iff reached (by decide) run (by decide) (by decide)⟩

/-- The line comes while the backend writes, and `stop` before its next test. -/
theorem stop_loses_line :
    ∃ before after logging finish, system.Execution before logging ∧
      logging.phase ≠ .latch ∧
      system.Run { logging with running_ := false } after finish ∧
      finish.phase = .finished ∧ (∀ round ∈ finish.rounds, round.taken.length ≤ 25) ∧
      ¬ logging.lines.flatten <+: finish.file_ := by
  let before : List Event := [.backend [], .backend [], .backend [], .backend [],
    .backend [], .append [1]]
  let after : List Event := [.backend [], .backend [], .backend []]
  let logging := before.foldl advance new
  have reached : system.Execution before logging :=
    System.Execution.foldl_getD system (fun _ event => event.Admissible)
      (fun _ _ _ admissible taken => ⟨admissible, taken⟩) rfl (by decide)
  have run : system.Run { logging with running_ := false } after
      (after.foldl advance { logging with running_ := false }) :=
    System.Run.foldl_getD system (fun _ event => event.Admissible)
      (fun _ _ _ admissible taken => ⟨admissible, taken⟩) (by decide)
  exact ⟨before, after, logging, _, reached, by decide, run, by decide, by decide,
    by decide⟩

end AsyncLogging

end GdRpc.Gdlog
