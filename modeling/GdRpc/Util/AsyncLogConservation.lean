import GdRpc.Util.AsyncLogAsserts

/-!
# The log conserves lines

The buffers pass from `append` to the backend in the order in which they were
filled, and a spare one is empty whenever it goes into service. Two equations
carry the result: what the lines amount to in terms of the rounds, and what
the rounds amount to in the file.
-/

namespace GdRpc.Gdlog

open GdRpc.Library

namespace AsyncLogging

def contents (buffers : List Buffer) : Bytes :=
  (buffers.map Buffer.data).flatten

/-- The bytes in `currentBuffer_`. -/
def current (logging : AsyncLogging) : Bytes :=
  (logging.currentBuffer_.map Buffer.data).getD []

/-- The buffers taken in a round that has not yet looked at their number. -/
def undecided (logging : AsyncLogging) : List Buffer :=
  match logging.phase with
  | .taken => logging.buffersToWrite
  | _ => []

/-- The buffers of the round under way that are still to be written. -/
def unwritten (logging : AsyncLogging) : List Buffer :=
  match logging.phase with
  | .writing next => logging.buffersToWrite.drop next
  | _ => []

def Round.contents (round : Round) : Bytes :=
  round.taken.flatten

/-- What a round is to put into the file: all it took, or a notice and the first
two buffers when it took more than 25. -/
def Round.written (round : Round) : Bytes :=
  if round.taken.length ≤ 25 then
    round.taken.flatten
  else
    (ascii "Dropped log messages at " ++ round.time ++ ascii ", " ++
      ascii (toString (round.taken.length - 2)) ++ ascii " larger buffers\n").take 255 ++
      (round.taken.take 2).flatten

theorem Round.flatten_written (rounds : List Round) (round : Round) :
    ((rounds ++ [round]).map Round.written).flatten =
      (rounds.map Round.written).flatten ++ round.written := by
  simp

/-- Lines, rounds and file agree. -/
structure Conserved (logging : AsyncLogging) : Prop where
  lines : logging.lines.flatten =
    (logging.rounds.map Round.contents).flatten ++
      contents logging.undecided ++ contents logging.buffers_ ++ logging.current
  file : logging.file_ ++ contents logging.unwritten =
    (logging.rounds.map Round.written).flatten

@[simp]
theorem contents_append (first second : List Buffer) :
    contents (first ++ second) = contents first ++ contents second := by
  simp [contents]

@[simp]
theorem contents_singleton (buffer : Buffer) : contents [buffer] = buffer.data := by
  simp [contents]

namespace Buffer

theorem append_data {buffer : Buffer} {buf : Bytes}
    (room : buf.length < buffer.avail) :
    (buffer.append buf).data = buffer.data ++ buf := by
  rw [append, dif_pos room]

theorem append_new_data {buf : Bytes} (short : buf.length < size_) :
    (new.append buf).data = buf :=
  append_data short

end Buffer

variable {logging after : AsyncLogging}

theorem append_conserved {logline : Bytes} (orderly : logging.Orderly)
    (conserved : logging.Conserved) (short : logline.length < Buffer.size_)
    (appended : logging.append logline = some after) : after.Conserved := by
  obtain ⟨buffer, isCurrent⟩ := orderly.current
  have lines := conserved.lines
  simp only [current, isCurrent, Option.map_some, Option.getD_some] at lines
  unfold append at appended
  simp only [isCurrent] at appended
  split at appended
  next room =>
    cases appended
    refine ⟨?_, conserved.file⟩
    simp only [current, Option.map_some, Option.getD_some, Buffer.append_data room,
      List.flatten_append, lines]
    simp [undecided]
  next =>
    cases appended
    have fresh : logging.nextBuffer_.getD .new = .new := by
      rcases orderly.next with ⟨used, _⟩ | ⟨unused, _⟩
      · rw [used, Option.getD_none]
      · rw [unused, Option.getD_some]
    refine ⟨?_, conserved.file⟩
    simp only [current, Option.map_some, Option.getD_some, fresh,
      Buffer.append_new_data short, List.flatten_append, lines, contents_append,
      contents_singleton]
    simp [undecided]

theorem take_conserved (orderly : logging.Orderly) (conserved : logging.Conserved)
    (phase : logging.phase = .locking ∨ logging.phase = .waiting)
    (took : logging.take = some after) : after.Conserved := by
  obtain ⟨buffer, isCurrent⟩ := orderly.current
  obtain ⟨spare1, spare2, written⟩ : logging.newBuffer1 = some .new ∧
      logging.newBuffer2 = some .new ∧ logging.buffersToWrite = [] := by
    have spares := orderly.spares
    rcases phase with isPhase | isPhase <;> simpa [Spares, isPhase] using spares
  have undecided : logging.undecided = [] := by
    rcases phase with isPhase | isPhase <;> simp [AsyncLogging.undecided, isPhase]
  have unwritten : logging.unwritten = [] := by
    rcases phase with isPhase | isPhase <;> simp [AsyncLogging.unwritten, isPhase]
  have lines := conserved.lines
  have file := conserved.file
  simp only [undecided, current, isCurrent, Option.map_some, Option.getD_some] at lines
  rw [unwritten] at file
  unfold take at took
  simp only [isCurrent, spare1, written] at took
  split at took <;> cases took <;> refine ⟨?_, file⟩ <;>
    simp only [lines, AsyncLogging.undecided, current] <;> simp [contents, Buffer.new]

theorem drop_conserved (time : Bytes) (conserved : logging.Conserved)
    (phase : logging.phase = .taken) : (logging.drop time).Conserved := by
  have lines := conserved.lines
  have file := conserved.file
  simp only [undecided, phase] at lines
  simp only [unwritten, phase, contents, List.map_nil, List.flatten_nil,
    List.append_nil] at file
  have linesAfter : logging.lines.flatten =
      ((logging.rounds ++ [Round.mk (logging.buffersToWrite.map Buffer.data) time]).map
        Round.contents).flatten ++ contents [] ++
      contents logging.buffers_ ++ logging.current := by
    rw [lines]
    simp [contents, Round.contents]
  unfold drop
  by_cases tooMany : 25 < logging.buffersToWrite.length
  · rw [if_pos tooMany]
    refine ⟨linesAfter, ?_⟩
    have round : Round.written ⟨logging.buffersToWrite.map Buffer.data, time⟩ =
        notice time (logging.buffersToWrite.length - 2) ++
          contents (logging.buffersToWrite.take 2) := by
      rw [Round.written, if_neg (by simpa using tooMany)]
      simp [contents, notice]
    simp only [unwritten, List.drop_zero]
    rw [Round.flatten_written, round, ← file, List.append_assoc]
  · rw [if_neg tooMany]
    refine ⟨linesAfter, ?_⟩
    have round : Round.written ⟨logging.buffersToWrite.map Buffer.data, time⟩ =
        contents logging.buffersToWrite := by
      rw [Round.written, if_pos (by simpa using tooMany), contents]
    simp only [unwritten, List.drop_zero]
    rw [Round.flatten_written, round, ← file]

theorem write_conserved {next : Nat} (orderly : logging.Orderly)
    (conserved : logging.Conserved) (phase : logging.phase = .writing next)
    (wrote : logging.write next = some after) : after.Conserved := by
  have lines := conserved.lines
  have file := conserved.file
  simp only [undecided, phase] at lines
  simp only [unwritten, phase] at file
  unfold write at wrote
  cases found : logging.buffersToWrite[next]? with
  | some buffer =>
      obtain ⟨inside, rfl⟩ := List.getElem?_eq_some_iff.mp found
      rw [found] at wrote
      cases wrote
      refine ⟨lines, ?_⟩
      rw [List.drop_eq_getElem_cons inside, contents, List.map_cons,
        List.flatten_cons, ← List.append_assoc] at file
      exact file
  | none =>
      obtain ⟨spare1, spare2⟩ := orderly.writing phase
      simp only [found, recycle_eq spare1 spare2] at wrote
      cases wrote
      rw [List.drop_eq_nil_of_le (List.getElem?_eq_none_iff.mp found)] at file
      exact ⟨lines, file⟩

theorem backend_conserved {time : Bytes} (orderly : logging.Orderly)
    (conserved : logging.Conserved) (step : logging.backend time = some after) :
    after.Conserved := by
  have lines := conserved.lines
  have file := conserved.file
  unfold backend at step
  cases phase : logging.phase with
  | latch =>
      simp only [undecided, phase] at lines
      simp only [unwritten, phase] at file
      rw [phase] at step
      cases step
      exact ⟨lines, file⟩
  | top =>
      simp only [undecided, phase] at lines
      simp only [unwritten, phase] at file
      rw [phase] at step
      cases step
      constructor
      · simp only [undecided]
        cases logging.running_ <;> exact lines
      · simp only [unwritten]
        cases logging.running_ <;> exact file
  | locking =>
      simp only [phase] at step
      unfold lock at step
      split at step
      · simp only [undecided, phase] at lines
        simp only [unwritten, phase] at file
        cases step
        exact ⟨lines, file⟩
      · exact take_conserved orderly conserved (.inl phase) step
  | waiting =>
      simp only [phase] at step
      exact take_conserved orderly conserved (.inr phase) step
  | taken =>
      simp only [phase] at step
      cases step
      exact drop_conserved time conserved phase
  | writing next =>
      simp only [phase] at step
      exact write_conserved orderly conserved phase step
  | finished =>
      simp only [phase] at step
      cases step
      exact conserved

/-- No step of any thread fails or loses a line. -/
theorem next_step {event : Event} (orderly : logging.Orderly)
    (conserved : logging.Conserved) (admissible : event.Admissible) :
    ∃ after, logging.next event = some after ∧ after.Orderly ∧ after.Conserved := by
  obtain ⟨after, taken, kept⟩ := next_orderly orderly event
  refine ⟨after, taken, kept, ?_⟩
  cases event with
  | append logline => exact append_conserved orderly conserved admissible taken
  | stop =>
      cases taken
      exact ⟨conserved.lines, conserved.file⟩
  | backend time => exact backend_conserved orderly conserved taken

theorem conserved_new : new.Conserved :=
  ⟨rfl, rfl⟩

theorem reachable_conserved {events : List Event} {logging : AsyncLogging}
    (execution : system.Execution events logging) :
    logging.Orderly ∧ logging.Conserved := by
  refine execution.invariant
    (fun logging => logging.Orderly ∧ logging.Conserved) ?_ ?_
  · rintro _ rfl
    exact ⟨orderly_new, conserved_new⟩
  · rintro logging event after ⟨orderly, conserved⟩ ⟨admissible, step⟩
    obtain ⟨_, taken, kept⟩ := next_step orderly conserved admissible
    obtain rfl := Option.some.inj (taken.symm.trans step)
    exact kept

/-- A round that took more than 25 buffers writes a notice before the first two. -/
theorem Round.written_of_more (round : Round) (more : 25 < round.taken.length) :
    ∃ text, round.written =
      ascii "Dropped log messages at " ++ text ++ (round.taken.take 2).flatten := by
  have short : (ascii "Dropped log messages at ").length ≤ 255 := by decide
  rw [Round.written, if_neg (Nat.not_le.mpr more)]
  simp only [List.append_assoc]
  rw [List.take_append, List.take_of_length_le short]
  exact ⟨_, rfl⟩

/-- What the file has, what the backend has still to write and what waits in
`buffers_` and `currentBuffer_` is all lines in order, but for the rounds that
took more than 25 buffers, which wrote a notice and two of them. No step of
any thread meets a null buffer. -/
theorem log_conserves_lines {events : List Event} {logging : AsyncLogging}
    (execution : system.Execution events logging) :
    (logging.lines.flatten =
      (logging.rounds.map Round.contents).flatten ++ contents logging.undecided ++
        contents logging.buffers_ ++ logging.current) ∧
    (logging.file_ ++ contents logging.unwritten =
      (logging.rounds.map Round.written).flatten) ∧
    (∀ round ∈ logging.rounds, 25 < round.taken.length → ∃ text, round.written =
      ascii "Dropped log messages at " ++ text ++ (round.taken.take 2).flatten) ∧
    ((∀ round ∈ logging.rounds, round.taken.length ≤ 25) →
      logging.file_ ++ contents logging.unwritten ++ contents logging.undecided ++
        contents logging.buffers_ ++ logging.current = logging.lines.flatten) ∧
    ∀ event : Event, event.Admissible → (logging.next event).isSome := by
  obtain ⟨orderly, conserved⟩ := reachable_conserved execution
  refine ⟨conserved.lines, conserved.file, fun round _ => round.written_of_more, ?_, ?_⟩
  · intro few
    have whole : logging.rounds.map Round.written = logging.rounds.map Round.contents := by
      apply List.map_congr_left
      intro round membership
      exact if_pos (few round membership)
    rw [conserved.file, conserved.lines, whole]
  · intro event admissible
    obtain ⟨after, taken, _⟩ := next_step orderly conserved admissible
    rw [taken]
    rfl

section Overload

variable (line : Bytes)

/-- A log that no backend has looked at, with the line in each of its `count + 1`
buffers. -/
def crowded (short : line.length < Buffer.size_) (count : Nat) : AsyncLogging :=
  let full : Buffer := ⟨line, short⟩
  { new with
    currentBuffer_ := some full
    nextBuffer_ := if count = 0 then some .new else none
    buffers_ := List.replicate count full
    lines := List.replicate (count + 1) line }

theorem append_new (short : line.length < Buffer.size_) :
    new.append line = some (crowded line short 0) := by
  have room : line.length < Buffer.new.avail := short
  have first : new.currentBuffer_ = some .new := rfl
  simp only [append, first, if_pos room, Buffer.append, dif_pos room]
  rfl

theorem append_crowded (short : line.length < Buffer.size_)
    (long : Buffer.size_ ≤ 2 * line.length) (count : Nat) :
    (crowded line short count).append line = some (crowded line short (count + 1)) := by
  have crammed : ¬ line.length < (⟨line, short⟩ : Buffer).avail := by
    unfold Buffer.avail
    dsimp only
    omega
  have room : line.length < Buffer.new.avail := short
  unfold append crowded
  simp only [crammed, if_false, Nat.add_eq_zero_iff, Nat.one_ne_zero, and_false]
  have fresh : ((if count = 0 then some Buffer.new else none).getD .new) = .new := by
    split <;> rfl
  rw [fresh, Buffer.append, dif_pos room, ← List.replicate_succ', ← List.replicate_succ']
  rfl

theorem crowd (short : line.length < Buffer.size_) (long : Buffer.size_ ≤ 2 * line.length)
    (count : Nat) :
    system.Execution (List.replicate (count + 1) (.append line)) (crowded line short count) := by
  induction count with
  | zero =>
      exact ⟨new, rfl, .single system new _ ⟨short, append_new line short⟩⟩
  | succ count inductionHypothesis =>
      obtain ⟨start, isNew, run⟩ := inductionHypothesis
      rw [List.replicate_succ']
      exact ⟨start, isNew, run.snoc ⟨short, append_crowded line short long count⟩⟩

theorem exists_overload (short : line.length < Buffer.size_)
    (long : Buffer.size_ ≤ 2 * line.length) (time : Bytes) :
    ∃ events logging, system.Execution events logging ∧
      logging.rounds = [⟨List.replicate 26 line, time⟩] ∧
      contents logging.unwritten = line ++ line := by
  obtain ⟨start, isNew, run⟩ := crowd line short long 25
  let taken : AsyncLogging := { crowded line short 25 with
    running_ := true
    currentBuffer_ := some .new
    nextBuffer_ := some .new
    buffers_ := []
    buffersToWrite := List.replicate 26 ⟨line, short⟩
    phase := .taken }
  have toTaken : system.Run (crowded line short 25)
      [.backend [], .backend [], .backend []] taken := by
    have latch := System.Run.single system (crowded line short 25) (.backend [])
      ⟨trivial, rfl⟩
    exact (latch.extend (.backend []) ⟨trivial, rfl⟩).extend (.backend []) ⟨trivial, rfl⟩
  refine ⟨_, taken.drop time, ⟨start, isNew,
    (run.append toTaken).extend (.backend time) ⟨trivial, rfl⟩⟩, ?_, ?_⟩
  · simp [drop, taken, crowded, new]
  · simp [drop, taken, unwritten, contents]

end Overload

/-- 26 lines, each of which fills a buffer, before the backend first looks. -/
theorem log_conserves_lines_overload :
    let line : Bytes := List.replicate 4095999 97
    ∃ events logging, system.Execution events logging ∧
      logging.rounds = [⟨List.replicate 26 line, ascii "20240101 00:00:00.000000Z"⟩] ∧
      contents logging.unwritten = line ++ line ∧
      (logging.file_ ++ contents logging.unwritten =
        (logging.rounds.map Round.written).flatten) ∧
      ∃ text, logging.file_ ++ contents logging.unwritten =
        ascii "Dropped log messages at " ++ text ++ (line ++ line) := by
  intro line
  have length : line.length = 4095999 := List.length_replicate
  obtain ⟨events, logging, execution, rounds, unwritten⟩ :=
    exists_overload line (by rw [length]; decide) (by rw [length]; decide)
      (ascii "20240101 00:00:00.000000Z")
  obtain ⟨-, file, noticed, -, -⟩ := log_conserves_lines execution
  refine ⟨events, logging, execution, rounds, unwritten, file, ?_⟩
  rw [rounds] at file noticed
  obtain ⟨text, written⟩ := noticed _ (List.mem_singleton_self _) (by simp)
  refine ⟨text, ?_⟩
  rw [file, List.map_singleton, List.flatten_singleton, written]
  simp

end AsyncLogging

end GdRpc.Gdlog
