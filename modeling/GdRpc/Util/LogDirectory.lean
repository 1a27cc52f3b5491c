import GdRpc.Util.AsyncLogConservation
import GdRpc.Util.Timestamp

/-!
# The log in its files

`AsyncLogging` with the `LogFile` that its backend writes to. What the backend
has passed on lies in files whose names sort in the order of the lines, so that
a reader who lists the directory has the log back; at the end of a round the
open file is flushed.
-/

namespace GdRpc.Gdlog

open GdRpc.Library GdRpc.Util

namespace AsyncLogging

namespace LogFile

/-- All that has been written to the open file is flushed. -/
def Flushed (file : LogFile) : Prop :=
  file.flushed = file.file_.length

instance : DecidablePred Flushed := fun file =>
  inferInstanceAs (Decidable (file.flushed = _))

namespace Rolling

def flush (rolling : Rolling) : Rolling :=
  { rolling with file := LogFile.flush rolling.file }

end Rolling

end LogFile

open LogFile (FileNames Rolling FourDigitReading)

/-- What a step passes to `file_.append`. -/
def appends (logging : AsyncLogging) : Event → Option Bytes
  | .backend time =>
      match logging.phase with
      | .taken =>
          if 25 < logging.buffersToWrite.length then
            some (notice time (logging.buffersToWrite.length - 2))
          else
            none
      | .writing next => logging.buffersToWrite[next]?.map Buffer.data
      | _ => none
  | _ => none

/-- Whether a step calls `file_.flush`, as it does at the end of the loop body
and behind the loop. -/
def flushes (logging : AsyncLogging) : Event → Bool
  | .backend _ =>
      match logging.phase with
      | .top => !logging.running_
      | .writing next => logging.buffersToWrite[next]?.isNone
      | _ => false
  | _ => false

/-- An `AsyncLogging` and the files behind its `file_`. -/
structure OnDisk where
  logging : AsyncLogging
  file_ : Rolling

namespace OnDisk

/-- The constructor leaves the intervals of `file_` at their defaults. -/
def new (names : FileNames) (disk : Bytes → Bytes) (rollSize now : Int) : OnDisk where
  logging := AsyncLogging.new
  file_ := .new names disk rollSize 3 1024 now

/-- `now` is what the clock shows if `file_` looks at it. -/
def next (names : FileNames) (onDisk : OnDisk) (event : Event) (now : Int) : Option OnDisk :=
  match onDisk.logging.next event with
  | none => none
  | some logging =>
      let file_ := match onDisk.logging.appends event with
        | some logline => onDisk.file_.append names logline now
        | none => onDisk.file_
      some ⟨logging, if onDisk.logging.flushes event then file_.flush else file_⟩

def system (names : FileNames) (disk : Bytes → Bytes) (rollSize now : Int) :
    System OnDisk (Event × Int) where
  initial onDisk := onDisk = new names disk rollSize now
  step onDisk label after :=
    label.1.Admissible ∧ onDisk.next names label.1 label.2 = some after

end OnDisk

/-! ## What a step writes -/

variable {logging loggingAfter : AsyncLogging} {event : Event}

theorem refill_file_ {next : Nat} (wrote : logging.write next = some loggingAfter)
    (none : logging.buffersToWrite[next]? = none) :
    loggingAfter.file_ = logging.file_ := by
  unfold write at wrote
  rw [none] at wrote
  dsimp only at wrote
  unfold recycle at wrote
  split at wrote
  · cases wrote
  · split at wrote
    · cases wrote
    · cases wrote
      rfl

theorem take_file_ (took : logging.take = some loggingAfter) :
    loggingAfter.file_ = logging.file_ := by
  unfold take at took
  split at took
  · cases took
  · dsimp only at took
    split at took <;> cases took <;> rfl

/-- Every byte of `file_` goes through a call of `file_.append`. -/
theorem next_file_ (taken : logging.next event = some loggingAfter) :
    loggingAfter.file_ = logging.file_ ++ (logging.appends event).getD [] := by
  cases event with
  | append logline =>
      simp only [next, append] at taken
      split at taken
      · cases taken
      · split at taken <;> cases taken <;> simp [appends]
  | stop =>
      cases taken
      simp [appends]
  | backend time =>
      simp only [next, backend] at taken
      simp only [appends]
      cases phase : logging.phase with
      | latch | top | finished =>
          rw [phase] at taken
          cases taken
          simp [beginThread]
      | locking =>
          rw [phase] at taken
          simp only [lock] at taken
          split at taken
          · cases taken
            simp
          · simp [take_file_ taken]
      | waiting =>
          rw [phase] at taken
          simp [take_file_ taken]
      | taken =>
          rw [phase] at taken
          cases taken
          by_cases tooMany : 25 < logging.buffersToWrite.length
          · simp [drop, tooMany]
          · simp [drop, tooMany]
      | writing next =>
          cases found : logging.buffersToWrite[next]? with
          | some buffer =>
              simp only [phase, write, found] at taken
              cases taken
              simp [found]
          | none =>
              rw [phase] at taken
              simp [found, refill_file_ taken found]

/-- No buffer of a round has been passed on since the last flush. -/
def Settled (logging : AsyncLogging) : Prop :=
  ∀ next, logging.phase ≠ .writing next

theorem settled_of_next (taken : logging.next event = some loggingAfter)
    (quiet : logging.flushes event = false) (settled : loggingAfter.Settled) :
    logging.Settled ∧ logging.appends event = none := by
  cases event with
  | append logline =>
      simp only [next, append] at taken
      split at taken
      · cases taken
      · split at taken <;> cases taken <;> exact ⟨settled, rfl⟩
  | stop =>
      cases taken
      exact ⟨settled, rfl⟩
  | backend time =>
      simp only [next, backend] at taken
      simp only [flushes] at quiet
      simp only [appends, Settled]
      cases phase : logging.phase with
      | latch | top | finished | locking | waiting => simp
      | taken =>
          rw [phase] at taken
          cases taken
          refine absurd ?_ (settled 0)
          by_cases tooMany : 25 < logging.buffersToWrite.length
          · simp [drop, tooMany]
          · simp [drop, tooMany]
      | writing next =>
          rw [phase] at taken quiet
          cases found : logging.buffersToWrite[next]? with
          | some buffer =>
              simp only [write, found] at taken
              cases taken
              exact absurd rfl (settled (next + 1))
          | none => simp [found] at quiet

namespace LogFile.Rolling

variable {names : FileNames} {rolling : Rolling}

theorem append_contents (logline : Bytes) (now : Int)
    (distinct : (rolling.append names logline now).directory.opened.Nodup)
    (contents : rolling.directory.contents = rolling.file.closed ++ [rolling.file.file_]) :
    let after := rolling.append names logline now
    after.directory.contents = after.file.closed ++ [after.file.file_] := by
  intro after
  rcases append_cases logline now with
    ⟨directory, -, -, closed, file_⟩ | ⟨-, directory, -, -, closed, file_⟩
  · rw [directory, Directory.write_opened] at distinct
    rw [show after.directory = _ from directory, show after.file.closed = _ from closed,
      show after.file.file_ = _ from file_]
    exact Directory.contents_write distinct contents logline
  · rw [directory, Directory.openFile, Directory.write_opened, List.nodup_append_comm] at distinct
    obtain ⟨fresh, before⟩ := List.nodup_cons.mp distinct
    rw [← Directory.write_opened logline] at fresh
    rw [directory, Directory.contents_openFile fresh,
      Directory.contents_write before contents logline, closed, file_]

theorem append_text (logline : Bytes) (now : Int) :
    let after := rolling.append names logline now
    after.file.closed.flatten ++ after.file.file_ =
      rolling.file.closed.flatten ++ rolling.file.file_ ++ logline := by
  intro after
  rcases @append_cases names rolling logline now with
    ⟨-, -, -, closed, file_⟩ | ⟨-, -, -, -, closed, file_⟩ <;> rw [closed, file_] <;> simp

end LogFile.Rolling

namespace OnDisk

variable {names : FileNames} {onDisk : OnDisk} {disk : Bytes → Bytes} {rollSize first : Int}

/-- The files, in the order of their names, hold what the backend has passed
on; outside of its rounds the open one is flushed. -/
structure Filed (names : FileNames) (onDisk : OnDisk) : Prop where
  inOrder : onDisk.file_.InOrder names FourDigitReading
  contents : onDisk.file_.directory.contents =
    onDisk.file_.file.closed ++ [onDisk.file_.file.file_]
  text : onDisk.file_.file.closed.flatten ++ onDisk.file_.file.file_ = onDisk.logging.file_
  flushed : onDisk.logging.Settled → onDisk.file_.file.Flushed

theorem filed_new (first : FourDigitReading now) : Filed names (new names disk rollSize now) := by
  refine ⟨Rolling.inOrder_new disk rollSize 3 1024 first, ?_, rfl, fun _ => rfl⟩
  exact Directory.contents_openFile List.not_mem_nil

theorem Filed.next (filed : Filed names onDisk) (utc : names.Utc) {now : Int}
    (reading : FourDigitReading now) {after : OnDisk}
    (step : onDisk.next names event now = some after) : Filed names after := by
  unfold OnDisk.next at step
  split at step
  · cases step
  next logging taken =>
    -- the files before the flush
    obtain ⟨file_, isFile, inOrder, contents, text, same⟩ : ∃ file_,
        file_ = (match onDisk.logging.appends event with
          | some logline => onDisk.file_.append names logline now
          | none => onDisk.file_) ∧
        file_.InOrder names FourDigitReading ∧
        file_.directory.contents = file_.file.closed ++ [file_.file.file_] ∧
        file_.file.closed.flatten ++ file_.file.file_ = logging.file_ ∧
        (onDisk.logging.appends event = none → file_ = onDisk.file_) := by
      rw [next_file_ taken, ← filed.text]
      refine ⟨_, rfl, ?_⟩
      cases onDisk.logging.appends event with
      | none => exact ⟨filed.inOrder, filed.contents, by simp, fun _ => rfl⟩
      | some logline =>
          have inOrder := filed.inOrder.append logline reading
          refine ⟨inOrder, ?_, Rolling.append_text logline now, by simp⟩
          apply Rolling.append_contents logline now _ filed.contents
          refine (inOrder.sorted utc).imp ?_
          rintro name _ order rfl
          exact List.lt_irrefl name order
    rw [← isFile] at step
    cases step
    cases flush : onDisk.logging.flushes event with
    | true => exact ⟨⟨inOrder.1, inOrder.2, inOrder.3, inOrder.4⟩, contents, text, fun _ => rfl⟩
    | false =>
        refine ⟨inOrder, contents, text, ?_⟩
        intro settled
        obtain ⟨settledBefore, nothing⟩ := settled_of_next taken flush settled
        rw [same nothing]
        exact filed.flushed settledBefore

/-- The files do not change what the `AsyncLogging` does. -/
theorem execution_logging {now : Int} {labels : List (Event × Int)}
    (execution : (system names disk rollSize now).Execution labels onDisk) :
    AsyncLogging.system.Execution (labels.map Prod.fst) onDisk.logging := by
  refine execution.history
    (fun past reached => AsyncLogging.system.Execution (past.map Prod.fst) reached.logging) ?_ ?_
  · rintro _ rfl
    exact ⟨_, rfl, .nil⟩
  · rintro past middle label after ⟨start, isNew, run⟩ ⟨admissible, step⟩
    rw [List.map_append]
    refine ⟨start, isNew, run.snoc ⟨admissible, ?_⟩⟩
    unfold OnDisk.next at step
    split at step
    · cases step
    next logging taken =>
      cases step
      exact taken

/-- Whoever reads the files in the order of their names, whatever else the disk
has held and however the clock has stepped back, reads what the backend has
passed on: all lines, in order, but for those that still wait, if no round has
dropped any. Between the rounds all of it is flushed. -/
theorem log_reads_back (utc : names.Utc) (disk : Bytes → Bytes) (rollSize : Int) {now : Int}
    (first : FourDigitReading now) {labels : List (Event × Int)}
    (readings : ∀ label ∈ labels, FourDigitReading label.2) {onDisk : OnDisk}
    (execution : (system names disk rollSize now).Execution labels onDisk)
    {listing : List Bytes} (all : listing.Perm onDisk.file_.directory.opened)
    (sorted : listing.Pairwise (· ≤ ·)) :
    let text := (listing.map onDisk.file_.directory.disk).flatten
    text ++ contents onDisk.logging.unwritten =
      (onDisk.logging.rounds.map Round.written).flatten ∧
    ((∀ round ∈ onDisk.logging.rounds, round.taken.length ≤ 25) →
      text ++ contents onDisk.logging.unwritten ++ contents onDisk.logging.undecided ++
        contents onDisk.logging.buffers_ ++ onDisk.logging.current =
          onDisk.logging.lines.flatten) ∧
    (onDisk.logging.Settled → onDisk.file_.file.Flushed) := by
  intro text
  have filed : Filed names onDisk := by
    refine execution.history
      (fun past reached => (∀ label ∈ past, FourDigitReading label.2) → Filed names reached)
      ?_ ?_ readings
    · rintro _ rfl _
      exact filed_new first
    · rintro past middle label after filed ⟨-, step⟩ readings
      have earlier := filed fun label membership =>
        readings label (List.mem_append_left _ membership)
      exact earlier.next utc (readings label (by simp)) step
  have inOrder : listing = onDisk.file_.directory.opened := by
    apply List.Perm.eq_of_pairwise _ sorted ((filed.inOrder.sorted utc).imp List.le_of_lt) all
    intro name other _ _ before after
    exact List.le_antisymm before after
  have read : text = onDisk.logging.file_ := by
    have contents := filed.contents
    unfold Directory.contents at contents
    rw [← filed.text, ← List.flatten_singleton (l := onDisk.file_.file.file_),
      ← List.flatten_append, ← contents, ← inOrder]
  obtain ⟨-, conserved⟩ := reachable_conserved (execution_logging execution)
  rw [read]
  refine ⟨conserved.file, ?_, filed.flushed⟩
  intro few
  have whole : onDisk.logging.rounds.map Round.written =
      onDisk.logging.rounds.map Round.contents := by
    apply List.map_congr_left
    intro round membership
    exact if_pos (few round membership)
  rw [conserved.file, conserved.lines, whole]

/-- Two lines are written before midnight, which rolls the file behind them, and
a third one waits. -/
theorem log_reads_back_midnight :
    let names : FileNames :=
      ⟨ascii "gdrpc", fun now => Timestamp.timeText now.toNat, some (ascii "host"), 7⟩
    let labels : List (Event × Int) := [(.append [1, 2], 86399), (.backend [], 86399),
      (.backend [], 86399), (.backend [], 86399), (.append [3, 4], 86399), (.backend [], 86399),
      (.backend [], 86399), (.append [5, 6], 86400), (.backend [], 86400), (.backend [], 86400)]
    ∃ onDisk, (system names (fun _ => [9]) 3 86399).Execution labels onDisk ∧
      onDisk.file_.directory.opened.map onDisk.file_.directory.disk = [[1, 2, 3, 4], []] ∧
      onDisk.logging.current = [5, 6] ∧
      (onDisk.file_.directory.opened.map onDisk.file_.directory.disk).flatten ++
        contents onDisk.logging.unwritten ++ contents onDisk.logging.undecided ++
        contents onDisk.logging.buffers_ ++ onDisk.logging.current =
          onDisk.logging.lines.flatten := by
  intro names labels
  have execution := System.Execution.foldl_getD (system names (fun _ => [9]) 3 86399)
    (fun _ label => label.1.Admissible) (fun _ _ _ admissible taken => ⟨admissible, taken⟩) rfl
    (show System.Allowed _ _ _ labels by decide +kernel)
  refine ⟨_, execution, by decide +kernel, by decide +kernel, ?_⟩
  have utc : names.Utc := fun seconds => rfl
  have readings : ∀ label ∈ labels, FourDigitReading label.2 := by
    intro label membership
    have reading : label.2 = 86399 ∨ label.2 = 86400 := by
      revert label
      decide
    rcases reading with reading | reading <;> rw [reading]
    · exact ⟨by decide, by decide +kernel⟩
    · exact ⟨by decide, by decide +kernel⟩
  exact (log_reads_back utc (fun _ => [9]) 3 ⟨by decide, by decide +kernel⟩ readings execution
    (List.Perm.refl _) (by decide +kernel)).2.1 (by decide +kernel)

end OnDisk

end AsyncLogging

end GdRpc.Gdlog
