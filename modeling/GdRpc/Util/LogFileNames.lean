import GdRpc.Library.Decimal
import GdRpc.Library.Directory
import GdRpc.Util.LogFile

/-!
# The files of one `LogFile`

A name tells the second in which its file was opened, and opening a file that
exists truncates it. A roll takes the name and `lastRoll_` from one reading of
the clock, which has to show a later second than the last, whatever it has
shown between.
-/

namespace GdRpc.Gdlog.AsyncLogging.LogFile

open GdRpc.Library

/-- What a process makes the names of: `get_time` is the second it is given, in
UTC, and `gethostname` nothing when the call fails. -/
structure FileNames where
  basename_ : Bytes
  get_time : Int → Bytes
  gethostname : Option Bytes
  getpid : Int

def FileNames.getLogFileName (names : FileNames) (now : Int) : Bytes :=
  names.basename_ ++ names.get_time now ++
    (names.gethostname.getD (ascii "unknownhost")).take 255 ++
    (ascii "." ++ decimal names.getpid) ++ ascii ".log"

/-- A `LogFile` and the files it opens; `rolls`, for the record only, are the
readings of the clock at which it opened them. -/
structure Rolling where
  file : LogFile
  directory : Directory Bytes UInt8
  rolls : List Int

namespace Rolling

/-- The constructor, with what the disk holds before. -/
def new (names : FileNames) (disk : Bytes → Bytes)
    (rollSize flushInterval checkEveryN now : Int) : Rolling where
  file := LogFile.new rollSize flushInterval checkEveryN now
  directory := (Directory.mk disk []).openFile (names.getLogFileName now)
  rolls := [now]

def rollFile (rolling : Rolling) (names : FileNames) (now : Int) : Bool × Rolling :=
  match rolling.file.rollFile now with
  | (true, file) =>
      (true, { rolling with
        file := file
        directory := rolling.directory.openFile (names.getLogFileName now)
        rolls := rolling.rolls ++ [now] })
  | (false, file) => (false, { rolling with file := file })

def append (rolling : Rolling) (names : FileNames) (logline : Bytes) (now : Int) : Rolling :=
  let file := { rolling.file with
    file_ := rolling.file.file_ ++ logline
    cur_len_ := toInt (rolling.file.cur_len_ + logline.length) }
  let rolling := { rolling with file := file, directory := rolling.directory.write logline }
  if file.rollSize_ < file.cur_len_ then
    let rolled := (rolling.rollFile names now).2
    { rolled with file := { rolled.file with cur_len_ := 0 } }
  else if file.checkEveryN_ ≤ file.count_ + 1 then
    let file := { file with count_ := 0 }
    if file.flushInterval_ < now - file.lastFlush_ then
      { rolling with file := flush { file with lastFlush_ := now } }
    else
      { rolling with file := file }
  else
    { rolling with file := { file with count_ := file.count_ + 1 } }

def call (names : FileNames) (rolling : Rolling) (call : Call) : Rolling :=
  rolling.append names call.logline call.now

variable {names : FileNames} {rolling : Rolling}

theorem append_file (logline : Bytes) (now : Int) :
    (rolling.append names logline now).file = rolling.file.append logline now := by
  unfold append LogFile.append rollFile LogFile.rollFile
  dsimp only
  split_ifs <;> rfl

theorem calls_file (calls : List Call) :
    (calls.foldl (call names) rolling).file = calls.foldl LogFile.call rolling.file := by
  induction calls generalizing rolling with
  | nil => rfl
  | cons next calls inductionHypothesis =>
      rw [List.foldl_cons, List.foldl_cons, inductionHypothesis, call, append_file]
      rfl

theorem append_cases (logline : Bytes) (now : Int) :
    let after := rolling.append names logline now
    after.directory = rolling.directory.write logline ∧
      after.rolls = rolling.rolls ∧
      after.file.lastRoll_ = rolling.file.lastRoll_ ∧
      after.file.closed = rolling.file.closed ∧
      after.file.file_ = rolling.file.file_ ++ logline ∨
    rolling.file.lastRoll_ < now ∧
      after.directory =
        (rolling.directory.write logline).openFile (names.getLogFileName now) ∧
      after.rolls = rolling.rolls ++ [now] ∧
      after.file.lastRoll_ = now ∧
      after.file.closed = rolling.file.closed ++ [rolling.file.file_ ++ logline] ∧
      after.file.file_ = [] := by
  by_cases later : rolling.file.lastRoll_ < now
  all_goals
    unfold append rollFile LogFile.rollFile flush
    simp only [later, if_true, if_false]
    split_ifs <;> simp

theorem getLogFileName_injective (injective : Function.Injective names.get_time) :
    Function.Injective names.getLogFileName := by
  intro first second same
  unfold FileNames.getLogFileName at same
  simp only [List.append_assoc] at same
  exact injective (List.append_cancel_right (List.append_cancel_left same))

/-- The rolls come later and later, each with a file of its own, and the files
hold what the `LogFile` has written into them. -/
structure Kept (names : FileNames) (rolling : Rolling) : Prop where
  increasing : rolling.rolls.Pairwise (· < ·)
  last : rolling.rolls.getLast? = some rolling.file.lastRoll_
  latest : ∀ roll ∈ rolling.rolls, roll ≤ rolling.file.lastRoll_
  opened : rolling.directory.opened = rolling.rolls.map names.getLogFileName
  contents : rolling.directory.contents = rolling.file.closed ++ [rolling.file.file_]

theorem kept_new (names : FileNames) (disk : Bytes → Bytes)
    (rollSize flushInterval checkEveryN now : Int) :
    Kept names (new names disk rollSize flushInterval checkEveryN now) := by
  refine ⟨List.pairwise_singleton _ _, rfl, ?_, rfl, ?_⟩
  · intro roll membership
    exact Int.le_of_eq (List.mem_singleton.mp membership)
  · exact Directory.contents_openFile List.not_mem_nil

namespace Kept

theorem distinct (kept : Kept names rolling)
    (injective : Function.Injective names.get_time) :
    rolling.directory.opened.Nodup := by
  rw [kept.opened]
  apply List.Nodup.map (getLogFileName_injective injective)
  exact kept.increasing.imp Int.ne_of_lt

theorem fresh (kept : Kept names rolling) (injective : Function.Injective names.get_time)
    {now : Int} (later : rolling.file.lastRoll_ < now) :
    names.getLogFileName now ∉ rolling.directory.opened := by
  rw [kept.opened]
  intro membership
  obtain ⟨roll, earlier, same⟩ := List.mem_map.mp membership
  obtain rfl := getLogFileName_injective injective same
  exact Int.not_lt.mpr (kept.latest roll earlier) later

theorem append (kept : Kept names rolling) (injective : Function.Injective names.get_time)
    (logline : Bytes) (now : Int) : Kept names (rolling.append names logline now) := by
  have written : (rolling.directory.write logline).contents =
      rolling.file.closed ++ [rolling.file.file_ ++ logline] :=
    Directory.contents_write (kept.distinct injective) kept.contents logline
  rcases append_cases logline now with
    ⟨directory, rolls, lastRoll_, closed, file_⟩ |
    ⟨later, directory, rolls, lastRoll_, closed, file_⟩
  · constructor
    · rw [rolls]
      exact kept.increasing
    · rw [rolls, lastRoll_]
      exact kept.last
    · rw [rolls, lastRoll_]
      exact kept.latest
    · rw [directory, rolls, Directory.write_opened]
      exact kept.opened
    · rw [directory, closed, file_]
      exact written
  · constructor
    · rw [rolls, List.pairwise_append]
      refine ⟨kept.increasing, List.pairwise_singleton _ _, ?_⟩
      intro roll earlier next isNow
      rw [List.mem_singleton.mp isNow]
      exact Int.lt_of_le_of_lt (kept.latest roll earlier) later
    · rw [rolls, lastRoll_, List.getLast?_concat]
    · rw [rolls, lastRoll_]
      intro roll membership
      rcases List.mem_append.mp membership with earlier | isNow
      · exact Int.le_of_lt (Int.lt_of_le_of_lt (kept.latest roll earlier) later)
      · exact Int.le_of_eq (List.mem_singleton.mp isNow)
    · rw [directory, rolls, Directory.openFile, Directory.write_opened, kept.opened,
        List.map_append]
      rfl
    · have fresh := kept.fresh injective later
      rw [← Directory.write_opened logline] at fresh
      rw [directory, Directory.contents_openFile fresh, written, closed, file_]

theorem calls (kept : Kept names rolling) (injective : Function.Injective names.get_time)
    (calls : List Call) : Kept names (calls.foldl (call names) rolling) := by
  induction calls generalizing rolling with
  | nil => exact kept
  | cons next calls inductionHypothesis =>
      exact inductionHypothesis (kept.append injective next.logline next.now)

end Kept

/-- Whatever the clock shows, each roll leaves `lastRoll_` later than those
before it, no file is opened twice, and together the files hold all that has
been appended. -/
theorem rolling_truncates_nothing (names : FileNames)
    (injective : Function.Injective names.get_time) (disk : Bytes → Bytes)
    (rollSize flushInterval checkEveryN now : Int) (calls : List Call) :
    let rolling :=
      calls.foldl (call names) (new names disk rollSize flushInterval checkEveryN now)
    rolling.rolls.Pairwise (· < ·) ∧
    rolling.rolls.getLast? = some rolling.file.lastRoll_ ∧
    rolling.directory.opened = rolling.rolls.map names.getLogFileName ∧
    rolling.directory.opened.Nodup ∧
    (rolling.directory.opened.map rolling.directory.disk).flatten =
      calls.flatMap Call.logline := by
  intro rolling
  have kept : Kept names rolling := (kept_new names disk _ _ _ _).calls injective calls
  refine ⟨kept.increasing, kept.last, kept.opened, kept.distinct injective, ?_⟩
  have contents := kept.contents
  unfold Directory.contents at contents
  rw [contents, List.flatten_append, List.flatten_singleton, calls_file, files_of_calls]
  rfl

/-- The names of one process, right for the first ten seconds of 1970. -/
def sampleNames : FileNames where
  basename_ := ascii "gdrpc"
  get_time now := ascii ".19700101-00000" ++ decimal now ++ ascii "."
  gethostname := none
  getpid := 7

/-- The clock steps back to the second of the first file, and the call that
comes then does not roll. -/
theorem rolling_truncates_nothing_step_back :
    let calls : List Call := [⟨[1, 2], by decide, 1⟩, ⟨[3, 4], by decide, 0⟩,
      ⟨[5, 6], by decide, 2⟩]
    let rolling := calls.foldl (call sampleNames) (new sampleNames (fun _ => [9]) 1 3 1024 0)
    rolling.rolls = [0, 1, 2] ∧ rolling.directory.opened.Nodup ∧
      rolling.directory.opened.map rolling.directory.disk = [[1, 2], [3, 4, 5, 6], []] ∧
      (rolling.directory.opened.map rolling.directory.disk).flatten = [1, 2, 3, 4, 5, 6] := by
  intro calls rolling
  have injective : Function.Injective sampleNames.get_time := by
    intro first second same
    exact decimal_injective (List.append_cancel_left (List.append_cancel_right same))
  obtain ⟨_, _, _, distinct, whole⟩ :=
    rolling_truncates_nothing sampleNames injective (fun _ => [9]) 1 3 1024 0 calls
  exact ⟨by decide, distinct, by decide +kernel, whole⟩

end Rolling

end GdRpc.Gdlog.AsyncLogging.LogFile
