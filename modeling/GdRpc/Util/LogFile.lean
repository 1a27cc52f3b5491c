import GdRpc.Library.Bytes
import GdRpc.Library.Transition

/-!
# `AsyncLogging::LogFile`

A file is rolled when it has grown beyond `rollSize_`, unless the clock still
shows the second of the last roll. `cur_len_` starts again either way.
-/

namespace GdRpc.Gdlog.AsyncLogging

open GdRpc.Library

/-- `file_` is what has been written since the file was opened, of which
`flushed` bytes have been flushed; `closed`, for the record only, is what went
into the earlier files. -/
structure LogFile where
  rollSize_ : Int
  flushInterval_ : Int
  checkEveryN_ : Int
  count_ : Int
  lastRoll_ : Int
  lastFlush_ : Int
  file_ : Bytes
  flushed : Nat
  cur_len_ : Int
  closed : List Bytes
  deriving DecidableEq, Repr

namespace LogFile

/-- `now` is the time at which the file is named. -/
def new (rollSize flushInterval checkEveryN now : Int) : LogFile where
  rollSize_ := rollSize
  flushInterval_ := flushInterval
  checkEveryN_ := checkEveryN
  count_ := 0
  lastRoll_ := now
  lastFlush_ := now
  file_ := []
  flushed := 0
  cur_len_ := 0
  closed := []

def flush (file : LogFile) : LogFile :=
  { file with flushed := file.file_.length }

/-- Whether there is a new file now, and the state. -/
def rollFile (file : LogFile) (now : Int) : Bool × LogFile :=
  if file.lastRoll_ < now then
    (true, { file with
      lastRoll_ := now
      lastFlush_ := now
      closed := file.closed ++ [file.file_]
      file_ := []
      flushed := 0 })
  else
    (false, file)

/-- The clock is read once, by `rollFile` or for `lastFlush_`, or not at all. -/
def append (file : LogFile) (logline : Bytes) (now : Int) : LogFile :=
  let file := { file with
    file_ := file.file_ ++ logline
    cur_len_ := toInt (file.cur_len_ + logline.length) }
  if file.rollSize_ < file.cur_len_ then
    { (file.rollFile now).2 with cur_len_ := 0 }
  else if file.checkEveryN_ ≤ file.count_ + 1 then
    let file := { file with count_ := 0 }
    if file.flushInterval_ < now - file.lastFlush_ then
      flush { file with lastFlush_ := now }
    else
      file
  else
    { file with count_ := file.count_ + 1 }

/-- A call of `append` and the time its clock reading shows. -/
structure Call where
  logline : Bytes
  len : logline.length < 2 ^ 31
  now : Int
  deriving DecidableEq, Repr

def call (file : LogFile) (call : Call) : LogFile :=
  file.append call.logline call.now

/-- Nothing is lost or written twice, whichever file it goes to. -/
theorem call_files (file : LogFile) (next : Call) :
    (file.call next).closed.flatten ++ (file.call next).file_ =
      file.closed.flatten ++ file.file_ ++ next.logline := by
  unfold call append rollFile flush
  dsimp only
  split_ifs <;> simp

theorem files_of_calls (file : LogFile) (calls : List Call) :
    (calls.foldl call file).closed.flatten ++ (calls.foldl call file).file_ =
      file.closed.flatten ++ file.file_ ++ calls.flatMap Call.logline := by
  induction calls generalizing file with
  | nil => simp
  | cons next calls inductionHypothesis =>
      rw [List.foldl_cons, inductionHypothesis, call_files, List.append_assoc, List.flatMap_cons]

/-- `cur_len_` is the length of the open file. -/
def Measured (file : LogFile) : Prop :=
  file.cur_len_ = file.file_.length

instance : DecidablePred Measured := fun file =>
  inferInstanceAs (Decidable (file.cur_len_ = _))

/-- A file that has to be rolled can be, or is still empty; one that has not is
not too long for an `int`. -/
def Admits (file : LogFile) (next : Call) : Prop :=
  let length : Int := (file.file_ ++ next.logline).length
  if file.rollSize_ < toInt length then file.lastRoll_ < next.now ∨ length = 0
  else length < 2 ^ 31

instance (file : LogFile) (next : Call) : Decidable (file.Admits next) := by
  unfold Admits
  infer_instance

theorem call_measured_iff (file : LogFile) (next : Call) (measured : file.Measured) :
    (file.call next).Measured ↔ file.Admits next := by
  have sum : file.cur_len_ + next.logline.length = ((file.file_ ++ next.logline).length : Int) := by
    rw [measured, List.length_append, Int.natCast_add]
  unfold Admits call append
  simp only [sum]
  by_cases full : file.rollSize_ < toInt (file.file_ ++ next.logline).length
  · simp only [if_pos full]
    unfold rollFile
    by_cases later : file.lastRoll_ < next.now
    · simp [Measured, later]
    · simp only [Measured, later, false_or]
      exact eq_comm
  · simp only [if_neg full]
    rw [← toInt_eq_self_iff (Int.natCast_nonneg _)]
    unfold flush
    split_ifs <;> simp only [Measured]

/-- In every state on the way `cur_len_` is the length of the open file, exactly
if every call comes to a file that admits it. -/
theorem cur_len_measures_iff (rollSize flushInterval checkEveryN now : Int)
    (calls : List Call) :
    (∀ past, past <+: calls →
        (past.foldl call (new rollSize flushInterval checkEveryN now)).cur_len_ =
          (past.foldl call (new rollSize flushInterval checkEveryN now)).file_.length) ↔
      System.Allowed Admits call (new rollSize flushInterval checkEveryN now) calls :=
  System.forall_prefix_iff_allowed Measured Admits call
    (new rollSize flushInterval checkEveryN now) calls rfl
    fun past next _ => call_measured_iff (past.foldl call _) next

/-- The roll is refused, and the next bytes come behind those that are no longer
counted. -/
theorem cur_len_forgets :
    ¬ ∀ past, past <+: [(⟨[97, 98], by decide, 0⟩ : Call)] →
      (past.foldl call (new 1 3 1024 0)).cur_len_ =
        (past.foldl call (new 1 3 1024 0)).file_.length := by
  intro measures
  exact absurd (measures [⟨[97, 98], by decide, 0⟩] (List.prefix_refl _)) (by decide)

end LogFile

end GdRpc.Gdlog.AsyncLogging
