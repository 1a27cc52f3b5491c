import GdRpc.Library.Calendar
import GdRpc.Library.FixedWidth
import GdRpc.Util.LogFileNames

/-!
# `Timestamp`

The two texts of a time in UTC, for times from 1970 on. They have their parts
in the order of weight and, as long as the year has four digits, of a fixed
width: so texts are in the order of the times, and so are the names of the files
that one `LogFile` opens.
-/

namespace GdRpc.Util

open GdRpc.Library

/-- `struct tm`, as `gmtime` fills it in. -/
structure Tm where
  date : Date
  hour : Nat
  min : Nat
  sec : Nat

/-- The first of January 1970. -/
def epoch : Date :=
  Date.newYear 1970

def gmtime (seconds : Nat) : Tm where
  date := epoch.afterDays (seconds / 86400)
  hour := seconds % 86400 / 3600
  min := seconds % 3600 / 60
  sec := seconds % 60

/-- `time_point_` counts nanoseconds. -/
structure Timestamp where
  time_point_ : Nat

namespace Timestamp

def get_time_t (timestamp : Timestamp) : Nat :=
  timestamp.time_point_ / 10 ^ 9

/-- `%Y%m%d` -/
def dateText (date : Date) : Bytes :=
  decimalNat date.year ++ padded 2 date.month ++ padded 2 date.day

/-- `".%Y%m%d-%H%M%S."` -/
def timeText (seconds : Nat) : Bytes :=
  let tm := gmtime seconds
  ascii "." ++ dateText tm.date ++ ascii "-" ++ padded 2 tm.hour ++ padded 2 tm.min ++
    padded 2 tm.sec ++ ascii "."

def get_time (timestamp : Timestamp) : Bytes :=
  timeText timestamp.get_time_t

/-- `"%Y%m%d %H:%M:%S"`, the microseconds with six digits, and `Z`. -/
def get_time_format_8601 (timestamp : Timestamp) : Bytes :=
  let tm := gmtime timestamp.get_time_t
  let subseconds := timestamp.time_point_ / 1000 % 1000000
  dateText tm.date ++ ascii " " ++ padded 2 tm.hour ++ ascii ":" ++ padded 2 tm.min ++
    ascii ":" ++ padded 2 tm.sec ++ ascii "." ++ padded 6 subseconds ++ ascii "Z"

end Timestamp

/-! ## Parts in the order of weight -/

/-- The parts of a time, the year first. -/
def Tm.parts (tm : Tm) : List Nat :=
  [tm.date.year, tm.date.month, tm.date.day, tm.hour, tm.min, tm.sec]

theorem parts_lt {first second : Nat} (order : first < second) (firstRest secondRest : List Nat) :
    (gmtime first).parts ++ firstRest < (gmtime second).parts ++ secondRest := by
  simp only [Tm.parts, List.cons_append, List.cons_lt_cons_iff]
  rcases Nat.lt_or_ge (first / 86400) (second / 86400) with earlier | level
  · have before : (gmtime first).date.Before (gmtime second).date :=
      epoch.before_afterDays earlier
    unfold Date.Before at before
    omega
  · have same : (gmtime first).date = (gmtime second).date := by
      rw [gmtime, gmtime, show first / 86400 = second / 86400 by omega]
    rw [same]
    refine Or.inr ⟨rfl, Or.inr ⟨rfl, Or.inr ⟨rfl, ?_⟩⟩⟩
    have clock : first % 86400 / 3600 < second % 86400 / 3600 ∨
        first % 86400 / 3600 = second % 86400 / 3600 ∧
          (first % 3600 / 60 < second % 3600 / 60 ∨
            first % 3600 / 60 = second % 3600 / 60 ∧ first % 60 < second % 60) := by
      omega
    simp only [gmtime]
    exact clock.imp_right fun hour => ⟨hour.1, hour.2.imp_right fun min => ⟨min.1, Or.inl min.2⟩⟩

theorem tm_bounds (seconds : Nat) :
    (gmtime seconds).date.month < 100 ∧ (gmtime seconds).date.day < 100 ∧
      (gmtime seconds).hour < 100 ∧ (gmtime seconds).min < 100 ∧ (gmtime seconds).sec < 100 := by
  have month := (gmtime seconds).date.month_bounds
  have day := (gmtime seconds).date.day_bounds
  have days := daysIn_bounds (gmtime seconds).date.year (gmtime seconds).date.month
  simp only [gmtime] at *
  omega

theorem year_ge (seconds : Nat) : 1970 ≤ (gmtime seconds).date.year := by
  rcases Nat.eq_zero_or_pos (seconds / 86400) with first | later
  · simp [gmtime, first, Date.afterDays, epoch, Date.newYear]
  · have before : epoch.Before (gmtime seconds).date := epoch.before_afterDays later
    unfold Date.Before at before
    simp only [epoch, Date.newYear] at before
    omega

theorem decimalNat_year {year : Nat} (least : 1000 ≤ year) (most : year < 10000) :
    decimalNat year = padded 4 year := by
  have thousands : year / 10 / 10 / 10 < 10 := by omega
  rw [decimalNat_eq, if_neg (by omega), decimalNat_eq, if_neg (by omega), decimalNat_eq,
    if_neg (by omega), decimalNat_eq, if_pos thousands]
  simp [padded, Nat.mod_eq_of_lt thousands]

/-- The year has four digits. -/
def FourDigits (seconds : Nat) : Prop :=
  (gmtime seconds).date.year < 10000

instance (seconds : Nat) : Decidable (FourDigits seconds) :=
  inferInstanceAs (Decidable (_ < _))

/-- The layout of `get_time`. -/
def timeLayout : List (Nat × Bytes) :=
  [(4, []), (2, []), (2, ascii "-"), (2, []), (2, []), (2, ascii ".")]

/-- The layout of `get_time_format_8601`. -/
def layout8601 : List (Nat × Bytes) :=
  [(4, []), (2, []), (2, ascii " "), (2, ascii ":"), (2, ascii ":"), (2, ascii "."),
    (6, ascii "Z")]

theorem fits_timeLayout {seconds : Nat} (digits : FourDigits seconds) :
    Fits timeLayout (gmtime seconds).parts := by
  obtain ⟨month, day, hour, min, sec⟩ := tm_bounds seconds
  exact .cons digits (.cons month (.cons day (.cons hour (.cons min (.cons sec .nil)))))

theorem fits_layout8601 {seconds subseconds : Nat} (digits : FourDigits seconds)
    (small : subseconds < 1000000) :
    Fits layout8601 ((gmtime seconds).parts ++ [subseconds]) := by
  obtain ⟨month, day, hour, min, sec⟩ := tm_bounds seconds
  exact .cons digits (.cons month (.cons day (.cons hour (.cons min (.cons sec
    (.cons small .nil))))))

theorem timeText_eq {seconds : Nat} (digits : FourDigits seconds) :
    Timestamp.timeText seconds = ascii "." ++ render timeLayout (gmtime seconds).parts := by
  simp only [Timestamp.timeText, Timestamp.dateText, render, timeLayout, Tm.parts,
    decimalNat_year (Nat.le_trans (by decide) (year_ge seconds)) digits, List.append_assoc,
    List.append_nil]

namespace Timestamp

theorem get_time_format_8601_eq {timestamp : Timestamp}
    (digits : FourDigits timestamp.get_time_t) :
    timestamp.get_time_format_8601 = render layout8601 ((gmtime timestamp.get_time_t).parts ++
      [timestamp.time_point_ / 1000 % 1000000]) := by
  simp only [get_time_format_8601, dateText, render, layout8601, Tm.parts, List.cons_append,
    List.nil_append, decimalNat_year (Nat.le_trans (by decide) (year_ge _)) digits,
    List.append_assoc, List.append_nil]

theorem get_time_format_8601_lt {first second : Timestamp}
    (firstDigits : FourDigits first.get_time_t) (secondDigits : FourDigits second.get_time_t)
    (order : first.time_point_ / 1000 < second.time_point_ / 1000) :
    first.get_time_format_8601 < second.get_time_format_8601 := by
  rw [get_time_format_8601_eq firstDigits, get_time_format_8601_eq secondDigits]
  apply render_lt (fits_layout8601 firstDigits (Nat.mod_lt _ (by decide)))
    (fits_layout8601 secondDigits (Nat.mod_lt _ (by decide)))
  rcases Nat.lt_or_ge first.get_time_t second.get_time_t with earlier | level
  · exact parts_lt earlier _ _
  · have same : first.get_time_t = second.get_time_t := by
      unfold get_time_t at level ⊢
      omega
    rw [same]
    apply List.append_left_lt
    rw [List.cons_lt_cons_iff]
    left
    unfold get_time_t at same
    omega

/-- The texts of two times with years of four digits are in the order of the
times, taken in microseconds. -/
theorem get_time_format_8601_lt_iff {first second : Timestamp}
    (firstDigits : FourDigits first.get_time_t) (secondDigits : FourDigits second.get_time_t) :
    first.get_time_format_8601 < second.get_time_format_8601 ↔
      first.time_point_ / 1000 < second.time_point_ / 1000 := by
  constructor
  · intro order
    by_contra notBefore
    rcases Nat.lt_or_ge (second.time_point_ / 1000) (first.time_point_ / 1000) with after | level
    · exact List.lt_asymm order (get_time_format_8601_lt secondDigits firstDigits after)
    · have micros : first.time_point_ / 1000 = second.time_point_ / 1000 := by omega
      have seconds : first.get_time_t = second.get_time_t := by
        unfold get_time_t
        omega
      have same : first.get_time_format_8601 = second.get_time_format_8601 := by
        rw [get_time_format_8601, get_time_format_8601, seconds, micros]
      rw [same] at order
      exact List.lt_irrefl _ order
  · exact get_time_format_8601_lt firstDigits secondDigits

end Timestamp

/-- Seconds within one day, a microsecond before and after midnight. -/
theorem get_time_format_8601_lt_iff_midnight :
    (Timestamp.mk 86399999999000).get_time_format_8601 <
        (Timestamp.mk 86400000000000).get_time_format_8601 ↔
      (Timestamp.mk 86399999999000).time_point_ / 1000 <
        (Timestamp.mk 86400000000000).time_point_ / 1000 :=
  Timestamp.get_time_format_8601_lt_iff (by decide +kernel) (by decide +kernel)

end GdRpc.Util

namespace GdRpc.Gdlog.AsyncLogging.LogFile

open GdRpc.Library GdRpc.Util

/-! ## The names of the log files -/

/-- The names have the text of `Timestamp::get_time` in them. -/
def FileNames.Utc (names : FileNames) : Prop :=
  ∀ seconds : Nat, names.get_time seconds = Timestamp.timeText seconds

/-- A reading of the clock in the years 1970 to 9999. -/
def FourDigitReading (reading : Int) : Prop :=
  0 ≤ reading ∧ FourDigits reading.toNat

theorem FileNames.Utc.getLogFileName_lt {names : FileNames} (utc : names.Utc)
    {first second : Int} (firstDigits : FourDigitReading first)
    (secondDigits : FourDigitReading second) (order : first < second) : names.getLogFileName first < names.getLogFileName second := by
  obtain ⟨seconds, rfl⟩ := Int.eq_ofNat_of_zero_le firstDigits.1
  obtain ⟨later, rfl⟩ := Int.eq_ofNat_of_zero_le secondDigits.1
  have digits : FourDigits seconds := firstDigits.2
  have laterDigits : FourDigits later := secondDigits.2
  have fits := fits_timeLayout digits
  have fitsLater := fits_timeLayout laterDigits
  have parts := parts_lt (Int.ofNat_lt.mp order) [] []
  simp only [List.append_nil] at parts
  unfold getLogFileName
  simp only [List.append_assoc]
  apply List.append_left_lt
  rw [utc, utc, timeText_eq digits, timeText_eq laterDigits]
  apply append_lt_append
  · rw [List.length_append, List.length_append, length_render fits fitsLater]
  · exact List.append_left_lt (render_lt fits fitsLater parts)

namespace Rolling

variable {names : FileNames} {rolling : Rolling}

/-- The files are opened at later and later readings. -/
structure InOrder (names : FileNames) (Reading : Int → Prop) (rolling : Rolling) : Prop where
  increasing : rolling.rolls.Pairwise (· < ·)
  latest : ∀ roll ∈ rolling.rolls, roll ≤ rolling.file.lastRoll_
  readings : ∀ roll ∈ rolling.rolls, Reading roll
  opened : rolling.directory.opened = rolling.rolls.map names.getLogFileName

theorem InOrder.append {Reading : Int → Prop} (inOrder : InOrder names Reading rolling)
    (logline : Bytes) {now : Int} (reading : Reading now) :
    InOrder names Reading (rolling.append names logline now) := by
  rcases append_cases logline now with
    ⟨directory, rolls, lastRoll_, -, -⟩ | ⟨later, directory, rolls, lastRoll_, -, -⟩
  · constructor
    · rw [rolls]
      exact inOrder.increasing
    · rw [rolls, lastRoll_]
      exact inOrder.latest
    · rw [rolls]
      exact inOrder.readings
    · rw [directory, rolls, Directory.write_opened]
      exact inOrder.opened
  · have before : ∀ roll ∈ rolling.rolls, roll < now :=
      fun roll earlier => Int.lt_of_le_of_lt (inOrder.latest roll earlier) later
    constructor
    · rw [rolls, List.pairwise_append]
      refine ⟨inOrder.increasing, List.pairwise_singleton _ _, ?_⟩
      intro roll earlier next isNow
      rw [List.mem_singleton.mp isNow]
      exact before roll earlier
    · rw [rolls, lastRoll_]
      intro roll membership
      rcases List.mem_append.mp membership with earlier | isNow
      · exact Int.le_of_lt (before roll earlier)
      · exact Int.le_of_eq (List.mem_singleton.mp isNow)
    · rw [rolls]
      intro roll membership
      rcases List.mem_append.mp membership with earlier | isNow
      · exact inOrder.readings roll earlier
      · rw [List.mem_singleton.mp isNow]
        exact reading
    · rw [directory, rolls, Directory.openFile, Directory.write_opened, inOrder.opened,
        List.map_append]
      rfl

theorem InOrder.calls {Reading : Int → Prop} (inOrder : InOrder names Reading rolling)
    {calls : List Call} (readings : ∀ next ∈ calls, Reading next.now) :
    InOrder names Reading (calls.foldl (call names) rolling) := by
  induction calls generalizing rolling with
  | nil => exact inOrder
  | cons next calls inductionHypothesis =>
      apply inductionHypothesis
      · exact inOrder.append next.logline (readings next List.mem_cons_self)
      · exact fun later membership => readings later (List.mem_cons_of_mem _ membership)

theorem InOrder.sorted (inOrder : InOrder names FourDigitReading rolling) (utc : names.Utc) :
    rolling.directory.opened.Pairwise (· < ·) := by
  rw [inOrder.opened, List.pairwise_map]
  refine inOrder.increasing.imp_of_mem ?_
  intro roll later membership laterMembership order
  exact utc.getLogFileName_lt (inOrder.readings roll membership)
    (inOrder.readings later laterMembership) order

theorem inOrder_new {Reading : Int → Prop} (disk : Bytes → Bytes)
    (rollSize flushInterval checkEveryN : Int) {now : Int} (reading : Reading now) :
    InOrder names Reading (new names disk rollSize flushInterval checkEveryN now) := by
  refine ⟨List.pairwise_singleton _ _, ?_, ?_, rfl⟩
  · intro roll membership
    exact Int.le_of_eq (List.mem_singleton.mp membership)
  · intro roll membership
    rw [List.mem_singleton.mp membership]
    exact reading

/-- Whatever is appended, and however the clock steps back on the way, the names
of the files that a `LogFile` opens sort in the order in which it opens them. -/
theorem names_in_order (utc : names.Utc) (disk : Bytes → Bytes)
    (rollSize flushInterval checkEveryN : Int) {now : Int} (first : FourDigitReading now)
    {calls : List Call} (readings : ∀ next ∈ calls, FourDigitReading next.now) :
    (calls.foldl (call names)
      (new names disk rollSize flushInterval checkEveryN now)).directory.opened.Pairwise
        (· < ·) :=
  ((inOrder_new disk rollSize flushInterval checkEveryN first).calls readings).sorted utc

/-- Three files in the seconds around a midnight, with a step back of the clock. -/
theorem names_in_order_midnight :
    let names : FileNames :=
      ⟨ascii "gdrpc", fun now => Timestamp.timeText now.toNat, some (ascii "host"), 7⟩
    let calls : List Call := [⟨[1, 2], by decide, 86400⟩, ⟨[3, 4], by decide, 86399⟩,
      ⟨[5, 6], by decide, 86401⟩]
    (calls.foldl (call names) (new names (fun _ => []) 1 3 1024 86399)).directory.opened.Pairwise
      (· < ·) := by
  intro names calls
  have utc : names.Utc := fun seconds => rfl
  refine names_in_order utc (fun _ => []) 1 3 1024 ⟨by decide, by decide +kernel⟩ ?_
  simp only [calls, List.mem_cons, List.not_mem_nil, or_false]
  rintro next (rfl | rfl | rfl)
  · exact ⟨by decide, by decide +kernel⟩
  · exact ⟨by decide, by decide +kernel⟩
  · exact ⟨by decide, by decide +kernel⟩

end Rolling

end GdRpc.Gdlog.AsyncLogging.LogFile
