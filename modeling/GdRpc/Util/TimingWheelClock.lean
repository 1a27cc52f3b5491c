import GdRpc.Util.TimingWheelOnce

/-!
# The wheel and the clock

`takeAllTimeout` ticks once for every millisecond since the reading before. A
clock that is set back makes it tick less than the time that passes afterwards,
by no more than that: no reading is lost, however the calls are spaced.
-/

namespace GdRpc.Util

open GdRpc.Library

universe u

/-- The last reading of the clock, if there has been any. -/
def lastReading (earlier : Int) : List Int → Int
  | [] => earlier
  | reading :: readings => lastReading reading readings

/-- By how much the clock has been set back. -/
def setBack (earlier : Int) : List Int → Int
  | [] => 0
  | reading :: readings => max 0 (earlier - reading) + setBack reading readings

theorem lastReading_concat (earlier : Int) (readings : List Int) (reading : Int) :
    lastReading earlier (readings ++ [reading]) = reading := by
  induction readings generalizing earlier with
  | nil => rfl
  | cons first readings inductionHypothesis => exact inductionHypothesis first

theorem setBack_concat (earlier : Int) (readings : List Int) (reading : Int) :
    setBack earlier (readings ++ [reading]) =
      setBack earlier readings + max 0 (lastReading earlier readings - reading) := by
  induction readings generalizing earlier with
  | nil => simp [setBack, lastReading]
  | cons first readings inductionHypothesis =>
      simp only [List.cons_append, setBack, lastReading, inductionHypothesis]
      omega

theorem setBack_nonneg (earlier : Int) (readings : List Int) : 0 ≤ setBack earlier readings := by
  induction readings generalizing earlier with
  | nil => exact Int.le_refl 0
  | cons reading readings inductionHypothesis =>
      have later := inductionHypothesis reading
      simp only [setBack]
      omega

namespace Timers

variable {Callback : Type u}

/-- The clock's reading at a call of `takeAllTimeout`. -/
def Event.reading? : Event Callback → Option Int
  | .takeAllTimeout now => some now
  | _ => none

/-- What the memory of an accepted task's `times_` holds. -/
def Event.times? : Event Callback → Option Int
  | .wheel (.addTask timeout _ times) => if timeout < 0 then none else some times
  | _ => none

/-- Only `takeAllTimeout` ticks, and it counts in an `int` as far as the time
since the reading before. -/
def Paced (timers : Timers Callback) : Event Callback → Prop
  | .takeAllTimeout now => now - timers.starttime_ < 2 ^ 31
  | .wheel .beginTick => timers.taking.isSome
  | _ => True

instance (timers : Timers Callback) (event : Event Callback) :
    Decidable (timers.Paced event) := by
  unfold Paced
  split <;> infer_instance

def pacedSystem (msLen : Nat) (now : Int) : System (Timers Callback) (Event Callback) where
  initial timers := timers = new msLen now
  step timers event after :=
    (timers.Enabled event ∧ timers.Paced event) ∧ after = timers.next event

/-- A call of `takeAllTimeout` makes up for the time since the reading before,
the last of `earlier`. -/
structure Making (now : Int) (earlier : List Int) (timers : Timers Callback)
    (taking : TakeAllTimeout) : Prop where
  starttime_ : timers.starttime_ = lastReading now earlier
  cnt : taking.cnt = taking.now - timers.starttime_
  small : taking.cnt < 2 ^ 31
  nonneg : 0 ≤ taking.i
  bound : taking.i ≤ max 0 taking.cnt
  busy : timers.run.phase ≠ .idle → taking.i < taking.cnt
  ticks : timers.run.ticks = timers.starttime_ - now + setBack now earlier + taking.i

/-- What the wheel has ticked when the clock has had these readings. -/
structure Clocked (now : Int) (readings : List Int) (timers : Timers Callback) : Prop where
  idle : timers.taking = none → timers.run.phase = .idle ∧
    timers.starttime_ = lastReading now readings ∧
    timers.run.ticks = timers.starttime_ - now + setBack now readings
  taking : ∀ taking, timers.taking = some taking →
    ∃ earlier, readings = earlier ++ [taking.now] ∧ timers.Making now earlier taking

/-- The wheel's own steps, all but the two ends of a tick. -/
def Within : WheelRun.Event Callback → Prop
  | .beginTick | .endTick => False
  | _ => True

theorem ticks_within (run : WheelRun Callback) {event : WheelRun.Event Callback}
    (within : Within event) : (run.next event).ticks = run.ticks := by
  cases event with
  | addTask timeout callback times =>
      simp only [WheelRun.next, WheelRun.addTask]
      split <;> rfl
  | delTask task => rfl
  | visit =>
      simp only [WheelRun.next]
      split
      next it _ =>
        unfold WheelRun.visit
        dsimp only
        repeat' split
        all_goals rfl
      next => rfl
  | finish =>
      simp only [WheelRun.next]
      split <;> rfl
  | beginTick | endTick => exact absurd within id

theorem phase_within {run : WheelRun Callback} {event : WheelRun.Event Callback}
    (within : Within event) (idle : run.phase = .idle) : (run.next event).phase = .idle := by
  cases event with
  | addTask timeout callback times =>
      simp only [WheelRun.next, WheelRun.addTask]
      split <;> exact idle
  | delTask task => exact idle
  | visit | finish => simp [WheelRun.next, idle]
  | beginTick | endTick => exact absurd within id

variable {now : Int} {readings : List Int} {timers : Timers Callback}

theorem Clocked.beginTick (clocked : timers.Clocked now readings)
    (enabled : timers.Enabled (.wheel .beginTick)) (paced : timers.Paced (.wheel .beginTick)) :
    (timers.next (.wheel .beginTick)).Clocked now readings := by
  have resting : timers.run.phase = .idle := enabled.1
  refine ⟨?_, ?_⟩
  · intro none
    have some : timers.taking.isSome := paced
    rw [show timers.taking = .none from none] at some
    cases some
  · intro taking here
    have before : timers.taking = some taking := here
    obtain ⟨earlier, split, making⟩ := clocked.taking taking before
    have permits := enabled.2
    rw [before, resting] at permits
    exact ⟨earlier, split, making.starttime_, making.cnt, making.small, making.nonneg,
      making.bound, fun _ => permits, making.ticks⟩

theorem Clocked.endTick (clocked : timers.Clocked now readings)
    (enabled : timers.Enabled (.wheel .endTick)) :
    (timers.next (.wheel .endTick)).Clocked now readings := by
  obtain ⟨it, phase, -⟩ := enabled.1.exists
  have busy : timers.run.phase ≠ .idle := by simp [phase]
  cases before : timers.taking with
  | none => exact absurd (clocked.idle before).1 busy
  | some taking =>
      obtain ⟨earlier, split, making⟩ := clocked.taking taking before
      have below := making.busy busy
      have nonneg := making.nonneg
      have small := making.small
      have next : (timers.next (.wheel .endTick)).taking =
          some { taking with i := toInt (taking.i + 1) } := by
        simp [Timers.next, before]
      refine ⟨fun none => ?_, ?_⟩
      · rw [next] at none
        cases none
      · intro after here
        rw [next, Option.some.injEq, toInt_of_lt (by omega) (by omega)] at here
        subst here
        have ticks := making.ticks
        have bound := making.bound
        refine ⟨earlier, split, making.starttime_, making.cnt, making.small, ?_, ?_,
          fun busy => absurd rfl busy, ?_⟩
        · change 0 ≤ taking.i + 1
          omega
        · change taking.i + 1 ≤ max 0 taking.cnt
          omega
        · change ((timers.run.ticks + 1 : Nat) : Int) =
            timers.starttime_ - now + setBack now earlier + (taking.i + 1)
          omega

theorem Clocked.within (clocked : timers.Clocked now readings) {event : WheelRun.Event Callback}
    (inner : Within event) : (timers.next (.wheel event)).Clocked now readings := by
  have ticks := ticks_within timers.run inner
  have taking : (timers.next (.wheel event)).taking = timers.taking := by
    cases event with
    | endTick => exact absurd inner id
    | _ => rfl
  refine ⟨?_, ?_⟩
  · intro none
    rw [taking] at none
    obtain ⟨phase, start, ticked⟩ := clocked.idle none
    refine ⟨phase_within inner phase, start, ?_⟩
    change ((timers.run.next event).ticks : Int) = _
    rw [ticks]
    exact ticked
  · intro call here
    rw [taking] at here
    obtain ⟨earlier, split, making⟩ := clocked.taking call here
    refine ⟨earlier, split, making.starttime_, making.cnt, making.small, making.nonneg,
      making.bound, ?_, ?_⟩
    · exact fun busy => making.busy (mt (phase_within inner) busy)
    · change ((timers.run.next event).ticks : Int) = _
      rw [ticks]
      exact making.ticks

/-- The step lemma. -/
theorem Clocked.next (clocked : timers.Clocked now readings) {event : Event Callback}
    (enabled : timers.Enabled event) (paced : timers.Paced event) :
    (timers.next event).Clocked now (readings ++ event.reading?.toList) := by
  cases event with
  | wheel event =>
      have none : (Event.wheel event).reading? = .none := rfl
      rw [none, Option.toList_none, List.append_nil]
      cases event with
      | beginTick => exact clocked.beginTick enabled paced
      | endTick => exact clocked.endTick enabled
      | addTask | delTask | visit | finish => exact clocked.within trivial
  | takeAllTimeout reading =>
      obtain ⟨idle, resting⟩ := enabled
      obtain ⟨-, start, ticks⟩ := clocked.idle idle
      refine ⟨fun ended => absurd ended (by simp [Timers.next]), ?_⟩
      intro taking here
      obtain rfl := Option.some.inj here
      refine ⟨readings, rfl, start, rfl, paced, Int.le_refl 0, Int.le_max_left _ _, ?_, ?_⟩
      · exact fun busy => absurd resting busy
      · rw [Int.add_zero]
        exact ticks
  | endTakeAllTimeout =>
      obtain ⟨resting, taking, here, done⟩ := enabled
      obtain ⟨earlier, rfl, making⟩ := clocked.taking taking here
      have last := making.bound
      have nonneg := making.nonneg
      have cnt := making.cnt
      have ticks := making.ticks
      have start := making.starttime_
      have ends : timers.next .endTakeAllTimeout =
          { timers with starttime_ := taking.now, taking := none } := by
        simp [Timers.next, Option.mem_def.mp here]
      rw [ends]
      refine ⟨fun _ => ⟨resting, ?_, ?_⟩, fun taking begun => absurd begun (by simp)⟩
      · change taking.now = _
        simp [Event.reading?, lastReading_concat]
      · change (timers.run.ticks : Int) = taking.now - now + _
        simp only [Event.reading?, Option.toList_none, List.append_nil, setBack_concat]
        omega

theorem length_accepted (timers : Timers Callback) (event : Event Callback) :
    (timers.next event).accepted.length =
      timers.accepted.length + event.times?.toList.length := by
  cases event with
  | wheel event =>
      cases event with
      | addTask timeout callback times =>
          by_cases negative : timeout < 0 <;>
            simp [Timers.next, record, Event.times?, negative]
      | delTask task => simp [Timers.next, record, Event.times?]
      | visit =>
          simp only [Timers.next, record, Event.times?]
          split <;> simp
      | beginTick | finish | endTick => rfl
  | takeAllTimeout reading => rfl
  | endTakeAllTimeout =>
      simp only [Timers.next, Event.times?]
      split <;> rfl

/-- The tasks of the run as far as the chosen ones ask for no repetition. -/
def Remembers (memory : List Int) (timers : Timers Callback) : Prop :=
  timers.accepted.length = memory.length ∧
    ∀ Chosen : Nat → Prop,
      (∀ task times, memory[task]? = some times → Chosen task → ¬ (1 < times ∨ times = -1)) →
      Ledger Chosen timers.run timers.accepted

theorem Remembers.next {memory : List Int} (remembers : timers.Remembers memory)
    {event : Event Callback} (enabled : timers.Enabled event) :
    (timers.next event).Remembers (memory ++ event.times?.toList) := by
  obtain ⟨length, ledger⟩ := remembers
  constructor
  · rw [length_accepted, length, List.length_append]
  · intro Chosen single
    have before := ledger Chosen fun task times recalled =>
      single task times (by
        rw [List.getElem?_append_left (List.getElem?_eq_some_iff.mp recalled).1]
        exact recalled)
    apply before.timers enabled
    intro chosen
    cases event with
    | wheel event =>
        cases event with
        | addTask timeout callback times =>
            intro nonneg
            apply single timers.accepted.length times _ chosen
            simp [Event.times?, Int.not_lt.mpr nonneg, length]
        | delTask | beginTick | visit | finish | endTick => trivial
    | takeAllTimeout | endTakeAllTimeout => trivial

/-- As long as only `takeAllTimeout` ticks, at intervals below `2 ^ 31` ms, the
wheel has ticked once for each millisecond since it was made by the time of the
last reading, and once more for each that the clock has been set back; and a task
whose memory asks for no repetition has been executed by the end of the call with
which its timeout and one tick more are over, if it has not been deleted. -/
theorem wheel_keeps_time {msLen : Nat} (positive : 0 < msLen) {now : Int}
    {labels : List (Event Callback)} {finish : Timers Callback}
    (execution : (pacedSystem msLen now).Execution labels finish) (idle : finish.taking = none) :
    let readings := labels.filterMap Event.reading?
    let memory := labels.filterMap Event.times?
    finish.run.ticks = lastReading now readings - now + setBack now readings ∧
      finish.accepted.length = memory.length ∧
      ∀ (task : Nat) (accepted : Accepted) (times : Int),
        finish.accepted[task]? = some accepted →
        memory[task]? = some times → ¬ (1 < times ∨ times = -1) →
        accepted.added + accepted.timeout + 1 ≤ lastReading now readings - now →
        accepted.deleted = false → accepted.executions = 1 := by
  intro readings memory
  have invariant := execution.history
    (fun past timers => timers.Clocked now (past.filterMap Event.reading?) ∧
      timers.Remembers (past.filterMap Event.times?)) ?_ ?_
  · obtain ⟨clocked, length, ledger⟩ := invariant
    obtain ⟨-, start, ticked⟩ := clocked.idle idle
    have ticks : (finish.run.ticks : Int) =
        lastReading now readings - now + setBack now readings := by
      rw [ticked, start]
    refine ⟨ticks, length, ?_⟩
    intro task accepted times recorded recalled single due kept
    have own := ledger (· = task) (by
      rintro other found isOther rfl
      obtain rfl : found = times := Option.some.inj (isOther.symm.trans recalled)
      exact single)
    have ahead : 0 ≤ setBack now readings := setBack_nonneg now readings
    exact (own.once rfl recorded).elapsed (by omega) kept
  · rintro _ rfl
    refine ⟨⟨fun _ => ⟨rfl, rfl, ?_⟩, nofun⟩, rfl, fun _ _ => Ledger.start _ msLen positive⟩
    change ((0 : Nat) : Int) = now - now + 0
    omega
  · rintro past timers event _ ⟨clocked, remembers⟩ ⟨⟨enabled, paced⟩, rfl⟩
    have clockedNext := clocked.next enabled paced
    have remembersNext := remembers.next enabled
    rw [List.filterMap_append, List.filterMap_append, List.filterMap_cons, List.filterMap_cons,
      List.filterMap_nil, List.filterMap_nil]
    constructor
    · cases reading : event.reading? with
      | none => simpa [reading] using clockedNext
      | some value => simpa [reading] using clockedNext
    · cases times : event.times? with
      | none => simpa [times] using remembersNext
      | some value => simpa [times] using remembersNext

/-- A task that repeats without end and one that does not. The clock is set back by
two between the first call and the second, and the wheel has ticked four times when
it reads 2. -/
theorem wheel_keeps_time_setBack :
    let tick : List (Event Nat) := [.wheel .beginTick, .wheel .endTick]
    let visit : List (Event Nat) :=
      [.wheel .beginTick, .wheel .visit, .wheel .finish, .wheel .endTick]
    let events : List (Event Nat) :=
      [.wheel (.addTask 2 11 (-1)), .wheel (.addTask 1 10 0), .takeAllTimeout 3] ++
      tick ++ visit ++ visit ++
      [.endTakeAllTimeout, .takeAllTimeout 1, .endTakeAllTimeout, .takeAllTimeout 2] ++
      tick ++ [.endTakeAllTimeout]
    let finish := events.foldl next (new 5 0)
    let readings := events.filterMap Event.reading?
    let memory := events.filterMap Event.times?
    finish.run.ticks = lastReading 0 readings - 0 + setBack 0 readings ∧
      finish.accepted.length = memory.length ∧
      ∀ (task : Nat) (accepted : Accepted) (times : Int),
        finish.accepted[task]? = some accepted →
        memory[task]? = some times → ¬ (1 < times ∨ times = -1) →
        accepted.added + accepted.timeout + 1 ≤ lastReading 0 readings - 0 →
        accepted.deleted = false → accepted.executions = 1 := by
  intro tick visit events finish
  have execution : (pacedSystem 5 0).Execution events finish :=
    System.Execution.foldl (pacedSystem 5 0)
      (fun timers event => timers.Enabled event ∧ timers.Paced event)
      (fun _ _ both => ⟨both, rfl⟩) rfl (by decide +kernel)
  exact wheel_keeps_time (by decide) execution (by decide +kernel)

end Timers

end GdRpc.Util
