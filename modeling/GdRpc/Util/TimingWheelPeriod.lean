import GdRpc.Library.Paired
import GdRpc.Util.TimingWheelRepeat

/-!
# Repeating timers keep their period

From its first execution on a repeating task is owed its next one a timeout
after the last: what the slot says about the next visit and the rotations left
add up to exactly that tick, also when the task has gone to the end of the
slot in which it was just executed.
-/

namespace GdRpc.Util

open GdRpc.Library

universe u

/-- What has become of a task since `addTask` accepted it: `times_` is what was
in the member then, and `executed` are the ticks in which it was executed. -/
structure Served where
  timeout_ : Int
  times_ : Int
  executed : List Nat
  deleted : Bool
  deriving DecidableEq, Repr

namespace Served

def remove (served : Served) : Served :=
  { served with deleted := true }

def exec (tick : Nat) (served : Served) : Served :=
  { served with executed := served.executed ++ [tick] }

def period (served : Served) : Nat :=
  served.timeout_.toNat

/-- The first `count` ticks of those that lie a period apart. -/
def every (served : Served) (first count : Nat) : List Nat :=
  (List.range count).map fun i => first + i * served.period

/-- The task has not been deleted and is to be executed `times_` times, without
end for -1. -/
structure Repeating (served : Served) : Prop where
  kept : served.deleted = false
  timeout_ : 1 ≤ served.timeout_
  times_ : 1 ≤ served.times_ ∨ served.times_ = -1

/-- Once in each of the ticks `first`, `first + period` and so on, as many as
`times_` says, and in no other tick. -/
structure Punctual (served : Served) (first ticks : Nat) : Prop where
  spaced : served.executed = served.every first served.executed.length
  atMost : served.times_ = -1 ∨ served.executed.length ≤ served.times_
  complete : ∀ i : Nat, served.times_ = -1 ∨ i < served.times_ →
    first + i * served.period < ticks → i < served.executed.length

/-- What is left in `times_` when the task has been scheduled again `count`
times. -/
def Left (served : Served) (times_ : Int) (count : Nat) : Prop :=
  served.times_ = -1 ∧ times_ = -1 ∨ times_ = served.times_ - count ∧ 1 ≤ times_

theorem every_succ (served : Served) (first count : Nat) :
    served.every first (count + 1) =
      served.every first count ++ [first + count * served.period] := by
  unfold every
  rw [List.range_succ, List.map_append]
  rfl

theorem Left.zero {served : Served} (repeating : served.Repeating) :
    served.Left served.times_ 0 := by
  rcases repeating.times_ with positive | endless
  · exact .inr ⟨(Int.sub_zero _).symm, positive⟩
  · exact .inl ⟨endless, endless⟩

theorem Left.again {Callback : Type u} {served : Served} {content : Task Callback}
    {count : Nat} (left : served.Left content.times_ count) (repeats : content.Repeats)
    (slotLen : Nat) : served.Left (content.again slotLen).times_ (count + 1) := by
  unfold Task.again
  dsimp only
  rcases left with ⟨endless, unchanged⟩ | ⟨counted, positive⟩
  · rw [if_neg (by omega)]
    exact .inl ⟨endless, unchanged⟩
  · have more : 1 < content.times_ := by
      rcases repeats with more | endless
      · exact more
      · omega
    rw [if_pos more]
    right
    omega

theorem Left.last {Callback : Type u} {served : Served} {content : Task Callback}
    {count : Nat} (left : served.Left content.times_ count) (single : ¬ content.Repeats) :
    served.times_ = (count + 1 : Nat) := by
  unfold Task.Repeats at single
  rcases left with ⟨endless, unchanged⟩ | ⟨counted, positive⟩
  · exact absurd (Or.inr unchanged) single
  · omega

end Served

variable {Callback : Type u}

/-- A wheel and what has become of its tasks. -/
structure ServedWheel (Callback : Type u) where
  run : WheelRun Callback
  served : List Served
  deriving DecidableEq, Repr

namespace ServedWheel

/-- What an event does to the tasks accepted so far. -/
def record (run : WheelRun Callback) (served : List Served) :
    WheelRun.Event Callback → List Served
  | .addTask timeout _ times =>
      if timeout < 0 then
        served
      else
        served ++ [{
          timeout_ := toInt timeout
          times_ := times
          executed := []
          deleted := false }]
  | .delTask task => served.modify task Served.remove
  | .visit =>
      match (run.next .visit).phase with
      | .running _ task => served.modify task (Served.exec run.ticks)
      | _ => served
  | .beginTick | .finish | .endTick => served

def next (wheel : ServedWheel Callback) (event : WheelRun.Event Callback) :
    ServedWheel Callback where
  run := wheel.run.next event
  served := record wheel.run wheel.served event

/-- Anything may be added, with anything in the memory that becomes `times_`. -/
def system (msLen : Nat) : System (ServedWheel Callback) (WheelRun.Event Callback) where
  initial wheel := wheel = { run := .start msLen, served := [] }
  step wheel event after := wheel.run.Enabled event ∧ after = wheel.next event

end ServedWheel

/-- How a task stands that repeats from tick `first` on: it has not been
executed yet, it waits for its next execution, it is being executed, or it has
been for the last time. -/
inductive Owes (run : WheelRun Callback) (task : Nat) (content : Task Callback)
    (served : Served) (first : Nat) : Prop where
  | fresh (idle : ∀ it, run.phase ≠ .running it task) (never : served.executed = [])
      (times_ : content.times_ = served.times_)
  | waiting (idle : ∀ it, run.phase ≠ .running it task) (executed : served.executed ≠ [])
      (tick : Nat) (reaches : run.Reaches task tick)
      (owed : tick + content.rotations_.toNat * run.wheel.slotLen =
        first + served.executed.length * served.period)
      (left : served.Left content.times_ served.executed.length)
  | running (it count : Nat) (phase : run.phase = .running it task)
      (executed : served.executed.length = count + 1)
      (now : run.ticks = first + count * served.period)
      (left : served.Left content.times_ count)
  | spent (executed : served.executed ≠ []) (last : served.times_ = served.executed.length)
      (gone : task ∉ run.wheel.held)

/-- A task object and what is recorded about it. -/
structure Follows (run : WheelRun Callback) (task : Nat) (content : Task Callback)
    (served : Served) (first : Nat) : Prop where
  timeout_ : content.timeout_ = served.timeout_
  callable : content.fun_ ≠ none
  spaced : served.executed = served.every first served.executed.length
  owes : Owes run task content served first

namespace Follows

variable {run after : WheelRun Callback} {task : Nat} {content : Task Callback}
  {served : Served} {first : Nat}

theorem frame (follows : Follows run task content served first)
    (frame : run.Frame after task) : Follows after task content served first := by
  refine ⟨follows.timeout_, follows.callable, follows.spaced, ?_⟩
  cases follows.owes with
  | fresh wasIdle never times_ =>
      exact .fresh (fun it runs => wasIdle it ((frame.phase it).mp runs)) never times_
  | waiting wasIdle executed tick reached owed left =>
      refine .waiting (fun it runs => wasIdle it ((frame.phase it).mp runs)) executed tick
        (frame.reaches tick reached) ?_ left
      rw [frame.slotLen]
      exact owed
  | running it count phase executed now left =>
      exact .running it count ((frame.phase it).mpr phase) executed
        ((frame.ticks it phase).trans now) left
  | spent executed last gone =>
      exact .spent executed last fun isHeld => gone (frame.held isHeld)

/-- The wheel meets the task in the tick it is owed, and executes it. -/
theorem exec (follows : Follows run task content served first)
    (repeating : served.Repeating) (sound : run.Sound) {it : Nat}
    (phase : run.phase = .ticking it)
    (here : (run.wheel.slot run.wheel.currentSlot_)[it]? = some task)
    (reached : ¬ 0 < content.rotations_) :
    ∃ first, Follows { run with phase := .running it task } task content
      (served.exec run.ticks) first := by
  cases follows.owes with
  | fresh _ never times_ =>
      refine ⟨run.ticks, follows.timeout_, follows.callable, ?_, ?_⟩
      · simp [Served.exec, never, Served.every]
      · apply Owes.running it 0 rfl
        · simp [Served.exec, never]
        · simp
        · rw [times_]
          exact Served.Left.zero ⟨repeating.kept, repeating.timeout_, repeating.times_⟩
  | waiting _ _ tick reaches owed left =>
      obtain rfl := sound.eq_ticks_of_here phase here reaches
      have none : content.rotations_.toNat = 0 := by omega
      rw [none, Nat.zero_mul, Nat.add_zero] at owed
      have length : (served.exec run.ticks).executed.length = served.executed.length + 1 :=
        List.length_append
      refine ⟨first, follows.timeout_, follows.callable, ?_, ?_⟩
      · rw [length, Served.every_succ]
        change served.executed ++ [run.ticks] = served.every first _ ++ _
        rw [← follows.spaced, owed]
        rfl
      · exact .running it served.executed.length rfl length owed left
  | running position _ runs =>
      rw [phase] at runs
      cases runs
  | spent _ _ gone =>
      exact absurd (run.wheel.mem_held.mpr ⟨_, List.mem_of_getElem? here⟩) gone

theorem decreaseRotations (follows : Follows run task content served first)
    (sound : run.Sound) {it : Nat} (phase : run.phase = .ticking it)
    (here : (run.wheel.slot run.wheel.currentSlot_)[it]? = some task)
    (rotates : 0 < content.rotations_) (change : Task Callback → Task Callback) :
    Follows { run with
      wheel := run.wheel.modifyTask task change
      phase := .ticking (it + 1) } task
      { content with rotations_ := content.rotations_ - 1 } served first := by
  refine ⟨follows.timeout_, follows.callable, follows.spaced, ?_⟩
  have idle : ∀ position, WheelPhase.ticking (it + 1) ≠ .running position task := by
    intro position runs
    cases runs
  cases follows.owes with
  | fresh _ never times_ => exact .fresh idle never times_
  | waiting _ executed tick reaches owed left =>
      obtain rfl := sound.eq_ticks_of_here phase here reaches
      refine .waiting idle executed _ (run.reaches_passedOver here change) ?_ left
      have fewer : content.rotations_.toNat = (content.rotations_ - 1).toNat + 1 := by
        omega
      rw [fewer, Nat.add_mul, Nat.one_mul] at owed
      change run.ticks + run.wheel.slotLen +
        (content.rotations_ - 1).toNat * run.wheel.slotLen = _
      omega
  | running position _ runs =>
      rw [phase] at runs
      cases runs
  | spent _ _ gone =>
      exact absurd (run.wheel.mem_held.mpr ⟨_, List.mem_of_getElem? here⟩) gone

section AfterExec

variable (follows : Follows run task content served first) (sound : run.Sound) {it : Nat}
  (phase : run.phase = .running it task)
include follows sound phase

theorem executing :
    ∃ count, served.executed.length = count + 1 ∧
      run.ticks = first + count * served.period ∧ served.Left content.times_ count := by
  cases follows.owes with
  | fresh idle => exact absurd phase (idle it)
  | waiting idle => exact absurd phase (idle it)
  | running _ count _ executed now left => exact ⟨count, executed, now, left⟩
  | spent _ _ gone =>
      have here := (sound.shape.executing it task phase).1
      exact absurd (run.wheel.mem_held.mpr ⟨_, List.mem_of_getElem? here⟩) gone

variable (isTask : run.wheel.tasks[task]? = some content)
include isTask

/-- Wherever it is put, its rotations and the way to its slot add up to its
timeout. -/
theorem again (timeout_ : 1 ≤ served.timeout_) (repeats : content.Repeats) :
    Follows { run with
      wheel := run.wheel.afterExec it task
      phase := .ticking it } task (content.again run.wheel.slotLen) served first := by
  obtain ⟨count, executed, now, left⟩ := follows.executing sound phase
  refine ⟨follows.timeout_, follows.callable, follows.spaced, ?_⟩
  have nonneg : 0 ≤ content.timeout_ := by
    rw [follows.timeout_]
    omega
  have slotLen := TimeWheel.afterExec_slotLen isTask it
  have rounds := Int.tdiv_nonneg nonneg (Int.natCast_nonneg run.wheel.slotLen)
  have rest := Int.tmod_nonneg run.wheel.slotLen nonneg
  have whole : (content.timeout_.tmod run.wheel.slotLen).toNat +
      (content.timeout_.tdiv run.wheel.slotLen).toNat * run.wheel.slotLen = served.period := by
    have split := Int.tmod_add_tdiv_mul content.timeout_ run.wheel.slotLen
    rw [Served.period, ← follows.timeout_, ← Int.natCast_inj]
    push_cast
    rw [Int.toNat_of_nonneg rest, Int.toNat_of_nonneg rounds, Int.toNat_of_nonneg nonneg]
    exact split
  refine .waiting ?_ ?_ _ (sound.reaches_again phase isTask repeats nonneg) ?_ ?_
  · intro position runs
    cases runs
  · intro never
    rw [never] at executed
    cases executed
  · rw [executed, Nat.add_mul, Nat.one_mul, ← Nat.add_assoc, ← now, ← whole]
    change _ + (content.timeout_.tdiv run.wheel.slotLen).toNat *
      (run.wheel.afterExec it task).slotLen = _
    rw [slotLen]
    omega
  · rw [executed]
    exact left.again repeats _

theorem last (single : ¬ content.Repeats) :
    Follows { run with
      wheel := run.wheel.afterExec it task
      phase := .ticking it } task content served first := by
  obtain ⟨count, executed, _, left⟩ := follows.executing sound phase
  refine ⟨follows.timeout_, follows.callable, follows.spaced, ?_⟩
  refine .spent ?_ ?_ ?_
  · intro never
    rw [never] at executed
    cases executed
  · rw [executed]
    exact left.last single
  · have nodup := sound.nodup
    rw [(sound.held_afterExec_of_not_repeats phase isTask single).nodup_iff,
      List.nodup_cons] at nodup
    exact nodup.1

end AfterExec

/-- The ticks in which the task has been executed are those that were due. -/
theorem punctual (follows : Follows run task content served first)
    (repeating : served.Repeating) (executed : served.executed ≠ []) :
    served.Punctual first run.ticks := by
  have period : 1 ≤ served.period := by
    have timeout_ := repeating.timeout_
    unfold Served.period
    omega
  have later : ∀ {count i : Nat}, count ≤ i →
      first + count * served.period ≤ first + i * served.period := by
    intro count i bound
    exact Nat.add_le_add_left (Nat.mul_le_mul_right _ bound) _
  refine ⟨follows.spaced, ?_, ?_⟩
  · cases follows.owes with
    | fresh _ never => exact absurd never executed
    | waiting _ _ _ _ _ left =>
        rcases left with ⟨endless, _⟩ | ⟨counted, positive⟩
        · exact .inl endless
        · right
          omega
    | running _ count _ length _ left =>
        rcases left with ⟨endless, _⟩ | ⟨counted, positive⟩
        · exact .inl endless
        · right
          omega
    | spent _ last _ => exact .inr (Int.le_of_eq last.symm)
  · intro i prescribed past
    by_contra missed
    rw [Nat.not_lt] at missed
    cases follows.owes with
    | fresh _ never => exact executed never
    | waiting _ _ tick reaches owed _ =>
        have reached := reaches.ticks_le
        have bound := later missed
        omega
    | running _ count _ length now _ =>
        have bound := later (show count ≤ i by omega)
        omega
    | spent _ last _ => omega

end Follows

/-- A task that repeats does so from some tick on. -/
def Agrees (run : WheelRun Callback) (task : Nat) (content : Task Callback)
    (served : Served) : Prop :=
  served.Repeating → ∃ first, Follows run task content served first

theorem Agrees.frame {run after : WheelRun Callback} {task : Nat} {content : Task Callback}
    {served : Served} (agrees : Agrees run task content served)
    (frame : run.Frame after task) : Agrees after task content served := by
  intro repeating
  obtain ⟨first, follows⟩ := agrees repeating
  exact ⟨first, follows.frame frame⟩

/-- The wheel is sound, and its tasks and the records agree. -/
structure Booked (run : WheelRun Callback) (served : List Served) : Prop where
  sound : run.Sound
  paired : Paired (Agrees run) run.wheel.tasks served

namespace Booked

variable {run : WheelRun Callback} {served : List Served}

theorem start (msLen : Nat) (positive : 0 < msLen) :
    Booked (WheelRun.start msLen : WheelRun Callback) [] :=
  ⟨.start msLen positive, .nil⟩

theorem record (booked : Booked run served) (ran : List (Ran Callback)) :
    Booked { run with ran := ran } served := by
  refine ⟨booked.sound.record ran, booked.paired.mono ?_⟩
  intro task content entry _ agrees
  exact agrees.frame (run.frame_record ran task)

theorem schedule (booked : Booked run served) {timeout : Int} (nonneg : 0 ≤ timeout)
    (callback : Callback) (times : Int) :
    Booked { run with wheel := run.wheel.schedule timeout callback times }
      (served ++ [{
        timeout_ := toInt timeout
        times_ := times
        executed := []
        deleted := false }]) := by
  have sound := booked.sound
  refine ⟨sound.schedule nonneg callback times, booked.paired.concat ?_ ?_⟩
  · intro task content entry old agrees
    exact agrees.frame (sound.frame_schedule nonneg callback times old)
  · intro _
    refine ⟨run.ticks, rfl, ?_, rfl, ?_⟩
    · intro removed
      cases removed
    · exact .fresh sound.not_running_new rfl rfl

theorem delTask (booked : Booked run served) (task : Nat) :
    Booked { run with wheel := run.wheel.delTask task }
      (served.modify task Served.remove) := by
  refine ⟨booked.sound.delTask task, ?_⟩
  have others : ∀ name content entry, name ≠ task → run.wheel.tasks[name]? = some content →
      Agrees run name content entry →
      Agrees { run with wheel := run.wheel.delTask task } name content entry := by
    intro name content entry _ _ agrees
    exact agrees.frame (run.frame_delTask task name)
  have here : ∀ (changed : Task Callback) (entry : Served),
      Agrees { run with wheel := run.wheel.delTask task } task changed entry.remove := by
    intro changed entry repeating
    cases repeating.kept
  change Paired _ (run.wheel.delTask task).tasks _
  by_cases alive : run.wheel.Alive task
  · rw [TimeWheel.delTask_tasks_of_alive alive]
    exact booked.paired.modify task others fun _ entry _ _ => here _ entry
  · rw [TimeWheel.delTask_tasks_of_expired alive]
    exact booked.paired.modify_entry task others fun _ entry _ _ => here _ entry

theorem beginTick (booked : Booked run served) (idle : run.phase = .idle) :
    Booked { run with phase := .ticking 0 } served := by
  refine ⟨booked.sound.beginTick idle, booked.paired.mono ?_⟩
  intro task content entry _ agrees
  exact agrees.frame (WheelRun.frame_beginTick idle task)

theorem turn (booked : Booked run served) {it : Nat} (phase : run.phase = .ticking it)
    (exhausted : (run.wheel.slot run.wheel.currentSlot_).length ≤ it) :
    Booked { run with
      wheel := { run.wheel with
        currentSlot_ := (run.wheel.currentSlot_ + 1) % run.wheel.slotLen }
      phase := .idle
      ticks := run.ticks + 1 } served := by
  refine ⟨booked.sound.turn phase exhausted, booked.paired.mono ?_⟩
  intro task content entry _ agrees
  exact agrees.frame (booked.sound.frame_turn phase exhausted task)

section Iterator

variable {it task : Nat} {content : Task Callback} (booked : Booked run served)
  (phase : run.phase = .ticking it)
  (here : (run.wheel.slot run.wheel.currentSlot_)[it]? = some task)
include booked phase here

theorem decreaseRotations (found : run.wheel.tasks[task]? = some content)
    (rotates : 0 < content.rotations_) :
    Booked { run with
      wheel := run.wheel.modifyTask task fun content =>
        { content with rotations_ := content.rotations_ - 1 }
      phase := .ticking (it + 1) } served := by
  refine ⟨booked.sound.decreaseRotations phase here found rotates,
    booked.paired.modify_object task ?_ ?_⟩
  · intro other content entry differs _ agrees
    exact agrees.frame (WheelRun.frame_passOver phase here differs _)
  · intro stored entry isFound agrees repeating
    obtain rfl : content = stored := Option.some.inj (found.symm.trans isFound)
    obtain ⟨first, follows⟩ := agrees repeating
    exact ⟨first, follows.decreaseRotations booked.sound phase here rotates _⟩

theorem exec (found : run.wheel.tasks[task]? = some content)
    (reached : ¬ 0 < content.rotations_) :
    Booked { run with phase := .running it task }
      (served.modify task (Served.exec run.ticks)) := by
  refine ⟨booked.sound.enter phase here, booked.paired.modify_entry task ?_ ?_⟩
  · intro other content entry differs _ agrees
    exact agrees.frame (WheelRun.frame_enter phase here differs)
  · intro stored entry isFound agrees repeating
    obtain rfl : content = stored := Option.some.inj (found.symm.trans isFound)
    have before : entry.Repeating := ⟨repeating.kept, repeating.timeout_, repeating.times_⟩
    obtain ⟨first, follows⟩ := agrees before
    exact follows.exec before booked.sound phase here reached

theorem skip (found : run.wheel.tasks[task]? = some content) (removed : content.fun_ = none) :
    Booked { run with phase := .running it task } served := by
  refine ⟨booked.sound.enter phase here, booked.paired.mono ?_⟩
  intro other stored entry isFound agrees
  by_cases same : other = task
  · subst same
    obtain rfl : content = stored := Option.some.inj (found.symm.trans isFound)
    intro repeating
    obtain ⟨_, follows⟩ := agrees repeating
    exact absurd removed follows.callable
  · exact agrees.frame (WheelRun.frame_enter phase here same)

end Iterator

theorem afterExec (booked : Booked run served) {it task : Nat}
    (phase : run.phase = .running it task) :
    Booked { run with
      wheel := run.wheel.afterExec it task
      phase := .ticking it } served := by
  have sound := booked.sound
  obtain ⟨content, found⟩ := sound.found phase
  refine ⟨sound.afterExec phase, ?_⟩
  have others : ∀ name stored entry, name ≠ task → run.wheel.tasks[name]? = some stored →
      Agrees run name stored entry →
      Agrees { run with
        wheel := run.wheel.afterExec it task
        phase := .ticking it } name stored entry := by
    intro name stored entry differs _ agrees
    exact agrees.frame (sound.frame_afterExec phase found differs)
  change Paired _ (run.wheel.afterExec it task).tasks _
  by_cases repeats : content.Repeats
  · rw [TimeWheel.afterExec_tasks_of_repeats found it repeats]
    refine booked.paired.modify_object task others ?_
    intro stored entry isFound agrees repeating
    obtain rfl : content = stored := Option.some.inj (found.symm.trans isFound)
    obtain ⟨first, follows⟩ := agrees repeating
    exact ⟨first, follows.again sound phase found repeating.timeout_ repeats⟩
  · rw [TimeWheel.afterExec_tasks_of_not_repeats found it repeats]
    refine booked.paired.mono ?_
    intro name stored entry isFound agrees
    by_cases same : name = task
    · subst same
      obtain rfl : content = stored := Option.some.inj (found.symm.trans isFound)
      intro repeating
      obtain ⟨first, follows⟩ := agrees repeating
      exact ⟨first, follows.last sound phase found repeats⟩
    · exact others name stored entry same isFound agrees

theorem visit (booked : Booked run served) {it : Nat} (phase : run.phase = .ticking it)
    (inside : it < (run.wheel.slot run.wheel.currentSlot_).length) :
    Booked (run.next .visit) (ServedWheel.record run served .visit) := by
  obtain ⟨task, content, here, found⟩ := booked.sound.at_iterator inside
  simp only [ServedWheel.record, WheelRun.next, phase]
  by_cases rotates : 0 < content.rotations_
  · rw [WheelRun.visit_of_rotates here found rotates]
    exact booked.decreaseRotations phase here found rotates
  · cases callable : content.fun_ with
    | some callback =>
        rw [WheelRun.visit_of_callback here found rotates callable]
        exact (booked.exec phase here found rotates).record _
    | none =>
        rw [WheelRun.visit_of_removed here found rotates callable]
        have finished := (booked.skip phase here found callable).afterExec rfl
        simpa only [phase] using finished

/-- The step lemma. -/
theorem next (booked : Booked run served) {event : WheelRun.Event Callback}
    (enabled : run.Enabled event) :
    Booked (run.next event) (ServedWheel.record run served event) := by
  cases event with
  | addTask timeout callback times =>
      change Booked (run.addTask timeout callback times) _
      unfold WheelRun.addTask ServedWheel.record
      by_cases negative : timeout < 0
      · simp only [if_pos negative]
        exact booked.record _
      · simp only [if_neg negative]
        exact booked.schedule (Int.not_lt.mp negative) callback times
  | delTask task => exact booked.delTask task
  | beginTick => exact booked.beginTick enabled
  | visit =>
      obtain ⟨it, phase, inside⟩ := enabled.exists
      exact booked.visit phase inside
  | finish =>
      obtain ⟨it, task, phase⟩ := enabled.exists
      simpa [WheelRun.next, ServedWheel.record, phase] using booked.afterExec phase
  | endTick =>
      obtain ⟨it, phase, exhausted⟩ := enabled.exists
      exact booked.turn phase exhausted

end Booked

namespace ServedWheel

/-- A task that repeats, whatever else the wheel holds, is executed once in each
tick that lies a multiple of its timeout behind its first execution, until
`times_` is used up, and in no other tick. -/
theorem executed_every_timeout {msLen : Nat} (positive : 0 < msLen)
    {events : List (WheelRun.Event Callback)} {finish : ServedWheel Callback}
    (execution : (system msLen).Execution events finish) :
    ∀ served ∈ finish.served, served.Repeating →
      ∀ first, served.executed.head? = some first → served.Punctual first finish.run.ticks := by
  have booked : Booked finish.run finish.served := by
    apply execution.invariant fun wheel => Booked wheel.run wheel.served
    · rintro start rfl
      exact .start msLen positive
    · rintro wheel event after booked ⟨enabled, rfl⟩
      exact booked.next enabled
  intro served membership repeating first isFirst
  obtain ⟨task, recorded⟩ := List.mem_iff_getElem?.mp membership
  have known := (List.getElem?_eq_some_iff.mp recorded).1
  rw [booked.paired.length] at known
  obtain ⟨start, follows⟩ :=
    booked.paired.agrees task _ served (List.getElem?_eq_getElem known) recorded repeating
  have executed : served.executed ≠ [] := by
    intro never
    rw [never] at isFirst
    cases isFirst
  obtain ⟨count, length⟩ := Nat.exists_eq_succ_of_ne_zero
    (fun none => executed (List.eq_nil_of_length_eq_zero none))
  have same : start = first := by
    have spaced := follows.spaced
    rw [length, Served.every, List.range_succ_eq_map, List.map_cons] at spaced
    rw [spaced, List.head?_cons, Nat.zero_mul] at isFirst
    exact Option.some.inj isFirst
  rw [← same]
  exact follows.punctual repeating executed

/-- The period is the length of the wheel, so that the task is met again in the
tick in which it is executed; its first execution adds another task. -/
theorem executed_every_timeout_full_turn :
    let events : List (WheelRun.Event Nat) :=
      [.addTask 2 10 3,
        .beginTick, .visit, .endTick,
        .beginTick, .endTick,
        .beginTick, .visit, .addTask 1 11 0, .finish, .visit, .endTick,
        .beginTick, .visit, .finish, .endTick,
        .beginTick, .visit, .finish, .visit, .endTick,
        .beginTick, .endTick,
        .beginTick, .visit, .finish, .endTick]
    ∃ wheel, (system 2).Execution events wheel ∧ wheel.run.ticks = 7 ∧
      wheel.served = [⟨2, 3, [2, 4, 6], false⟩, ⟨1, 0, [3], false⟩] ∧
      Served.Punctual ⟨2, 3, [2, 4, 6], false⟩ 2 wheel.run.ticks := by
  intro events
  have execution : (system 2).Execution events
      (events.foldl next { run := .start 2, served := [] }) :=
    System.Execution.foldl (system 2) (fun wheel event => wheel.run.Enabled event)
      (fun _ _ enabled => ⟨enabled, rfl⟩) rfl (by decide +kernel)
  have served : (events.foldl next { run := .start 2, served := [] }).served =
      [⟨2, 3, [2, 4, 6], false⟩, ⟨1, 0, [3], false⟩] := by
    decide +kernel
  refine ⟨_, execution, by decide +kernel, served, ?_⟩
  apply executed_every_timeout (by decide) execution
  · rw [served]
    exact List.mem_cons_self
  · exact ⟨rfl, by decide, .inl (by decide)⟩
  · rfl

end ServedWheel

end GdRpc.Util
