import GdRpc.Library.Paired
import GdRpc.Util.TimingWheelRepeat

/-!
# Every timer once

A task whose memory of `times_` asks for no repetition is in one slot until it
is executed and in none afterwards. The wheel comes to it before its timeout
and one tick more are over, and executes it unless a `delTask` came first.
-/

namespace GdRpc.Util

open GdRpc.Library

universe u

/-- What has become of a task since `addTask` accepted it: `late` counts the
executions after a `delTask`. -/
structure Accepted where
  timeout : Int
  added : Nat
  executions : Nat
  deleted : Bool
  late : Nat
  deriving DecidableEq, Repr

namespace Accepted

def remove (accepted : Accepted) : Accepted :=
  { accepted with deleted := true }

def exec (accepted : Accepted) : Accepted :=
  { accepted with
    executions := accepted.executions + 1
    late := if accepted.deleted then accepted.late + 1 else accepted.late }

/-- The task is executed once by the time the wheel has ticked its timeout and
one tick more, and never after a `delTask`. -/
structure Once (accepted : Accepted) (ticks : Nat) : Prop where
  atMost : accepted.executions ≤ 1
  elapsed : accepted.added + accepted.timeout + 1 ≤ ticks →
    accepted.deleted = false → accepted.executions = 1
  late : accepted.late = 0

end Accepted

/-- The loop of `takeAllTimeout`. -/
structure TakeAllTimeout where
  now : Int
  cnt : Int
  i : Int
  deriving DecidableEq, Repr

/-- A wheel with the time it has been ticked up to. -/
structure Timers (Callback : Type u) where
  run : WheelRun Callback
  starttime_ : Int
  taking : Option TakeAllTimeout
  accepted : List Accepted
  deriving DecidableEq, Repr

namespace Timers

variable {Callback : Type u}

/-- `tick` is an event of the wheel whether the user or `takeAllTimeout` calls
it. -/
inductive Event (Callback : Type u) where
  | wheel (event : WheelRun.Event Callback)
  | takeAllTimeout (now : Int)
  | endTakeAllTimeout

/-- Between its ticks `takeAllTimeout` only begins the next one. -/
def Permits : Option TakeAllTimeout → WheelPhase → WheelRun.Event Callback → Prop
  | some taking, .idle, .beginTick => taking.i < taking.cnt
  | some _, .idle, _ => False
  | _, _, _ => True

instance : ∀ taking phase (event : WheelRun.Event Callback),
    Decidable (Permits taking phase event)
  | some taking, .idle, .beginTick => inferInstanceAs (Decidable (taking.i < taking.cnt))
  | some _, .idle, .addTask _ _ _ | some _, .idle, .delTask _ | some _, .idle, .visit
  | some _, .idle, .finish | some _, .idle, .endTick => inferInstanceAs (Decidable False)
  | none, _, _ | some _, .ticking _, _ | some _, .running _ _, _ =>
      inferInstanceAs (Decidable True)

def Enabled (timers : Timers Callback) : Event Callback → Prop
  | .wheel event =>
      timers.run.Enabled event ∧ Permits timers.taking timers.run.phase event
  | .takeAllTimeout _ => timers.taking = none ∧ timers.run.phase = .idle
  | .endTakeAllTimeout =>
      timers.run.phase = .idle ∧ ∃ taking ∈ timers.taking, ¬ taking.i < taking.cnt

instance (timers : Timers Callback) : ∀ event, Decidable (timers.Enabled event)
  | .wheel event =>
      inferInstanceAs (Decidable
        (timers.run.Enabled event ∧ Permits timers.taking timers.run.phase event))
  | .takeAllTimeout _ =>
      inferInstanceAs (Decidable (timers.taking = none ∧ timers.run.phase = .idle))
  | .endTakeAllTimeout =>
      inferInstanceAs (Decidable
        (timers.run.phase = .idle ∧ ∃ taking ∈ timers.taking, ¬ taking.i < taking.cnt))

/-- What an event of the wheel does to the tasks accepted so far. -/
def record (run : WheelRun Callback) (accepted : List Accepted) :
    WheelRun.Event Callback → List Accepted
  | .addTask timeout _ _ =>
      if timeout < 0 then
        accepted
      else
        accepted ++ [{
          timeout := timeout
          added := run.ticks
          executions := 0
          deleted := false
          late := 0 }]
  | .delTask task => accepted.modify task Accepted.remove
  | .visit =>
      match (run.next .visit).phase with
      | .running _ task => accepted.modify task Accepted.exec
      | _ => accepted
  | .beginTick | .finish | .endTick => accepted

def next (timers : Timers Callback) : Event Callback → Timers Callback
  | .wheel event =>
      { timers with
        run := timers.run.next event
        taking :=
          match event with
          | .endTick =>
              timers.taking.map fun taking => { taking with i := toInt (taking.i + 1) }
          | _ => timers.taking
        accepted := record timers.run timers.accepted event }
  | .takeAllTimeout now =>
      { timers with
        taking := some { now := now, cnt := now - timers.starttime_, i := 0 } }
  | .endTakeAllTimeout =>
      match timers.taking with
      | some taking => { timers with starttime_ := taking.now, taking := none }
      | none => timers

/-- A wheel made at time `now`. -/
def new (msLen : Nat) (now : Int) : Timers Callback where
  run := .start msLen
  starttime_ := now
  taking := none
  accepted := []

def system (msLen : Nat) (now : Int) : System (Timers Callback) (Event Callback) where
  initial timers := timers = new msLen now
  step timers event after := timers.Enabled event ∧ after = timers.next event

/-- The memory that becomes `times_` asks for no repetition. -/
def Event.Single : Event Callback → Prop
  | .wheel (.addTask timeout _ times) => 0 ≤ timeout → ¬ (1 < times ∨ times = -1)
  | _ => True

/-- A task object in its wheel and what is recorded about it. -/
structure Keeps (run : WheelRun Callback) (task : Nat) (content : Task Callback)
    (accepted : Accepted) : Prop where
  atMost : accepted.executions ≤ 1
  late : accepted.late = 0
  spent : accepted.executions = 1 → task ∈ run.wheel.held →
    ∃ it, run.phase = .running it task
  running : ∀ it, run.phase = .running it task →
    accepted.executions = 1 ∨ accepted.deleted = true
  removed : accepted.deleted = true → task ∈ run.wheel.held → content.fun_ = none
  callable : accepted.deleted = false → content.fun_ ≠ none
  waiting : accepted.executions = 0 → accepted.deleted = false →
    ∃ tick, run.Reaches task tick ∧
      tick + content.rotations_.toNat * run.wheel.slotLen ≤
        accepted.added + accepted.timeout

namespace Keeps

variable {run after : WheelRun Callback} {task : Nat} {content : Task Callback}
  {accepted : Accepted}

theorem mono (keeps : Keeps run task content accepted) (frame : run.Frame after task) :
    Keeps after task content accepted := by
  constructor
  · exact keeps.atMost
  · exact keeps.late
  · intro executed isHeld
    obtain ⟨it, runs⟩ := keeps.spent executed (frame.held isHeld)
    exact ⟨it, (frame.phase it).mpr runs⟩
  · intro it runs
    exact keeps.running it ((frame.phase it).mp runs)
  · intro deleted isHeld
    exact keeps.removed deleted (frame.held isHeld)
  · exact keeps.callable
  · intro pending kept
    obtain ⟨tick, reached, bound⟩ := keeps.waiting pending kept
    rw [frame.slotLen]
    exact ⟨tick, frame.reaches tick reached, bound⟩

theorem once (keeps : Keeps run task content accepted) : accepted.Once run.ticks := by
  constructor
  · exact keeps.atMost
  · intro elapsed kept
    by_contra pending
    have never : accepted.executions = 0 := by
      have atMost := keeps.atMost
      omega
    obtain ⟨tick, reached, bound⟩ := keeps.waiting never kept
    have later := reached.ticks_le
    have rounds : 0 ≤ (content.rotations_.toNat : Int) * run.wheel.slotLen :=
      Int.mul_nonneg (Int.natCast_nonneg _) (Int.natCast_nonneg _)
    omega
  · exact keeps.late

/-- The task is executed: it was neither executed before nor deleted. -/
theorem exec (keeps : Keeps run task content accepted) {it : Nat}
    (phase : run.phase = .ticking it) (held : task ∈ run.wheel.held) {callback : Callback}
    (callable : content.fun_ = some callback) :
    Keeps { run with phase := .running it task } task content accepted.exec := by
  have kept : accepted.deleted = false := by
    by_contra deleted
    have nothing := keeps.removed (eq_true_of_ne_false deleted) held
    rw [callable] at nothing
    cases nothing
  have pending : accepted.executions = 0 := by
    by_contra executed
    have atMost := keeps.atMost
    obtain ⟨position, runs⟩ := keeps.spent (by omega) held
    rw [phase] at runs
    cases runs
  have executed : accepted.exec.executions = 1 := by
    rw [Accepted.exec, pending]
  constructor
  · exact Nat.le_of_eq executed
  · simp [Accepted.exec, kept, keeps.late]
  · intro _ _
    exact ⟨it, rfl⟩
  · intro _ _
    exact Or.inl executed
  · intro deleted
    rw [Accepted.exec, kept] at deleted
    cases deleted
  · intro _
    exact keeps.callable kept
  · intro never
    rw [executed] at never
    cases never

theorem skip (keeps : Keeps run task content accepted) {it : Nat}
    (removed : content.fun_ = none) :
    Keeps { run with phase := .running it task } task content accepted := by
  have deleted : accepted.deleted = true := by
    by_contra kept
    exact keeps.callable (eq_false_of_ne_true kept) removed
  constructor
  · exact keeps.atMost
  · exact keeps.late
  · intro _ _
    exact ⟨it, rfl⟩
  · intro _ _
    exact Or.inr deleted
  · exact keeps.removed
  · exact keeps.callable
  · intro _ kept
    rw [deleted] at kept
    cases kept

theorem remove (keeps : Keeps run task content accepted)
    (held : task ∈ after.wheel.held → task ∈ run.wheel.held)
    (phase : after.phase = run.phase) {changed : Task Callback}
    (removed : task ∈ run.wheel.held → changed.fun_ = none) :
    Keeps after task changed accepted.remove := by
  constructor
  · exact keeps.atMost
  · exact keeps.late
  · intro executed isHeld
    rw [phase]
    exact keeps.spent executed (held isHeld)
  · intro _ _
    exact Or.inr rfl
  · intro _ isHeld
    exact removed (held isHeld)
  · intro kept
    cases kept
  · intro _ kept
    cases kept

theorem leave (keeps : Keeps run task content accepted) {it : Nat}
    (phase : run.phase = .running it task) (gone : task ∉ after.wheel.held)
    (turned : ∀ it, after.phase ≠ .running it task) :
    Keeps after task content accepted := by
  constructor
  · exact keeps.atMost
  · exact keeps.late
  · intro _ held
    exact absurd held gone
  · intro it runs
    exact absurd runs (turned it)
  · intro _ held
    exact absurd held gone
  · exact keeps.callable
  · intro pending kept
    rcases keeps.running it phase with executed | deleted
    · rw [pending] at executed
      cases executed
    · rw [kept] at deleted
      cases deleted

theorem decreaseRotations (keeps : Keeps run task content accepted) {it : Nat}
    (phase : run.phase = .ticking it)
    (here : (run.wheel.slot run.wheel.currentSlot_)[it]? = some task)
    (rotates : 0 < content.rotations_) (change : Task Callback → Task Callback) :
    Keeps { run with
      wheel := run.wheel.modifyTask task change
      phase := .ticking (it + 1) } task
      { content with rotations_ := content.rotations_ - 1 } accepted := by
  constructor
  · exact keeps.atMost
  · exact keeps.late
  · intro executed held
    obtain ⟨position, runs⟩ := keeps.spent executed held
    rw [phase] at runs
    cases runs
  · intro _ runs
    cases runs
  · exact keeps.removed
  · exact keeps.callable
  · intro pending kept
    obtain ⟨tick, reached, bound⟩ := keeps.waiting pending kept
    refine ⟨_, run.reaches_passedOver here change, ?_⟩
    have later := reached.ticks_le
    have fewer : (content.rotations_.toNat : Int) =
        (content.rotations_ - 1).toNat + 1 := by
      omega
    rw [fewer, Int.add_mul, Int.one_mul] at bound
    change ((run.ticks + run.wheel.slotLen : Nat) : Int) +
      (content.rotations_ - 1).toNat * run.wheel.slotLen ≤ _
    push_cast
    omega

end Keeps

/-- A task that has been chosen does not repeat, and its record is right. -/
def Tracked (Chosen : Nat → Prop) (run : WheelRun Callback) (task : Nat)
    (content : Task Callback) (accepted : Accepted) : Prop :=
  Chosen task → ¬ content.Repeats ∧ Keeps run task content accepted

namespace Tracked

variable {Chosen : Nat → Prop} {run after : WheelRun Callback} {task : Nat}
  {content changed : Task Callback} {accepted entry : Accepted}

theorem imp (tracked : Tracked Chosen run task content accepted)
    (repeats : changed.Repeats → content.Repeats)
    (keeps : Keeps run task content accepted → Keeps after task changed entry) :
    Tracked Chosen after task changed entry := by
  intro chosen
  obtain ⟨single, kept⟩ := tracked chosen
  exact ⟨fun again => single (repeats again), keeps kept⟩

theorem mono (tracked : Tracked Chosen run task content accepted)
    (frame : run.Frame after task) : Tracked Chosen after task content accepted :=
  tracked.imp id fun keeps => keeps.mono frame

end Tracked

/-- The tasks of the wheel and the records agree, and of the chosen tasks none
repeats. -/
structure Ledger (Chosen : Nat → Prop) (run : WheelRun Callback) (accepted : List Accepted) :
    Prop where
  sound : run.Sound
  paired : Paired (Tracked Chosen run) run.wheel.tasks accepted

namespace Ledger

variable {Chosen : Nat → Prop} {run : WheelRun Callback} {accepted : List Accepted}

theorem keeps (ledger : Ledger Chosen run accepted) {task : Nat} (chosen : Chosen task)
    {content : Task Callback} {entry : Accepted} (found : run.wheel.tasks[task]? = some content)
    (recorded : accepted[task]? = some entry) : Keeps run task content entry :=
  (ledger.paired.agrees task content entry found recorded chosen).2

theorem single (ledger : Ledger Chosen run accepted) {task : Nat} (chosen : Chosen task)
    {content : Task Callback} (found : run.wheel.tasks[task]? = some content) :
    ¬ content.Repeats := by
  have known : task < accepted.length := by
    rw [ledger.paired.length]
    exact (List.getElem?_eq_some_iff.mp found).1
  exact (ledger.paired.agrees task content _ found (List.getElem?_eq_getElem known) chosen).1

theorem start (Chosen : Nat → Prop) (msLen : Nat) (positive : 0 < msLen) :
    Ledger Chosen (WheelRun.start msLen : WheelRun Callback) [] :=
  ⟨.start msLen positive, .nil⟩

theorem record (ledger : Ledger Chosen run accepted) (ran : List (Ran Callback)) :
    Ledger Chosen { run with ran := ran } accepted := by
  refine ⟨ledger.sound.record ran, ledger.paired.mono ?_⟩
  intro task content entry _ tracked
  exact tracked.mono (run.frame_record ran task)

theorem addTask (ledger : Ledger Chosen run accepted) {timeout : Int} (nonneg : 0 ≤ timeout)
    (callback : Callback) {times : Int}
    (single : Chosen accepted.length → ¬ (1 < times ∨ times = -1)) :
    Ledger Chosen { run with wheel := run.wheel.schedule timeout callback times }
      (accepted ++ [{
        timeout := timeout
        added := run.ticks
        executions := 0
        deleted := false
        late := 0 }]) := by
  have sound := ledger.sound
  refine ⟨sound.schedule nonneg callback times, ledger.paired.concat ?_ ?_⟩
  · intro task content entry old tracked
    exact tracked.mono (sound.frame_schedule nonneg callback times old)
  · intro chosen
    rw [← ledger.paired.length] at chosen
    refine ⟨single chosen, ?_⟩
    constructor
    · exact Nat.zero_le 1
    · rfl
    · intro executed
      cases executed
    · intro it runs
      exact absurd runs (sound.not_running_new it)
    · intro deleted
      cases deleted
    · intro _ none
      cases none
    · intro _ _
      refine ⟨_, run.reaches_scheduled sound.shape nonneg callback times, ?_⟩
      have delay := TimeWheel.delay_le run.wheel.slotLen nonneg
      unfold TimeWheel.delay at delay
      change ((run.ticks + (timeout.tmod run.wheel.slotLen).toNat : Nat) : Int) +
        (toInt (timeout.tdiv run.wheel.slotLen)).toNat * run.wheel.slotLen ≤
          run.ticks + timeout
      push_cast at delay ⊢
      omega

theorem delTask (ledger : Ledger Chosen run accepted) (task : Nat) :
    Ledger Chosen { run with wheel := run.wheel.delTask task }
      (accepted.modify task Accepted.remove) := by
  refine ⟨ledger.sound.delTask task, ?_⟩
  have others : ∀ name content entry, name ≠ task → run.wheel.tasks[name]? = some content →
      Tracked Chosen run name content entry →
      Tracked Chosen { run with wheel := run.wheel.delTask task } name content entry := by
    intro name content entry _ _ tracked
    exact tracked.mono (run.frame_delTask task name)
  have held := (run.frame_delTask task task).held
  change Paired _ (run.wheel.delTask task).tasks _
  by_cases alive : run.wheel.Alive task
  · rw [TimeWheel.delTask_tasks_of_alive alive]
    apply ledger.paired.modify task others
    intro content entry _ tracked
    exact tracked.imp id fun keeps => keeps.remove held rfl fun _ => rfl
  · rw [TimeWheel.delTask_tasks_of_expired alive]
    apply ledger.paired.modify_entry task others
    intro content entry _ tracked
    refine tracked.imp id fun keeps => keeps.remove held rfl ?_
    intro isHeld
    exact absurd (run.wheel.alive_iff.mpr isHeld) alive

theorem beginTick (ledger : Ledger Chosen run accepted) (idle : run.phase = .idle) :
    Ledger Chosen { run with phase := .ticking 0 } accepted := by
  refine ⟨ledger.sound.beginTick idle, ledger.paired.mono ?_⟩
  intro task content entry _ tracked
  exact tracked.mono (WheelRun.frame_beginTick idle task)

theorem turn (ledger : Ledger Chosen run accepted) {it : Nat} (phase : run.phase = .ticking it)
    (exhausted : (run.wheel.slot run.wheel.currentSlot_).length ≤ it) :
    Ledger Chosen { run with
      wheel := { run.wheel with
        currentSlot_ := (run.wheel.currentSlot_ + 1) % run.wheel.slotLen }
      phase := .idle
      ticks := run.ticks + 1 } accepted := by
  refine ⟨ledger.sound.turn phase exhausted, ledger.paired.mono ?_⟩
  intro task content entry _ tracked
  exact tracked.mono (ledger.sound.frame_turn phase exhausted task)

section Iterator

variable {it task : Nat} {content : Task Callback} (ledger : Ledger Chosen run accepted)
  (here : (run.wheel.slot run.wheel.currentSlot_)[it]? = some task)
include ledger here

theorem decreaseRotations (phase : run.phase = .ticking it)
    (found : run.wheel.tasks[task]? = some content) (rotates : 0 < content.rotations_) :
    Ledger Chosen { run with
      wheel := run.wheel.modifyTask task fun content =>
        { content with rotations_ := content.rotations_ - 1 }
      phase := .ticking (it + 1) } accepted := by
  refine ⟨ledger.sound.decreaseRotations phase here found rotates,
    ledger.paired.modify_object task ?_ ?_⟩
  · intro other stored entry differs _ tracked
    exact tracked.mono (WheelRun.frame_passOver phase here differs _)
  · intro stored entry isFound tracked
    obtain rfl : content = stored := Option.some.inj (found.symm.trans isFound)
    exact tracked.imp id fun keeps => keeps.decreaseRotations phase here rotates _

/-- The task under the iterator has its turn: its record changes as `change`
says, no other one does. -/
theorem enter (phase : run.phase = .ticking it) (change : Accepted → Accepted)
    (turn : ∀ content entry, run.wheel.tasks[task]? = some content →
      Keeps run task content entry →
      Keeps { run with phase := .running it task } task content (change entry)) :
    Ledger Chosen { run with phase := .running it task } (accepted.modify task change) := by
  refine ⟨ledger.sound.enter phase here, ledger.paired.modify_entry task ?_ ?_⟩
  · intro other content entry differs _ tracked
    exact tracked.mono (WheelRun.frame_enter phase here differs)
  · intro content entry found tracked
    exact tracked.imp id (turn content entry found)

end Iterator

/-- The turn of a task is over. A chosen one does not repeat and leaves the slots. -/
theorem afterExec (ledger : Ledger Chosen run accepted) {it task : Nat}
    (phase : run.phase = .running it task) :
    Ledger Chosen { run with
      wheel := run.wheel.afterExec it task
      phase := .ticking it } accepted := by
  have sound := ledger.sound
  obtain ⟨content, found⟩ := sound.found phase
  have others : ∀ other stored entry, other ≠ task →
      Tracked Chosen run other stored entry →
      Tracked Chosen { run with
        wheel := run.wheel.afterExec it task
        phase := .ticking it } other stored entry := by
    intro other stored entry differs tracked
    exact tracked.mono (sound.frame_afterExec phase found differs)
  refine ⟨sound.afterExec phase, ?_⟩
  change Paired _ (run.wheel.afterExec it task).tasks _
  by_cases repeats : content.Repeats
  · rw [TimeWheel.afterExec_tasks_of_repeats found it repeats]
    apply ledger.paired.modify_object task
    · intro other stored entry differs _
      exact others other stored entry differs
    · intro stored entry isFound tracked chosen
      obtain rfl : content = stored := Option.some.inj (found.symm.trans isFound)
      exact absurd repeats (tracked chosen).1
  · have left := sound.nodup
    rw [(sound.held_afterExec_of_not_repeats phase found repeats).nodup_iff,
      List.nodup_cons] at left
    rw [TimeWheel.afterExec_tasks_of_not_repeats found it repeats]
    apply ledger.paired.mono
    intro other stored entry _ tracked
    by_cases same : other = task
    · subst same
      refine tracked.imp id fun keeps => keeps.leave phase left.1 ?_
      intro position runs
      cases runs
    · exact others other stored entry same tracked

theorem visit (ledger : Ledger Chosen run accepted) {it : Nat} (phase : run.phase = .ticking it)
    (inside : it < (run.wheel.slot run.wheel.currentSlot_).length) :
    Ledger Chosen (run.next .visit) (Timers.record run accepted .visit) := by
  obtain ⟨task, content, here, found⟩ := ledger.sound.at_iterator inside
  have held : task ∈ run.wheel.held :=
    run.wheel.mem_held.mpr ⟨_, List.mem_of_getElem? here⟩
  simp only [Timers.record, WheelRun.next, phase]
  by_cases rotates : 0 < content.rotations_
  · rw [WheelRun.visit_of_rotates here found rotates]
    exact ledger.decreaseRotations here phase found rotates
  · cases callable : content.fun_ with
    | some callback =>
        rw [WheelRun.visit_of_callback here found rotates callable]
        have executing : Ledger Chosen { run with phase := .running it task }
            (accepted.modify task Accepted.exec) := by
          apply ledger.enter here phase
          intro stored entry isFound keeps
          obtain rfl : content = stored := Option.some.inj (found.symm.trans isFound)
          exact keeps.exec phase held callable
        exact executing.record _
    | none =>
        rw [WheelRun.visit_of_removed here found rotates callable]
        have skipped : Ledger Chosen { run with phase := .running it task } accepted := by
          have entered := ledger.enter here phase id
          rw [List.modify_id] at entered
          apply entered
          intro stored entry isFound keeps
          obtain rfl : content = stored := Option.some.inj (found.symm.trans isFound)
          exact keeps.skip callable
        have finished := skipped.afterExec rfl
        simpa only [phase] using finished

/-- The step lemma. -/
theorem next (ledger : Ledger Chosen run accepted) {event : WheelRun.Event Callback}
    (enabled : run.Enabled event)
    (single : Chosen accepted.length → (Timers.Event.wheel event).Single) :
    Ledger Chosen (run.next event) (Timers.record run accepted event) := by
  cases event with
  | addTask timeout callback times =>
      change Ledger Chosen (run.addTask timeout callback times) _
      unfold WheelRun.addTask Timers.record
      by_cases negative : timeout < 0
      · simp only [if_pos negative]
        exact ledger.record _
      · simp only [if_neg negative]
        have nonneg := Int.not_lt.mp negative
        exact ledger.addTask nonneg callback fun chosen => single chosen nonneg
  | delTask task => exact ledger.delTask task
  | beginTick => exact ledger.beginTick enabled
  | visit =>
      obtain ⟨it, phase, inside⟩ := enabled.exists
      exact ledger.visit phase inside
  | finish =>
      obtain ⟨it, task, phase⟩ := enabled.exists
      simpa [WheelRun.next, Timers.record, phase] using ledger.afterExec phase
  | endTick =>
      obtain ⟨it, phase, exhausted⟩ := enabled.exists
      exact ledger.turn phase exhausted

theorem once (ledger : Ledger Chosen run accepted) {task : Nat} (chosen : Chosen task)
    {entry : Accepted} (recorded : accepted[task]? = some entry) : entry.Once run.ticks := by
  have known := (List.getElem?_eq_some_iff.mp recorded).1
  rw [ledger.paired.length] at known
  exact (ledger.keeps chosen (List.getElem?_eq_getElem known) recorded).once

end Ledger

theorem Ledger.timers {Chosen : Nat → Prop} {timers : Timers Callback}
    (ledger : Ledger Chosen timers.run timers.accepted) {event : Event Callback}
    (enabled : timers.Enabled event)
    (single : Chosen timers.accepted.length → event.Single) :
    Ledger Chosen (timers.next event).run (timers.next event).accepted := by
  cases event with
  | wheel event => exact ledger.next enabled.1 single
  | takeAllTimeout now => exact ledger
  | endTakeAllTimeout =>
      simp only [Timers.next]
      split
      · exact ledger
      · exact ledger

/-- Every task accepted with memory that asks for no repetition is executed
once. -/
theorem executed_once {msLen : Nat} (positive : 0 < msLen) {now : Int}
    {labels : List (Event Callback)} {finish : Timers Callback}
    (execution : (system msLen now).Execution labels finish)
    (single : ∀ event ∈ labels, event.Single) :
    ∀ accepted ∈ finish.accepted, accepted.Once finish.run.ticks := by
  have ledger := execution.history
    (fun past timers => (∀ event ∈ past, event.Single) →
      Ledger (fun _ => True) timers.run timers.accepted) ?_ ?_
  · intro accepted membership
    obtain ⟨task, recorded⟩ := List.mem_iff_getElem?.mp membership
    exact (ledger single).once trivial recorded
  · rintro start rfl _
    exact Ledger.start _ msLen positive
  · rintro past timers event after inductionHypothesis ⟨enabled, rfl⟩ isSingle
    have before := inductionHypothesis fun earlier membership =>
      isSingle earlier (List.mem_append_left _ membership)
    exact before.timers enabled fun _ => isSingle event (List.mem_append_right _ (by simp))

/-- The callback of the first task adds a third one for the tick under way; the
second is deleted before its round is over. -/
theorem executed_once_nested_add :
    let events : List (Event Nat) :=
      [.wheel (.addTask 1 10 0), .wheel (.addTask 2 11 1), .wheel (.delTask 1),
        .takeAllTimeout 3,
        .wheel .beginTick, .wheel .visit, .wheel .endTick,
        .wheel .beginTick, .wheel .visit, .wheel (.addTask 0 12 (-3)), .wheel .finish,
        .wheel .visit, .wheel .finish, .wheel .endTick,
        .wheel .beginTick, .wheel .visit, .wheel .endTick,
        .endTakeAllTimeout]
    ∃ timers, (system 2 0).Execution events timers ∧ timers.run.ticks = 3 ∧
      timers.accepted = [⟨1, 0, 1, false, 0⟩, ⟨2, 0, 0, true, 0⟩, ⟨0, 1, 1, false, 0⟩] ∧
      ∀ accepted ∈ timers.accepted, accepted.Once timers.run.ticks := by
  intro events
  have execution : (system 2 0).Execution events (events.foldl next (new 2 0)) :=
    System.Execution.foldl (system 2 0) Enabled (fun _ _ enabled => ⟨enabled, rfl⟩) rfl
      (by decide +kernel)
  have single : ∀ event ∈ events, event.Single := by
    simp [events, Event.Single]
  exact ⟨_, execution, by decide +kernel, by decide +kernel,
    executed_once (by decide) execution single⟩

/-- With 2 in the memory that becomes `times_` the task is executed again in the
tick after the one it was due in. -/
theorem executed_twice :
    let events : List (Event Nat) :=
      [.wheel (.addTask 1 10 2), .takeAllTimeout 3,
        .wheel .beginTick, .wheel .endTick,
        .wheel .beginTick, .wheel .visit, .wheel .finish, .wheel .endTick,
        .wheel .beginTick, .wheel .visit, .wheel .finish, .wheel .endTick,
        .endTakeAllTimeout]
    ∃ timers, (system 2 0).Execution events timers ∧
      ¬ ∀ accepted ∈ timers.accepted, accepted.Once timers.run.ticks := by
  intro events
  have execution : (system 2 0).Execution events (events.foldl next (new 2 0)) :=
    System.Execution.foldl (system 2 0) Enabled (fun _ _ enabled => ⟨enabled, rfl⟩) rfl
      (by decide +kernel)
  have twice : (events.foldl next (new 2 0)).accepted = [⟨1, 0, 2, false, 0⟩] := by
    decide +kernel
  refine ⟨_, execution, ?_⟩
  intro once
  have atMost := (once ⟨1, 0, 2, false, 0⟩ (by rw [twice]; exact List.mem_singleton_self _)).atMost
  exact absurd atMost (by decide)

end Timers

end GdRpc.Util
