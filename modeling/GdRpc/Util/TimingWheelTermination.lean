import GdRpc.Util.TimingWheelRepeat

/-!
# `tick` returns

The list `tick` walks grows while it walks: callbacks add tasks to it, and so
does `tick` itself. Whatever comes to its end has a round to wait, though, so
that only the tasks that were there first can be executed and bring more.
-/

namespace GdRpc.Util

open GdRpc.Library

universe u

variable {Callback : Type u}

/-- What a callback does to the wheel. -/
inductive Action (Callback : Type u) where
  | addTask (timeout : Int) (callback : Callback) (times : Int)
  | delTask (task : Nat)
  deriving DecidableEq, Repr

namespace Action

def event : Action Callback → WheelRun.Event Callback
  | addTask timeout callback times => .addTask timeout callback times
  | delTask task => .delTask task

/-- Timeouts are positive and fit an `int`. -/
def InRange : Action Callback → Prop
  | addTask timeout _ _ => 1 ≤ timeout ∧ timeout < 2 ^ 31
  | delTask _ => True

instance : ∀ action : Action Callback, Decidable action.InRange
  | addTask timeout _ _ => inferInstanceAs (Decidable (1 ≤ timeout ∧ timeout < 2 ^ 31))
  | delTask _ => inferInstanceAs (Decidable True)

def perform (run : WheelRun Callback) (action : Action Callback) : WheelRun Callback :=
  run.next action.event

end Action

/-- `exec` is called on the task when the iterator comes to it. -/
def TimeWheel.reached (wheel : TimeWheel Callback) (task : Nat) : Bool :=
  match wheel.tasks[task]? with
  | none => false
  | some content => decide (¬ 0 < content.rotations_)

/-- A call of `tick`; for the record only, the callbacks it has called, the
tasks it has visited, each with whether `exec` was called, and the tasks that
have come to the end of its list. -/
structure TickLoop (Callback : Type u) where
  run : WheelRun Callback
  called : Nat
  visits : List (Nat × Bool)
  appended : List Nat
  deriving DecidableEq, Repr

namespace TickLoop

/-- The loop body at position `it`; `behaviour` says what each execution does. -/
def turn (loop : TickLoop Callback) (behaviour : Nat → List (Action Callback)) (it : Nat) :
    TickLoop Callback :=
  let task := (loop.run.wheel.slot loop.run.wheel.currentSlot_)[it]?
  let visited := loop.run.visit it
  match visited.phase with
  | .running _ _ =>
      let run := ((behaviour loop.called).foldl Action.perform visited).next .finish
      { run := run
        called := loop.called + 1
        visits := loop.visits ++ task.toList.map (·, true)
        appended := loop.appended ++ run.coming.drop (loop.run.coming.length - 1) }
  | phase =>
      { run := visited
        called := loop.called
        visits := loop.visits ++ task.toList.map (·, decide (phase = .ticking it))
        appended := loop.appended ++ visited.coming.drop (loop.run.coming.length - 1) }

/-- The loop with a bound on its turns, and the end of `tick`. -/
def iterate (behaviour : Nat → List (Action Callback)) :
    Nat → TickLoop Callback → Option (TickLoop Callback)
  | 0, _ => none
  | fuel + 1, loop =>
      match loop.run.phase with
      | .ticking it =>
          if it < (loop.run.wheel.slot loop.run.wheel.currentSlot_).length then
            iterate behaviour fuel (loop.turn behaviour it)
          else
            some { loop with run := loop.run.next .endTick }
      | _ => none

/-- `tick` with at most `fuel` looks at its iterator. -/
def tick (behaviour : Nat → List (Action Callback)) (fuel : Nat) (run : WheelRun Callback) :
    Option (TickLoop Callback) :=
  iterate behaviour fuel {
    run := run.next .beginTick
    called := 0
    visits := []
    appended := [] }

end TickLoop

namespace TimeWheel

/-- The repeating tasks in the slots have a positive timeout. -/
def Timely (wheel : TimeWheel Callback) : Prop :=
  ∀ task content, task ∈ wheel.held → wheel.tasks[task]? = some content →
    content.Repeats → 1 ≤ content.timeout_

namespace Timely

variable {wheel : TimeWheel Callback}

theorem modifyTask (timely : wheel.Timely) {task : Nat}
    {change : Task Callback → Task Callback}
    (keeps : ∀ content, wheel.tasks[task]? = some content → (change content).Repeats →
      content.Repeats ∧ (change content).timeout_ = content.timeout_) :
    (wheel.modifyTask task change).Timely := by
  intro other content held found repeats
  change (wheel.tasks.modify task change)[other]? = some content at found
  by_cases same : other = task
  · subst same
    rw [List.getElem?_modify_eq] at found
    obtain ⟨before, wasFound, rfl⟩ := Option.map_eq_some_iff.mp found
    obtain ⟨repeated, timeout_⟩ := keeps before wasFound repeats
    rw [timeout_]
    exact timely other before held wasFound repeated
  · rw [List.getElem?_modify_ne _ _ (Ne.symm same)] at found
    exact timely other content held found repeats

theorem delTask (timely : wheel.Timely) (task : Nat) : (wheel.delTask task).Timely := by
  unfold TimeWheel.delTask
  split
  · exact timely.modifyTask fun _ _ repeats => ⟨repeats, rfl⟩
  · exact timely

theorem mono (timely : wheel.Timely) {after : TimeWheel Callback}
    (held : ∀ task, task ∈ after.held → task ∈ wheel.held)
    (tasks : after.tasks = wheel.tasks) : after.Timely := by
  intro task content isHeld found
  rw [tasks] at found
  exact timely task content (held task isHeld) found

end Timely

end TimeWheel

namespace WheelRun

/-- In the tick under way tasks have come to the end of the current slot, and
wait for another round; those still to be visited are as they were. -/
structure Grows (run after : WheelRun Callback) (more : List Nat) : Prop where
  coming : after.coming = run.coming ++ more
  waiting : ∀ task ∈ more, after.wheel.reached task = false
  kept : ∀ task ∈ run.coming, after.wheel.reached task = run.wheel.reached task

theorem Grows.refl (run : WheelRun Callback) : Grows run run [] := by
  constructor
  · exact (List.append_nil _).symm
  · intro task membership
    cases membership
  · exact fun _ _ => rfl

theorem Grows.trans {run middle after : WheelRun Callback} {more behind : List Nat}
    (first : Grows run middle more) (second : Grows middle after behind) :
    Grows run after (more ++ behind) := by
  constructor
  · rw [second.coming, first.coming, List.append_assoc]
  · intro task membership
    rcases List.mem_append.mp membership with earlier | later
    · have isComing : task ∈ middle.coming := by
        rw [first.coming]
        exact List.mem_append_right _ earlier
      rw [second.kept task isComing]
      exact first.waiting task earlier
    · exact second.waiting task later
  · intro task membership
    have isComing : task ∈ middle.coming := by
      rw [first.coming]
      exact List.mem_append_left _ membership
    rw [second.kept task isComing]
    exact first.kept task membership

theorem Grows.of_same {run after : WheelRun Callback} (coming : after.coming = run.coming)
    (same : ∀ task ∈ run.coming, after.wheel.reached task = run.wheel.reached task) :
    Grows run after [] := by
  constructor
  · rw [coming, List.append_nil]
  · intro task membership
    cases membership
  · exact same

theorem reached_congr {wheel after : TimeWheel Callback} {task : Nat}
    (same : after.tasks[task]? = wheel.tasks[task]?) :
    after.reached task = wheel.reached task := by
  unfold TimeWheel.reached
  rw [same]

theorem reached_delTask (wheel : TimeWheel Callback) (task other : Nat) :
    (wheel.delTask task).reached other = wheel.reached other := by
  by_cases same : other = task
  · subst same
    by_cases alive : wheel.Alive other
    · unfold TimeWheel.reached
      rw [TimeWheel.delTask_tasks_of_alive alive, List.getElem?_modify_eq]
      cases wheel.tasks[other]? with
      | none => rfl
      | some content => rfl
    · rw [TimeWheel.delTask, if_neg alive]
  · exact reached_congr (wheel.delTask_tasks_of_ne same)

theorem Sound.lt_of_coming {run : WheelRun Callback} (sound : run.Sound) {task : Nat}
    (isComing : task ∈ run.coming) : task < run.wheel.tasks.length :=
  sound.shape.bounded _ task (List.mem_of_mem_drop isComing)

theorem Sound.not_coming {run : WheelRun Callback} (sound : run.Sound) {it task : Nat}
    (phase : run.phase = .running it task) : task ∉ run.coming := by
  obtain ⟨inside, isTask⟩ :=
    List.getElem?_eq_some_iff.mp (sound.shape.executing it task phase).1
  have nodup := TimeWheel.slot_nodup sound.nodup run.wheel.currentSlot_
  rw [← List.take_append_drop it (run.wheel.slot run.wheel.currentSlot_),
    List.drop_eq_getElem_cons inside, isTask] at nodup
  unfold coming
  rw [phase]
  exact (List.nodup_cons.mp nodup.of_append_right).1

/-- A wheel in which `tick` comes to an end. -/
structure Ready (run : WheelRun Callback) : Prop where
  sound : run.Sound
  timely : run.wheel.Timely

namespace Ready

variable {run : WheelRun Callback}

/-! ## What a callback does -/

theorem schedule (ready : run.Ready) {timeout : Int} (positive : 1 ≤ timeout)
    (small : timeout < 2 ^ 31) (callback : Callback) (times : Int) :
    Ready { run with wheel := run.wheel.schedule timeout callback times } := by
  have nonneg : 0 ≤ timeout := Int.le_trans (by decide) positive
  have shape := ready.sound.shape
  have held := run.wheel.held_schedule shape.positive shape.slots nonneg callback times
  refine ⟨ready.sound.schedule nonneg callback times, ?_⟩
  intro task content isHeld found repeats
  change (run.wheel.tasks ++ [_])[task]? = some content at found
  rcases List.mem_cons.mp (held.mem_iff.mp isHeld) with rfl | before
  · rw [List.getElem?_concat_length] at found
    cases found
    change 1 ≤ toInt timeout
    rw [toInt_of_lt nonneg small]
    exact positive
  · rw [List.getElem?_append_left (ready.sound.lt_of_held before)] at found
    exact ready.timely task content before found repeats

/-- A task that is added to the current slot waits at least a round there. -/
theorem grows_schedule (ready : run.Ready) {timeout : Int} (positive : 1 ≤ timeout)
    (small : timeout < 2 ^ 31) (callback : Callback) (times : Int) :
    ∃ more, Grows run { run with wheel := run.wheel.schedule timeout callback times } more := by
  have nonneg : 0 ≤ timeout := Int.le_trans (by decide) positive
  have sound := ready.sound
  have slots := run.wheel.slot_schedule sound.shape.positive sound.shape.slots nonneg callback
    times
  refine ⟨_, coming_append (slots _) rfl sound.shape.iterator, ?_, ?_⟩
  · intro new membership
    split at membership
    next here =>
      rw [← run.wheel.schedule_slot nonneg] at here
      have rounds := run.wheel.one_le_rounds sound.shape.current positive here
      have bound : timeout.tdiv run.wheel.slotLen ≤ timeout :=
        Int.tdiv_le_self _ nonneg
      have kept : toInt (timeout.tdiv run.wheel.slotLen) = timeout.tdiv run.wheel.slotLen :=
        toInt_of_lt (by omega) (by omega)
      have found : (run.wheel.schedule timeout callback times).tasks[run.wheel.tasks.length]? =
          some ⟨toInt (timeout.tdiv run.wheel.slotLen), toInt timeout, times, some callback⟩ :=
        List.getElem?_concat_length
      rw [List.mem_singleton.mp membership]
      unfold TimeWheel.reached
      simp only [found, kept, decide_eq_false_iff_not, not_not]
      omega
    next => cases membership
  · intro other isComing
    apply reached_congr
    exact List.getElem?_append_left (sound.lt_of_coming isComing)

theorem grows_delTask (task : Nat) :
    Grows run { run with wheel := run.wheel.delTask task } [] := by
  apply Grows.of_same
  · unfold coming
    rw [run.wheel.delTask_eq task]
    rfl
  · exact fun other _ => reached_delTask run.wheel task other

theorem perform (ready : run.Ready) {action : Action Callback} (inRange : action.InRange) :
    (Action.perform run action).Ready ∧ (Action.perform run action).phase = run.phase ∧
      ∃ more, Grows run (Action.perform run action) more := by
  cases action with
  | addTask timeout callback times =>
      obtain ⟨positive, small⟩ := inRange
      have performed : Action.perform run (.addTask timeout callback times) =
          { run with wheel := run.wheel.schedule timeout callback times } := by
        change run.addTask timeout callback times = _
        rw [WheelRun.addTask, if_neg (by omega)]
      rw [performed]
      exact ⟨ready.schedule positive small callback times, rfl,
        ready.grows_schedule positive small callback times⟩
  | delTask task =>
      exact ⟨⟨ready.sound.delTask task, ready.timely.delTask task⟩, rfl, [],
        grows_delTask task⟩

theorem performAll (ready : run.Ready) {actions : List (Action Callback)}
    (inRange : ∀ action ∈ actions, action.InRange) :
    (actions.foldl Action.perform run).Ready ∧
      (actions.foldl Action.perform run).phase = run.phase ∧
      ∃ more, Grows run (actions.foldl Action.perform run) more := by
  induction actions generalizing run with
  | nil => exact ⟨ready, rfl, [], .refl run⟩
  | cons action actions inductionHypothesis =>
      obtain ⟨between, phase, first, grows⟩ := ready.perform (inRange action List.mem_cons_self)
      obtain ⟨after, same, second, grown⟩ := inductionHypothesis between
        fun later membership => inRange later (List.mem_cons_of_mem _ membership)
      exact ⟨after, same.trans phase, first ++ second, grows.trans grown⟩

/-! ## When `exec` has returned -/

section AfterExec

variable (ready : run.Ready) {it task : Nat} (phase : run.phase = .running it task)
  {content : Task Callback} (found : run.wheel.tasks[task]? = some content)
include ready phase found

theorem timely_afterExec : (run.wheel.afterExec it task).Timely := by
  by_cases repeats : content.Repeats
  · have held := ready.sound.held_afterExec_of_repeats phase found repeats
    rw [TimeWheel.afterExec_of_repeats found it repeats] at held ⊢
    have edited : (run.wheel.modifyTask task fun _ =>
        content.again run.wheel.slotLen).Timely := by
      apply ready.timely.modifyTask
      intro before wasFound _
      obtain rfl : content = before := Option.some.inj (found.symm.trans wasFound)
      exact ⟨repeats, rfl⟩
    exact edited.mono (fun _ => held.mem_iff.mp) rfl
  · have held := ready.sound.held_afterExec_of_not_repeats phase found repeats
    rw [TimeWheel.afterExec_of_not_repeats found it repeats] at held ⊢
    refine ready.timely.mono ?_ rfl
    intro other isHeld
    exact held.mem_iff.mpr (List.mem_cons_of_mem _ isHeld)

theorem grows_again (repeats : content.Repeats) :
    ∃ more, Grows run { run with
      wheel := run.wheel.afterExec it task
      phase := .ticking it } more := by
  have sound := ready.sound
  have here := (sound.shape.executing it task phase).1
  have held : task ∈ run.wheel.held :=
    run.wheel.mem_held.mpr ⟨_, List.mem_of_getElem? here⟩
  have slots := sound.slot_reschedule task content
  have inside := (List.getElem?_eq_some_iff.mp (sound.here_reschedule phase content)).1
  have tasks : ∀ other : Nat, (run.wheel.reschedule task content).tasks[other]? =
      (run.wheel.tasks.modify task fun _ => content.again run.wheel.slotLen)[other]? :=
    fun _ => rfl
  rw [TimeWheel.afterExec_of_repeats found it repeats]
  refine ⟨if run.wheel.currentSlot_ = run.wheel.slotAhead content.timeout_ then [task] else [],
    ?_, ?_, ?_⟩
  · have erased := @coming_erase _ { run with wheel := run.wheel.reschedule task content }
      it task phase inside
    exact erased.trans (coming_append (slots _) rfl sound.shape.iterator)
  · intro other membership
    split at membership
    next current =>
      have rounds := run.wheel.one_le_rounds sound.shape.current
        (ready.timely task content held found repeats) current
      rw [List.mem_singleton.mp membership]
      change (run.wheel.reschedule task content).reached task = false
      unfold TimeWheel.reached
      rw [tasks, List.getElem?_modify_eq, found]
      change decide (¬ 0 < content.timeout_.tdiv run.wheel.slotLen) = false
      rw [decide_eq_false_iff_not, not_not]
      omega
    next => cases membership
  · intro other isComing
    have differs : other ≠ task := by
      rintro rfl
      exact sound.not_coming phase isComing
    apply reached_congr
    exact (tasks other).trans (List.getElem?_modify_ne _ _ (Ne.symm differs))

theorem grows_last (single : ¬ content.Repeats) :
    Grows run { run with
      wheel := run.wheel.afterExec it task
      phase := .ticking it } [] := by
  have here := (ready.sound.shape.executing it task phase).1
  rw [TimeWheel.afterExec_of_not_repeats found it single]
  apply Grows.of_same
  · exact coming_erase phase (List.getElem?_eq_some_iff.mp here).1
  · exact fun _ _ => rfl

end AfterExec

theorem afterExec (ready : run.Ready) {it task : Nat} (phase : run.phase = .running it task) :
    Ready { run with
      wheel := run.wheel.afterExec it task
      phase := .ticking it } ∧
    ∃ more, Grows run { run with
      wheel := run.wheel.afterExec it task
      phase := .ticking it } more := by
  obtain ⟨content, found⟩ := ready.sound.found phase
  refine ⟨⟨ready.sound.afterExec phase, ready.timely_afterExec phase found⟩, ?_⟩
  by_cases repeats : content.Repeats
  · exact ready.grows_again phase found repeats
  · exact ⟨[], ready.grows_last phase found repeats⟩

end Ready

end WheelRun

namespace TickLoop

variable {behaviour : Nat → List (Action Callback)} {loop : TickLoop Callback}

/-- What a turn of the loop does: the task under the iterator has been visited,
and what has come to the end of the list waits. A task that is passed over
brings nothing. -/
structure Turned (loop after : TickLoop Callback) (task : Nat) (rest more : List Nat) :
    Prop where
  ready : after.run.Ready
  phase : ∃ it, after.run.phase = .ticking it
  coming : after.run.coming = rest ++ more
  visits : after.visits = loop.visits ++ [(task, loop.run.wheel.reached task)]
  appended : after.appended = loop.appended ++ more
  waiting : ∀ task ∈ more, after.run.wheel.reached task = false
  kept : ∀ task ∈ rest, after.run.wheel.reached task = loop.run.wheel.reached task
  passed : loop.run.wheel.reached task = false → more = []

theorem turn_of_running {it position task : Nat}
    (phase : (loop.run.visit it).phase = .running position task) :
    let run := ((behaviour loop.called).foldl Action.perform (loop.run.visit it)).next .finish
    loop.turn behaviour it = {
      run := run
      called := loop.called + 1
      visits := loop.visits ++
        (loop.run.wheel.slot loop.run.wheel.currentSlot_)[it]?.toList.map (·, true)
      appended := loop.appended ++ run.coming.drop (loop.run.coming.length - 1) } := by
  unfold turn
  simp only [phase]

theorem turn_of_ticking {it position : Nat}
    (phase : (loop.run.visit it).phase = .ticking position) :
    loop.turn behaviour it = {
      run := loop.run.visit it
      called := loop.called
      visits := loop.visits ++ (loop.run.wheel.slot loop.run.wheel.currentSlot_)[it]?.toList.map
        (·, decide (WheelPhase.ticking position = .ticking it))
      appended := loop.appended ++
        (loop.run.visit it).coming.drop (loop.run.coming.length - 1) } := by
  unfold turn
  simp only [phase]

theorem drop_behind {run after : WheelRun Callback} {task : Nat} {rest more : List Nat}
    (cons : run.coming = task :: rest) (coming : after.coming = rest ++ more) :
    after.coming.drop (run.coming.length - 1) = more := by
  rw [cons, coming]
  exact List.drop_left' rfl

section Turn

variable {it task : Nat} {content : Task Callback} (ready : loop.run.Ready)
  (phase : loop.run.phase = .ticking it)
  (here : (loop.run.wheel.slot loop.run.wheel.currentSlot_)[it]? = some task)
  (found : loop.run.wheel.tasks[task]? = some content)
include ready phase here found

theorem turned_of_rotates (rotates : 0 < content.rotations_) :
    Turned loop (loop.turn behaviour it) task
      ((loop.run.wheel.slot loop.run.wheel.currentSlot_).drop (it + 1)) [] := by
  have sound := ready.sound
  have visited := WheelRun.visit_of_rotates here found rotates
  have cons := WheelRun.coming_eq_cons phase here
  have passed : loop.run.wheel.reached task = false := by
    simp [TimeWheel.reached, found, rotates]
  have fresh : task ∉ (loop.run.wheel.slot loop.run.wheel.currentSlot_).drop (it + 1) :=
    @WheelRun.Sound.not_coming _ _ (sound.enter phase here) it task rfl
  have coming : (loop.run.visit it).coming =
      (loop.run.wheel.slot loop.run.wheel.currentSlot_).drop (it + 1) := by
    rw [visited]
    rfl
  have visitPhase : (loop.run.visit it).phase = .ticking (it + 1) := by
    rw [visited]
  rw [turn_of_ticking visitPhase]
  constructor
  · dsimp only
    rw [visited]
    refine ⟨sound.decreaseRotations phase here found rotates, ?_⟩
    exact ready.timely.modifyTask fun _ _ repeats => ⟨repeats, rfl⟩
  · exact ⟨it + 1, visitPhase⟩
  · dsimp only
    rw [coming, List.append_nil]
  · simp [here, passed]
  · exact congrArg _ (drop_behind cons (coming.trans (List.append_nil _).symm))
  · intro other membership
    cases membership
  · intro other membership
    have differs : other ≠ task := by
      rintro rfl
      exact fresh membership
    dsimp only
    rw [visited]
    apply WheelRun.reached_congr
    exact List.getElem?_modify_ne _ _ (Ne.symm differs)
  · exact fun _ => rfl

theorem turned_of_callback (reached : ¬ 0 < content.rotations_) {callback : Callback}
    (callable : content.fun_ = some callback)
    (inRange : ∀ action ∈ behaviour loop.called, action.InRange) :
    ∃ more, Turned loop (loop.turn behaviour it) task
      ((loop.run.wheel.slot loop.run.wheel.currentSlot_).drop (it + 1)) more := by
  have visited := WheelRun.visit_of_callback here found reached callable
  have cons := WheelRun.coming_eq_cons phase here
  have executed : loop.run.wheel.reached task = true := by
    simp [TimeWheel.reached, found, reached]
  have visitPhase : (loop.run.visit it).phase = .running it task := by
    rw [visited]
  have entered : (loop.run.visit it).Ready := by
    rw [visited]
    exact ⟨(ready.sound.enter phase here).record _, ready.timely⟩
  obtain ⟨called, same, first, grows⟩ := entered.performAll inRange
  obtain ⟨finished, second, grown⟩ := called.afterExec (same.trans visitPhase)
  have step : ((behaviour loop.called).foldl Action.perform (loop.run.visit it)).next .finish =
      { (behaviour loop.called).foldl Action.perform (loop.run.visit it) with
        wheel := ((behaviour loop.called).foldl Action.perform
          (loop.run.visit it)).wheel.afterExec it task
        phase := .ticking it } := by
    simp only [WheelRun.next, same.trans visitPhase]
  rw [← step] at finished grown
  have all := grows.trans grown
  have rest : (loop.run.visit it).coming =
      (loop.run.wheel.slot loop.run.wheel.currentSlot_).drop (it + 1) := by
    rw [visited]
    rfl
  have coming := all.coming
  rw [rest] at coming
  refine ⟨first ++ second, ?_⟩
  rw [turn_of_running visitPhase]
  constructor
  · exact finished
  · exact ⟨it, by rw [step]⟩
  · exact coming
  · simp [here, executed]
  · exact congrArg _ (drop_behind cons coming)
  · exact all.waiting
  · intro other membership
    rw [all.kept other (rest ▸ membership), visited]
  · intro passed
    rw [executed] at passed
    cases passed

theorem turned_of_removed (reached : ¬ 0 < content.rotations_) (removed : content.fun_ = none) :
    ∃ more, Turned loop (loop.turn behaviour it) task
      ((loop.run.wheel.slot loop.run.wheel.currentSlot_).drop (it + 1)) more := by
  have visited := WheelRun.visit_of_removed here found reached removed
  have cons := WheelRun.coming_eq_cons phase here
  have executed : loop.run.wheel.reached task = true := by
    simp [TimeWheel.reached, found, reached]
  have visitPhase : (loop.run.visit it).phase = .ticking it := by
    rw [visited]
    exact phase
  have entered : WheelRun.Ready { loop.run with phase := .running it task } :=
    ⟨ready.sound.enter phase here, ready.timely⟩
  obtain ⟨finished, more, grown⟩ := entered.afterExec rfl
  have step : loop.run.visit it = { loop.run with
      wheel := loop.run.wheel.afterExec it task
      phase := .ticking it } := by
    rw [visited, ← phase]
  dsimp only at finished grown
  rw [← step] at finished grown
  refine ⟨more, ?_⟩
  rw [turn_of_ticking visitPhase]
  constructor
  · exact finished
  · exact ⟨it, visitPhase⟩
  · exact grown.coming
  · simp [here, executed]
  · exact congrArg _ (drop_behind cons grown.coming)
  · exact grown.waiting
  · exact grown.kept
  · intro passed
    rw [executed] at passed
    cases passed

end Turn

/-- The loop body, on whatever is under the iterator. -/
theorem turned (ready : loop.run.Ready) {it task : Nat} {rest : List Nat}
    (phase : loop.run.phase = .ticking it) (coming : loop.run.coming = task :: rest)
    (inRange : ∀ execution, ∀ action ∈ behaviour execution, action.InRange) :
    it < (loop.run.wheel.slot loop.run.wheel.currentSlot_).length ∧
      ∃ more, Turned loop (loop.turn behaviour it) task rest more := by
  have inside : it < (loop.run.wheel.slot loop.run.wheel.currentSlot_).length := by
    by_contra exhausted
    unfold WheelRun.coming at coming
    rw [phase] at coming
    change List.drop it _ = _ at coming
    rw [List.drop_eq_nil_of_le (Nat.le_of_not_lt exhausted)] at coming
    cases coming
  obtain ⟨other, content, here, found⟩ := ready.sound.at_iterator inside
  rw [WheelRun.coming_eq_cons phase here, List.cons.injEq] at coming
  obtain ⟨rfl, rfl⟩ := coming
  refine ⟨inside, ?_⟩
  by_cases rotates : 0 < content.rotations_
  · exact ⟨[], turned_of_rotates ready phase here found rotates⟩
  · cases callable : content.fun_ with
    | some callback =>
        exact turned_of_callback ready phase here found rotates callable (inRange _)
    | none => exact turned_of_removed ready phase here found rotates callable

/-- One look at the iterator more is enough for one more turn. -/
theorem iterate_turn {it fuel : Nat} (phase : loop.run.phase = .ticking it)
    (inside : it < (loop.run.wheel.slot loop.run.wheel.currentSlot_).length) :
    iterate behaviour (fuel + 1) loop = iterate behaviour fuel (loop.turn behaviour it) := by
  rw [iterate]
  simp only [phase, if_pos inside]

section Returns

variable (inRange : ∀ execution, ∀ action ∈ behaviour execution, action.InRange)
include inRange

theorem returns_of_waiting {fresh : List Nat} (ready : loop.run.Ready)
    (phase : ∃ it, loop.run.phase = .ticking it) (coming : loop.run.coming = fresh)
    (waiting : ∀ task ∈ fresh, loop.run.wheel.reached task = false) :
    ∃ fuel finish, iterate behaviour fuel loop = some finish ∧
      finish.visits = loop.visits ++ fresh.map (·, false) ∧
      finish.appended = loop.appended := by
  induction fresh generalizing loop with
  | nil =>
      obtain ⟨it, ticking⟩ := phase
      refine ⟨1, { loop with run := loop.run.next .endTick }, ?_, ?_, rfl⟩
      · unfold WheelRun.coming at coming
        rw [ticking] at coming
        have exhausted := List.drop_eq_nil_iff.mp coming
        rw [iterate]
        simp only [ticking]
        exact if_neg (Nat.not_lt.mpr exhausted)
      · exact (List.append_nil _).symm
  | cons task fresh inductionHypothesis =>
      obtain ⟨it, ticking⟩ := phase
      obtain ⟨inside, more, turned⟩ := turned ready ticking coming inRange
      have passed := waiting task List.mem_cons_self
      obtain rfl := turned.passed passed
      have coming := turned.coming
      rw [List.append_nil] at coming
      obtain ⟨fuel, finish, returned, visits, appended⟩ :=
        inductionHypothesis turned.ready turned.phase coming fun other membership => by
          rw [turned.kept other membership]
          exact waiting other (List.mem_cons_of_mem _ membership)
      refine ⟨fuel + 1, finish, (iterate_turn ticking inside).trans returned, ?_, ?_⟩
      · rw [visits, turned.visits, passed, List.append_assoc]
        rfl
      · rw [appended, turned.appended, List.append_nil]

/-- The tasks that were in the list first are left one after another; what they
bring waits behind them. -/
theorem returns {old fresh : List Nat} (ready : loop.run.Ready)
    (phase : ∃ it, loop.run.phase = .ticking it) (coming : loop.run.coming = old ++ fresh)
    (waiting : ∀ task ∈ fresh, loop.run.wheel.reached task = false) :
    ∃ fuel finish more, iterate behaviour fuel loop = some finish ∧
      finish.visits = loop.visits ++ old.map (fun task => (task, loop.run.wheel.reached task)) ++
        (fresh ++ more).map (·, false) ∧
      finish.appended = loop.appended ++ more := by
  induction old generalizing loop fresh with
  | nil =>
      obtain ⟨fuel, finish, returned, visits, appended⟩ :=
        returns_of_waiting inRange ready phase coming waiting
      refine ⟨fuel, finish, [], returned, ?_, ?_⟩
      · rw [visits, List.map_nil, List.append_nil, List.append_nil, List.nil_append]
      · rw [appended, List.append_nil]
  | cons task old inductionHypothesis =>
      obtain ⟨it, ticking⟩ := phase
      obtain ⟨inside, brought, turned⟩ := turned ready ticking coming inRange
      have behind : ∀ other ∈ fresh ++ brought,
          (loop.turn behaviour it).run.wheel.reached other = false := by
        intro other membership
        rcases List.mem_append.mp membership with before | new
        · rw [turned.kept other (List.mem_append_right _ before)]
          exact waiting other before
        · exact turned.waiting other new
      obtain ⟨fuel, finish, more, returned, visits, appended⟩ :=
        inductionHypothesis turned.ready turned.phase
          (turned.coming.trans (List.append_assoc ..)) behind
      refine ⟨fuel + 1, finish, brought ++ more, (iterate_turn ticking inside).trans returned,
        ?_, ?_⟩
      · have same : old.map (fun task =>
            (task, (loop.turn behaviour it).run.wheel.reached task)) =
            old.map fun task => (task, loop.run.wheel.reached task) := by
          apply List.map_congr_left
          intro other membership
          rw [turned.kept other (List.mem_append_left _ membership)]
        rw [visits, turned.visits, same]
        simp only [List.append_assoc, List.map_cons, List.cons_append, List.nil_append]
      · rw [appended, turned.appended, List.append_assoc]

end Returns

/-- However the callbacks behave, `tick` returns: it calls `exec` once on each
task that was in the current slot with no rotation left, on no other task, and
passes over all that has come to the end of the slot meanwhile. -/
theorem tick_returns {slotLen : Nat} (positive : 0 < slotLen)
    {events : List (WheelRun.Event Callback)} {run : WheelRun Callback}
    (reached : (WheelRun.freeSystem slotLen).Execution events run) (idle : run.phase = .idle)
    (timely : ∀ task content, task ∈ run.wheel.held → run.wheel.tasks[task]? = some content →
      content.Repeats → 1 ≤ content.timeout_)
    (behaviour : Nat → List (Action Callback))
    (inRange : ∀ execution, ∀ action ∈ behaviour execution, action.InRange) :
    ∃ fuel finish, tick behaviour fuel run = some finish ∧
      finish.visits = (run.wheel.slot run.wheel.currentSlot_).map
          (fun task => (task, run.wheel.reached task)) ++
        finish.appended.map (·, false) ∧
      (run.wheel.slot run.wheel.currentSlot_).Nodup := by
  have sound := WheelRun.Sound.of_execution positive reached
  have ready : WheelRun.Ready (run.next .beginTick) := ⟨sound.beginTick idle, timely⟩
  obtain ⟨fuel, finish, more, returned, visits, appended⟩ :=
    @returns _ _ { run := run.next .beginTick, called := 0, visits := [], appended := [] }
      inRange (run.wheel.slot run.wheel.currentSlot_) [] ready ⟨0, rfl⟩
      (List.append_nil _).symm (fun _ membership => by cases membership)
  refine ⟨fuel, finish, returned, ?_, TimeWheel.slot_nodup sound.nodup _⟩
  rw [visits, appended]
  rfl

/-- The callback adds a task for two rounds later, and its own task comes back
after one: both go to the end of the list under way. -/
theorem tick_returns_grown :
    let events : List (WheelRun.Event Nat) :=
      [.addTask 2 10 3, .beginTick, .visit, .endTick, .beginTick, .endTick]
    let run := events.foldl WheelRun.next (.start 2)
    let behaviour : Nat → List (Action Nat) := fun execution =>
      if execution = 0 then [.addTask 4 11 (-1), .delTask 7] else []
    (tick behaviour 4 run).map TickLoop.visits = some [(0, true), (1, false), (0, false)] ∧
      ∃ fuel finish, tick behaviour fuel run = some finish ∧
        finish.visits = [(0, true)] ++ finish.appended.map (·, false) := by
  intro events run behaviour
  have reached : (WheelRun.freeSystem 2).Execution events run :=
    System.Execution.foldl (WheelRun.freeSystem 2) (fun run event => run.Enabled event)
      (fun _ _ enabled => ⟨enabled, rfl⟩) rfl (by decide +kernel)
  have tasks : run.wheel.tasks = [⟨0, 2, 3, some 10⟩] := by decide +kernel
  have timely : ∀ task content, task ∈ run.wheel.held → run.wheel.tasks[task]? = some content →
      content.Repeats → 1 ≤ content.timeout_ := by
    intro task content _ found _
    have isTask := List.mem_of_getElem? found
    rw [tasks] at isTask
    rw [List.mem_singleton.mp isTask]
    decide
  have inRange : ∀ execution, ∀ action ∈ behaviour execution, action.InRange := by
    intro execution
    by_cases first : execution = 0
    · subst first
      decide
    · simp [behaviour, first]
  obtain ⟨fuel, finish, returned, visits, _⟩ :=
    tick_returns (by decide) reached (by decide +kernel) timely behaviour inRange
  have current : (run.wheel.slot run.wheel.currentSlot_).map
      (fun task => (task, run.wheel.reached task)) = [(0, true)] := by decide +kernel
  rw [current] at visits
  exact ⟨by decide +kernel, fuel, finish, returned, visits⟩

end TickLoop

end GdRpc.Util
