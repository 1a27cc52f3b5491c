import GdRpc.Util.TimingWheel

/-!
# What the wheel holds

A deadline is encoded in three places: the slot, the rotations left and the
current slot. The relation below decodes it: a task met in a slot is due at
the tick in which the wheel next visits it, plus one round per rotation left.
In the current slot the iterator separates the tasks already visited in this
tick from those still to come.
-/

namespace GdRpc.Util

open GdRpc.Library

universe u

variable {Callback : Type u}

namespace Task

/-- `tick` schedules the task again once it has been executed. -/
def Repeats (content : Task Callback) : Prop :=
  1 < content.times_ ∨ content.times_ = -1

instance : DecidablePred (Repeats : Task Callback → Prop) := fun content =>
  inferInstanceAs (Decidable (1 < content.times_ ∨ content.times_ = -1))

/-- The task as it is scheduled again. -/
def again (content : Task Callback) (slotLen : Nat) : Task Callback :=
  { content with
    times_ := if 1 < content.times_ then content.times_ - 1 else content.times_
    rotations_ := content.timeout_.tdiv slotLen }

end Task

namespace TimeWheel

@[simp]
theorem slot_new (msLen index : Nat) :
    (TimeWheel.new msLen : TimeWheel Callback).slot index = [] := by
  simp only [slot, new, List.getD_eq_getElem?_getD, List.getElem?_replicate]
  split <;> rfl

theorem slot_pushBack (wheel : TimeWheel Callback) {index task other : Nat}
    (inside : index < wheel.slots_.length) :
    (wheel.pushBack index task).slot other =
      wheel.slot other ++ if other = index then [task] else [] := by
  unfold slot pushBack
  by_cases same : other = index
  · subst same
    simp [List.getD_eq_getElem?_getD, inside]
  · simp [List.getD_eq_getElem?_getD, same, Ne.symm same]

theorem slot_erase (wheel : TimeWheel Callback) (it other : Nat) :
    (wheel.erase it).slot other =
      if other = wheel.currentSlot_ then (wheel.slot other).eraseIdx it
      else wheel.slot other := by
  unfold slot erase
  by_cases same : other = wheel.currentSlot_
  · subst same
    simp only [List.getD_eq_getElem?_getD, List.getElem?_modify, if_true]
    cases wheel.slots_[wheel.currentSlot_]? <;> simp
  · simp [List.getD_eq_getElem?_getD, same, Ne.symm same]

theorem slot_erase_sublist (wheel : TimeWheel Callback) (it index : Nat) :
    ((wheel.erase it).slot index).Sublist (wheel.slot index) := by
  rw [wheel.slot_erase]
  split
  · exact List.eraseIdx_sublist _ _
  · exact List.Sublist.refl _

section Erase

variable {wheel : TimeWheel Callback} {it : Nat}

theorem take_slot_erase (inside : it < (wheel.slot wheel.currentSlot_).length) :
    ((wheel.erase it).slot wheel.currentSlot_).take it =
      (wheel.slot wheel.currentSlot_).take it := by
  rw [wheel.slot_erase, if_pos rfl, List.eraseIdx_eq_take_drop_succ,
    List.take_left' (List.length_take_of_le (Nat.le_of_lt inside))]

theorem drop_slot_erase (inside : it < (wheel.slot wheel.currentSlot_).length) :
    ((wheel.erase it).slot wheel.currentSlot_).drop it =
      (wheel.slot wheel.currentSlot_).drop (it + 1) := by
  rw [wheel.slot_erase, if_pos rfl, List.eraseIdx_eq_take_drop_succ,
    List.drop_left' (List.length_take_of_le (Nat.le_of_lt inside))]

theorem le_length_slot_erase (inside : it < (wheel.slot wheel.currentSlot_).length) :
    it ≤ ((wheel.erase it).slot wheel.currentSlot_).length := by
  rw [wheel.slot_erase, if_pos rfl, List.length_eraseIdx_of_lt inside]
  exact Nat.le_sub_one_of_lt inside

theorem mem_slot_erase_of_ne {index task other : Nat}
    (here : (wheel.slot wheel.currentSlot_)[it]? = some task) (differs : other ≠ task)
    (membership : other ∈ wheel.slot index) : other ∈ (wheel.erase it).slot index := by
  rw [wheel.slot_erase]
  split
  next same =>
    subst same
    rw [List.mem_eraseIdx_iff_getElem?]
    obtain ⟨position, atPosition⟩ := List.mem_iff_getElem?.mp membership
    refine ⟨position, ?_, atPosition⟩
    rintro rfl
    exact differs (Option.some.inj (atPosition.symm.trans here))
  next => exact membership

end Erase

@[simp]
theorem slot_modifyTask (wheel : TimeWheel Callback) (task other : Nat)
    (change : Task Callback → Task Callback) :
    (wheel.modifyTask task change).slot other = wheel.slot other := rfl

theorem mem_pushBack (wheel : TimeWheel Callback) {index task slot other : Nat}
    (inside : index < wheel.slots_.length) :
    other ∈ (wheel.pushBack index task).slot slot ↔
      other ∈ wheel.slot slot ∨ slot = index ∧ other = task := by
  rw [wheel.slot_pushBack inside, List.mem_append]
  by_cases same : slot = index
  · simp [same]
  · simp [same]

theorem lt_of_mem_pushBack (wheel : TimeWheel Callback) (content : Task Callback)
    {target : Nat} (inside : target < wheel.slots_.length)
    (bounded : ∀ index, ∀ task ∈ wheel.slot index, task < wheel.tasks.length)
    {index task : Nat}
    (membership : task ∈ ({ wheel with tasks := wheel.tasks ++ [content] }.pushBack target
      wheel.tasks.length).slot index) :
    task < (wheel.tasks ++ [content]).length := by
  rw [List.length_append, List.length_singleton]
  rcases (mem_pushBack _ inside).mp membership with before | ⟨_, rfl⟩
  · exact Nat.lt_succ_of_lt (bounded index task before)
  · exact Nat.lt_succ_self _

theorem sorted_pushBack (wheel : TimeWheel Callback) (content : Task Callback) {target : Nat}
    (inside : target < wheel.slots_.length)
    (bounded : ∀ index, ∀ task ∈ wheel.slot index, task < wheel.tasks.length)
    (sorted : ∀ index, (wheel.slot index).Pairwise (· < ·)) (index : Nat) :
    (({ wheel with tasks := wheel.tasks ++ [content] }.pushBack target
      wheel.tasks.length).slot index).Pairwise (· < ·) := by
  have slots := @slot_pushBack _ { wheel with tasks := wheel.tasks ++ [content] } target
    wheel.tasks.length index inside
  rw [slots, List.pairwise_append]
  refine ⟨sorted index, by split <;> simp, ?_⟩
  intro before isBefore new isNew
  obtain rfl : new = wheel.tasks.length := by
    split at isNew
    · exact List.mem_singleton.mp isNew
    · cases isNew
  exact bounded index before isBefore

theorem schedule_natCast (wheel : TimeWheel Callback) (timeout : Nat)
    (callback : Callback) (times : Int)
    (small : timeout < 2 ^ 31 * wheel.slotLen) :
    wheel.schedule timeout callback times =
      { wheel with
        tasks := wheel.tasks ++ [Task.mk (timeout / wheel.slotLen : Nat)
          (toInt timeout) times (some callback)] }.pushBack
        ((wheel.currentSlot_ + timeout % wheel.slotLen) % wheel.slotLen)
        wheel.tasks.length := by
  have rounds : timeout / wheel.slotLen < 2 ^ 31 := by
    apply Nat.div_lt_of_lt_mul
    rwa [Nat.mul_comm]
  have rotations : toInt ((timeout : Int).tdiv wheel.slotLen) =
      (timeout / wheel.slotLen : Nat) := by
    rw [Int.tdiv_eq_ediv_of_nonneg (Int.natCast_nonneg _), ← Int.natCast_ediv]
    exact toInt_of_lt (Int.natCast_nonneg _) (by exact_mod_cast rounds)
  have position : ((wheel.currentSlot_ +
      (timeout : Int).tmod wheel.slotLen).tmod wheel.slotLen).toNat =
        (wheel.currentSlot_ + timeout % wheel.slotLen) % wheel.slotLen := by
    rw [Int.tmod_eq_emod_of_nonneg (Int.natCast_nonneg _), ← Int.natCast_emod,
      ← Int.natCast_add, Int.tmod_eq_emod_of_nonneg (Int.natCast_nonneg _),
      ← Int.natCast_emod, Int.toNat_natCast]
  simp only [schedule, rotations, position]

theorem delTask_eq (wheel : TimeWheel Callback) (task : Nat) :
    wheel.delTask task = { wheel with tasks := (wheel.delTask task).tasks } := by
  unfold delTask
  split <;> rfl

theorem delTask_tasks_of_ne (wheel : TimeWheel Callback) {task other : Nat}
    (differs : other ≠ task) :
    (wheel.delTask task).tasks[other]? = wheel.tasks[other]? := by
  unfold delTask
  split
  · simp [modifyTask, differs.symm]
  · rfl

theorem delTask_tasks_of_alive {wheel : TimeWheel Callback} {task : Nat}
    (alive : wheel.Alive task) :
    (wheel.delTask task).tasks =
      wheel.tasks.modify task fun content => { content with fun_ := none } := by
  unfold delTask
  rw [if_pos alive]
  rfl

theorem delTask_tasks_of_expired {wheel : TimeWheel Callback} {task : Nat}
    (expired : ¬ wheel.Alive task) : (wheel.delTask task).tasks = wheel.tasks := by
  unfold delTask
  rw [if_neg expired]

theorem mem_modifyTask_tasks (wheel : TimeWheel Callback) {task : Nat}
    {change : Task Callback → Task Callback} {content : Task Callback}
    (membership : content ∈ (wheel.modifyTask task change).tasks)
    (keeps : ∀ content, (change content).times_ = content.times_) :
    ∃ before ∈ wheel.tasks, before.times_ = content.times_ := by
  obtain ⟨index, bound, rfl⟩ := List.mem_iff_getElem.mp membership
  simp only [modifyTask, List.length_modify] at bound
  refine ⟨wheel.tasks[index], List.getElem_mem bound, ?_⟩
  simp only [modifyTask, List.getElem_modify]
  split
  · exact (keeps _).symm
  · rfl

theorem mem_delTask_tasks (wheel : TimeWheel Callback) (task : Nat)
    {content : Task Callback} (membership : content ∈ (wheel.delTask task).tasks) :
    ∃ before ∈ wheel.tasks, before.times_ = content.times_ := by
  unfold delTask at membership
  split at membership
  · exact wheel.mem_modifyTask_tasks membership fun _ => rfl
  · exact ⟨content, membership, rfl⟩

/-- The slot a task with this timeout is put into. -/
def slotAhead (wheel : TimeWheel Callback) (timeout : Int) : Nat :=
  ((wheel.currentSlot_ + timeout.tmod wheel.slotLen).tmod wheel.slotLen).toNat

theorem slotAhead_lt (wheel : TimeWheel Callback) (positive : 0 < wheel.slotLen)
    (timeout : Int) : wheel.slotAhead timeout < wheel.slotLen := by
  have below := Int.tmod_lt_of_pos (wheel.currentSlot_ + timeout.tmod wheel.slotLen)
    (show (0 : Int) < wheel.slotLen from Int.natCast_pos.mpr positive)
  unfold slotAhead
  omega

/-- The wheel with the task scheduled again and its old node still in place. -/
def reschedule (wheel : TimeWheel Callback) (task : Nat) (content : Task Callback) :
    TimeWheel Callback :=
  (wheel.modifyTask task fun _ => content.again wheel.slotLen).pushBack
    (wheel.slotAhead content.timeout_) task

section AfterExec

variable {wheel : TimeWheel Callback} {task : Nat} {content : Task Callback}
  (found : wheel.tasks[task]? = some content) (it : Nat)
include found

theorem afterExec_of_repeats (repeats : content.Repeats) :
    wheel.afterExec it task = (wheel.reschedule task content).erase it := by
  unfold afterExec
  simp only [found]
  exact if_pos repeats

theorem afterExec_of_not_repeats (single : ¬ content.Repeats) :
    wheel.afterExec it task = wheel.erase it := by
  unfold afterExec
  simp only [found]
  exact if_neg single

theorem afterExec_tasks_of_repeats (repeats : content.Repeats) :
    (wheel.afterExec it task).tasks =
      wheel.tasks.modify task fun _ => content.again wheel.slotLen := by
  rw [afterExec_of_repeats found it repeats]
  rfl

theorem afterExec_tasks_of_not_repeats (single : ¬ content.Repeats) :
    (wheel.afterExec it task).tasks = wheel.tasks := by
  rw [afterExec_of_not_repeats found it single]
  rfl

theorem afterExec_slotLen : (wheel.afterExec it task).slotLen = wheel.slotLen := by
  by_cases repeats : content.Repeats
  · rw [afterExec_of_repeats found it repeats]
    rfl
  · rw [afterExec_of_not_repeats found it repeats]
    rfl

end AfterExec

theorem afterExec_single (wheel : TimeWheel Callback) (it task : Nat)
    (single : ∀ content ∈ wheel.tasks,
      ¬ (1 < content.times_ ∨ content.times_ = -1)) :
    wheel.afterExec it task = wheel.erase it := by
  cases found : wheel.tasks[task]? with
  | none =>
      unfold afterExec
      simp only [found]
  | some content =>
      exact afterExec_of_not_repeats found it (single content (List.mem_of_getElem? found))

end TimeWheel

namespace WheelRun

/-! ## The loop body of `tick` -/

section Visit

variable {run : WheelRun Callback} {it task : Nat} {content : Task Callback}
  (here : (run.wheel.slot run.wheel.currentSlot_)[it]? = some task)
  (found : run.wheel.tasks[task]? = some content)
include here found

theorem visit_of_rotates (rotates : 0 < content.rotations_) :
    run.visit it = { run with
      wheel := run.wheel.modifyTask task fun content =>
        { content with rotations_ := content.rotations_ - 1 }
      phase := .ticking (it + 1) } := by
  unfold visit
  simp only [here, found]
  exact if_pos rotates

theorem visit_of_callback (reached : ¬ 0 < content.rotations_) {callback : Callback}
    (callable : content.fun_ = some callback) :
    run.visit it = { run with
      phase := .running it task
      ran := run.ran ++ [⟨run.ticks, task, callback⟩] } := by
  unfold visit
  simp only [here, found, if_neg reached, callable]

theorem visit_of_removed (reached : ¬ 0 < content.rotations_) (removed : content.fun_ = none) :
    run.visit it = { run with wheel := run.wheel.afterExec it task } := by
  unfold visit
  simp only [here, found, if_neg reached, removed]

end Visit

end WheelRun

namespace WheelPhase

/-- How much of the current slot has been visited in the tick under way. -/
def visited : WheelPhase → Nat
  | idle => 0
  | ticking it => it
  | running it _ => it

/-- Where the part of the current slot still to be visited begins. The task
whose callback is running lies in between. -/
def coming : WheelPhase → Nat
  | idle => 0
  | ticking it => it
  | running it _ => it + 1

/-- The phase of the queue that corresponds. -/
def abstract : WheelPhase → DeadlineQueue.Phase
  | idle => .idle
  | ticking _ => .ticking
  | running _ _ => .running

end WheelPhase

/-- The distance from the current slot to another one is the time until the
wheel visits it. -/
theorem distance_mod {slotLen ticks index : Nat} (inside : index < slotLen) :
    (ticks + (index + slotLen - ticks % slotLen) % slotLen) % slotLen = index := by
  have small := Nat.mod_lt ticks (show 0 < slotLen by omega)
  rw [Nat.add_mod, Nat.mod_mod, ← Nat.add_mod]
  have split := Nat.div_add_mod ticks slotLen
  have regrouped : ticks + (index + slotLen - ticks % slotLen) =
      index + slotLen * (ticks / slotLen + 1) := by
    rw [Nat.mul_add, Nat.mul_one]
    omega
  rw [regrouped, Nat.add_mul_mod_self_left, Nat.mod_eq_of_lt inside]

theorem distance_ahead {slotLen current timeout : Nat} (inside : current < slotLen) :
    ((current + timeout % slotLen) % slotLen + slotLen - current) % slotLen =
      timeout % slotLen := by
  have small := Nat.mod_lt timeout (show 0 < slotLen by omega)
  by_cases wraps : current + timeout % slotLen < slotLen
  · rw [Nat.mod_eq_of_lt wraps,
      show current + timeout % slotLen + slotLen - current =
        timeout % slotLen + slotLen by omega,
      Nat.add_mod_right, Nat.mod_mod]
  · have wrapped : (current + timeout % slotLen) % slotLen =
        current + timeout % slotLen - slotLen := by
      rw [Nat.mod_eq_sub_mod (by omega), Nat.mod_eq_of_lt (by omega)]
    rw [wrapped,
      show current + timeout % slotLen - slotLen + slotLen - current =
        timeout % slotLen by omega,
      Nat.mod_mod]

theorem distance_succ {slotLen current index : Nat} (inside : index < slotLen)
    (currentInside : current < slotLen) :
    (index + slotLen - (current + 1) % slotLen) % slotLen + 1 =
      if index = current then slotLen
      else (index + slotLen - current) % slotLen := by
  have next : (current + 1) % slotLen =
      if current + 1 = slotLen then 0 else current + 1 := by
    split
    next last => rw [last, Nat.mod_self]
    next => exact Nat.mod_eq_of_lt (by omega)
  rw [next]
  have reduce : ∀ value, value < 2 * slotLen → value % slotLen =
      if value < slotLen then value else value - slotLen := by
    intro value bound
    split
    next small => exact Nat.mod_eq_of_lt small
    next large => rw [Nat.mod_eq_sub_mod (by omega), Nat.mod_eq_of_lt (by omega)]
  rw [reduce _ (by split <;> omega), reduce _ (by omega)]
  repeat' split
  all_goals omega

/-- The task object and the queue entry describe the same pending task, and
the rotations count the rounds from tick number `visit` to its deadline. -/
def Encodes (tasks : List (Task Callback))
    (entries : List (DeadlineQueue.Entry Callback)) (slotLen task visit : Nat) :
    Prop :=
  ∃ content entry, tasks[task]? = some content ∧ entries[task]? = some entry ∧
    entry.done = false ∧
    (∃ rotations : Nat, content.rotations_ = rotations ∧
      entry.deadline = visit + rotations * slotLen) ∧
    content.fun_ = if entry.deleted then none else some entry.callback

theorem Encodes.congr {tasks tasks' : List (Task Callback)}
    {entries entries' : List (DeadlineQueue.Entry Callback)}
    {slotLen task visit : Nat} (encodes : Encodes tasks entries slotLen task visit)
    (sameTask : tasks'[task]? = tasks[task]?)
    (sameEntry : entries'[task]? = entries[task]?) :
    Encodes tasks' entries' slotLen task visit := by
  unfold Encodes
  rw [sameTask, sameEntry]
  exact encodes

theorem Encodes.append {tasks : List (Task Callback)}
    {entries : List (DeadlineQueue.Entry Callback)} {slotLen task visit : Nat}
    (encodes : Encodes tasks entries slotLen task visit) (content : Task Callback)
    (entry : DeadlineQueue.Entry Callback) :
    Encodes (tasks ++ [content]) (entries ++ [entry]) slotLen task visit := by
  have known := encodes
  obtain ⟨_, _, foundTask, foundEntry, _⟩ := known
  apply encodes.congr
  · exact List.getElem?_append_left (List.getElem?_eq_some_iff.mp foundTask).1
  · exact List.getElem?_append_left (List.getElem?_eq_some_iff.mp foundEntry).1

/-- The new task is encoded for the visit its rotations lead to. -/
theorem Encodes.last {tasks : List (Task Callback)}
    {entries : List (DeadlineQueue.Entry Callback)} (size : tasks.length = entries.length)
    {slotLen timeout ticks visit : Nat} (callback : Callback) (times : Int)
    (reaches : visit + timeout / slotLen * slotLen = ticks + timeout) :
    Encodes
      (tasks ++ [Task.mk (timeout / slotLen : Nat) (toInt timeout) times (some callback)])
      (entries ++ [DeadlineQueue.Entry.mk (ticks + timeout) callback false false])
      slotLen tasks.length visit := by
  refine ⟨_, ⟨ticks + timeout, callback, false, false⟩, List.getElem?_concat_length, ?_, rfl,
    ⟨timeout / slotLen, rfl, reaches.symm⟩, rfl⟩
  rw [size]
  exact List.getElem?_concat_length

/-- A rotation less is made up for by a round. -/
theorem Encodes.decreaseRotations {tasks : List (Task Callback)}
    {entries : List (DeadlineQueue.Entry Callback)} {slotLen task visit : Nat}
    (encodes : Encodes tasks entries slotLen task visit) {content : Task Callback}
    (found : tasks[task]? = some content) (waits : 0 < content.rotations_) :
    Encodes
      (tasks.modify task fun content => { content with rotations_ := content.rotations_ - 1 })
      entries slotLen task (visit + slotLen) := by
  obtain ⟨content', entry, foundTask, foundEntry, pending,
    ⟨rotations, counted, deadline⟩, callback⟩ := encodes
  obtain rfl : content = content' := Option.some.inj (found.symm.trans foundTask)
  obtain ⟨left, rfl⟩ : ∃ left, rotations = left + 1 :=
    ⟨rotations - 1, by omega⟩
  refine ⟨{ content with rotations_ := content.rotations_ - 1 }, entry,
    by simp [found], foundEntry, pending, ⟨left, by simp [counted], ?_⟩, callback⟩
  rw [deadline, Nat.add_mul, Nat.one_mul]
  omega

/-- A task found in a slot is due in a tick that visits this slot. -/
theorem Encodes.deadline_mod {tasks : List (Task Callback)}
    {entries : List (DeadlineQueue.Entry Callback)} {slotLen task visit : Nat}
    (encodes : Encodes tasks entries slotLen task visit)
    {entry : DeadlineQueue.Entry Callback} (found : entries[task]? = some entry) :
    entry.deadline % slotLen = visit % slotLen := by
  obtain ⟨_, other, _, here, _, ⟨rotations, _, deadline⟩, _⟩ := encodes
  obtain rfl : other = entry := Option.some.inj (here.symm.trans found)
  rw [deadline, Nat.add_mul_mod_self_right]

/-- The wheel holds what the queue holds, whatever their phases. -/
structure Aligned (run : WheelRun Callback) (queue : DeadlineQueue Callback) :
    Prop where
  positive : 0 < run.wheel.slotLen
  slots : run.wheel.slots_.length = run.wheel.slotLen
  current : run.wheel.currentSlot_ = queue.ticks % run.wheel.slotLen
  ticks : run.ticks = queue.ticks
  ran : run.ran = queue.ran
  iterator : run.phase.coming ≤ (run.wheel.slot run.wheel.currentSlot_).length
  size : run.wheel.tasks.length = queue.entries.length
  single : ∀ content ∈ run.wheel.tasks,
    ¬ (1 < content.times_ ∨ content.times_ = -1)
  bounded : ∀ index, ∀ task ∈ run.wheel.slot index, task < run.wheel.tasks.length
  sorted : ∀ index, (run.wheel.slot index).Pairwise (· < ·)
  others : ∀ index < run.wheel.slotLen, index ≠ run.wheel.currentSlot_ →
    ∀ task ∈ run.wheel.slot index,
      Encodes run.wheel.tasks queue.entries run.wheel.slotLen task (queue.ticks +
        (index + run.wheel.slotLen - run.wheel.currentSlot_) % run.wheel.slotLen)
  visited : ∀ task ∈ (run.wheel.slot run.wheel.currentSlot_).take run.phase.visited,
    Encodes run.wheel.tasks queue.entries run.wheel.slotLen task
      (queue.ticks + run.wheel.slotLen)
  coming : ∀ task ∈ (run.wheel.slot run.wheel.currentSlot_).drop run.phase.coming,
    Encodes run.wheel.tasks queue.entries run.wheel.slotLen task queue.ticks
  present : ∀ (task : Nat) (entry : DeadlineQueue.Entry Callback),
    queue.entries[task]? = some entry → entry.deleted = false →
    entry.done = false → queue.ticks ≤ entry.deadline →
    task ∈ run.wheel.slot (entry.deadline % run.wheel.slotLen)
  executing : ∀ it task, run.phase = .running it task →
    (run.wheel.slot run.wheel.currentSlot_)[it]? = some task ∧
    ∃ entry, queue.entries[task]? = some entry ∧
      (entry.deleted = true ∨ entry.done = true)

namespace Aligned

variable {run : WheelRun Callback} {queue : DeadlineQueue Callback}

theorem current_lt (aligned : Aligned run queue) :
    run.wheel.currentSlot_ < run.wheel.slotLen := by
  rw [aligned.current]
  exact Nat.mod_lt _ aligned.positive

theorem visited_le (aligned : Aligned run queue) :
    run.phase.visited ≤ (run.wheel.slot run.wheel.currentSlot_).length := by
  have iterator := aligned.iterator
  cases phase : run.phase with
  | idle => exact Nat.zero_le _
  | ticking it =>
      rw [phase] at iterator
      exact iterator
  | running it task =>
      rw [phase] at iterator
      exact Nat.le_of_succ_le iterator

theorem encodes_added (aligned : Aligned run queue) (timeout : Nat) (callback : Callback)
    (times : Int) :
    Encodes
      (run.wheel.tasks ++
        [Task.mk (timeout / run.wheel.slotLen : Nat) (toInt timeout) times (some callback)])
      (queue.entries ++
        [DeadlineQueue.Entry.mk (queue.ticks + timeout) callback false false])
      run.wheel.slotLen run.wheel.tasks.length
      (queue.ticks + timeout % run.wheel.slotLen) := by
  apply Encodes.last aligned.size
  have whole := Nat.div_add_mod' timeout run.wheel.slotLen
  omega

theorem addTask (aligned : Aligned run queue) {timeout : Nat}
    (callback : Callback) {times : Int}
    (small : timeout < 2 ^ 31 * run.wheel.slotLen)
    (single : ¬ (1 < times ∨ times = -1)) :
    Aligned { run with wheel := run.wheel.schedule timeout callback times }
      { queue with
        entries := queue.entries ++ [{
          deadline := queue.ticks + timeout
          callback := callback
          deleted := false
          done := false }] } := by
  rw [run.wheel.schedule_natCast timeout callback times small]
  let slotLen := run.wheel.slotLen
  let current := run.wheel.currentSlot_
  let target := (current + timeout % slotLen) % slotLen
  let content := Task.mk (timeout / slotLen : Nat) (toInt timeout) times
    (some callback)
  let entry := DeadlineQueue.Entry.mk (queue.ticks + timeout) callback false false
  have inside : target < run.wheel.slots_.length :=
    aligned.slots ▸ Nat.mod_lt _ aligned.positive
  have slotEq : ∀ index, ({ run.wheel with
      tasks := run.wheel.tasks ++ [content] }.pushBack target
        run.wheel.tasks.length).slot index = run.wheel.slot index ++
          if index = target then [run.wheel.tasks.length] else [] :=
    fun index => TimeWheel.slot_pushBack _ inside
  have memEq : ∀ {index task}, task ∈ ({ run.wheel with
      tasks := run.wheel.tasks ++ [content] }.pushBack target
        run.wheel.tasks.length).slot index ↔ task ∈ run.wheel.slot index ∨
          index = target ∧ task = run.wheel.tasks.length :=
    TimeWheel.mem_pushBack _ inside
  have added := aligned.encodes_added timeout callback times
  have ahead : (target + slotLen - current) % slotLen = timeout % slotLen :=
    distance_ahead aligned.current_lt
  refine ⟨aligned.positive, ?_, aligned.current, aligned.ticks, aligned.ran,
    ?_, ?_, ?_, ?_, ?_, ?_, ?_, ?_, ?_, ?_⟩
  · simpa [TimeWheel.pushBack] using aligned.slots
  · change run.phase.coming ≤ List.length (TimeWheel.slot _ current)
    rw [slotEq, List.length_append]
    exact Nat.le_add_right_of_le aligned.iterator
  · simp [TimeWheel.pushBack, aligned.size]
  · intro content' membership
    rcases List.mem_append.mp membership with before | new
    · exact aligned.single content' before
    · rw [List.mem_singleton.mp new]
      exact single
  · intro index task membership
    exact run.wheel.lt_of_mem_pushBack content inside aligned.bounded membership
  · exact run.wheel.sorted_pushBack content inside aligned.bounded aligned.sorted
  · intro index indexInside differs task membership
    rcases memEq.mp membership with before | ⟨same, rfl⟩
    · exact (aligned.others index indexInside differs task before).append content entry
    · change Encodes _ _ _ _ (queue.ticks + (index + slotLen - current) % slotLen)
      rw [same, ahead]
      exact added
  · intro task membership
    change task ∈ List.take _ (TimeWheel.slot _ current) at membership
    rw [slotEq, List.take_append_of_le_length aligned.visited_le] at membership
    exact (aligned.visited task membership).append content entry
  · intro task membership
    change task ∈ List.drop _ (TimeWheel.slot _ current) at membership
    rw [slotEq, List.drop_append_of_le_length aligned.iterator,
      List.mem_append] at membership
    rcases membership with before | new
    · exact (aligned.coming task before).append content entry
    · split at new
      next same =>
        rw [← same, Nat.add_sub_cancel_left, Nat.mod_self] at ahead
        change Encodes _ _ _ _ (queue.ticks + timeout % slotLen) at added
        rw [← ahead] at added
        rw [List.mem_singleton.mp new]
        exact added
      next => simp at new
  · intro task entry' found alive pending future
    change task ∈ TimeWheel.slot _ (entry'.deadline % slotLen)
    rw [memEq]
    by_cases before : task < queue.entries.length
    · rw [List.getElem?_append_left before] at found
      exact .inl (aligned.present task entry' found alive pending future)
    · have bound := (List.getElem?_eq_some_iff.mp found).1
      rw [List.length_append, List.length_singleton] at bound
      obtain rfl : task = queue.entries.length := by omega
      obtain rfl : entry = entry' := by simpa using found
      have here : (queue.ticks + timeout) % slotLen = target := by
        rw [Nat.add_mod, ← aligned.current]
      exact .inr ⟨here, aligned.size.symm⟩
  · intro it task runs
    obtain ⟨position, entry', found, ended⟩ := aligned.executing it task runs
    have bound := (List.getElem?_eq_some_iff.mp position).1
    refine ⟨?_, entry', ?_, ended⟩
    · change (TimeWheel.slot _ current)[it]? = some task
      rw [slotEq, List.getElem?_append_left bound]
      exact position
    · rw [List.getElem?_append_left (List.getElem?_eq_some_iff.mp found).1]
      exact found

/-- Every task in a slot, the running one apart, is encoded for some tick that
visits the slot. -/
theorem slot_encodes (aligned : Aligned run queue) {index task : Nat}
    (inside : index < run.wheel.slotLen) (differs : index ≠ run.wheel.currentSlot_)
    (membership : task ∈ run.wheel.slot index)
    {entry : DeadlineQueue.Entry Callback}
    (found : queue.entries[task]? = some entry) :
    entry.deadline % run.wheel.slotLen = index := by
  have encodes := aligned.others index inside differs task membership
  rw [encodes.deadline_mod found, aligned.current]
  exact distance_mod inside

theorem delTask (aligned : Aligned run queue) (task : Nat) :
    Aligned { run with wheel := run.wheel.delTask task }
      { queue with
        entries := queue.entries.modify task
          fun entry => { entry with deleted := true } } := by
  let tasks := (run.wheel.delTask task).tasks
  let entries := queue.entries.modify task
    fun entry => { entry with deleted := true }
  have size : tasks.length = run.wheel.tasks.length := by
    simp only [tasks, TimeWheel.delTask]
    split <;> simp [TimeWheel.modifyTask]
  have edit : ∀ index < run.wheel.slotLen, ∀ other ∈ run.wheel.slot index,
      ∀ {visit}, Encodes run.wheel.tasks queue.entries run.wheel.slotLen other visit →
        Encodes tasks entries run.wheel.slotLen other visit := by
    intro index inside other membership visit encodes
    by_cases same : other = task
    · subst same
      obtain ⟨content, entry, foundTask, foundEntry, pending, due, _⟩ := encodes
      have alive : run.wheel.Alive other := ⟨index, aligned.slots ▸ inside, membership⟩
      refine ⟨{ content with fun_ := none }, { entry with deleted := true },
        ?_, ?_, pending, due, rfl⟩
      · simp [tasks, TimeWheel.delTask, alive, TimeWheel.modifyTask, foundTask]
      · simp [entries, foundEntry]
    · apply encodes.congr
      · exact run.wheel.delTask_tasks_of_ne same
      · simp [entries, Ne.symm same]
  rw [run.wheel.delTask_eq task]
  have inCurrent := edit _ aligned.current_lt
  exact {
    positive := aligned.positive
    slots := aligned.slots
    current := aligned.current
    ticks := aligned.ticks
    ran := aligned.ran
    iterator := aligned.iterator
    size := by simpa [tasks] using size.trans aligned.size
    single := by
      intro content membership
      obtain ⟨before, isBefore, times⟩ := run.wheel.mem_delTask_tasks task membership
      exact times ▸ aligned.single before isBefore
    bounded := fun index other membership =>
      Nat.lt_of_lt_of_eq (aligned.bounded index other membership) size.symm
    sorted := aligned.sorted
    others := by
      intro index inside differs other membership
      apply edit index inside other membership
      exact aligned.others index inside differs other membership
    visited := by
      intro other membership
      apply inCurrent other (List.mem_of_mem_take membership)
      exact aligned.visited other membership
    coming := by
      intro other membership
      apply inCurrent other (List.mem_of_mem_drop membership)
      exact aligned.coming other membership
    present := by
      intro other entry found alive pending future
      rw [List.getElem?_modify] at found
      split at found
      · obtain ⟨before, _, rfl⟩ := Option.map_eq_some_iff.mp found
        simp at alive
      · exact aligned.present other entry (by simpa using found) alive pending future
    executing := by
      intro it other runs
      obtain ⟨position, entry, found, ended⟩ := aligned.executing it other runs
      refine ⟨position, if task = other then { entry with deleted := true } else entry,
        ?_, ?_⟩
      · split <;> simp_all
      · split
        · exact .inl rfl
        · exact ended }

end Aligned

end GdRpc.Util
