import GdRpc.Util.AsyncLog

/-!
# The assertions of the log

The backend asserts that its spare buffers are back at the top of every round
and that it has a buffer left for each it takes back. That there is one rests
on what `append` does: it uses up `nextBuffer_` only where it queues a full
buffer. Lines may have any length here.
-/

namespace GdRpc.Gdlog

open GdRpc.Library

namespace AsyncLogging

/-- The spare buffers are in place where the backend counts on them. -/
def Spares (logging : AsyncLogging) : Prop :=
  match logging.phase with
  | .latch => logging.buffersToWrite = []
  | .taken | .writing _ =>
      logging.newBuffer1 = none ∧
      (logging.newBuffer2 = none ∧ 2 ≤ logging.buffersToWrite.length ∨
        logging.newBuffer2 = some .new ∧ 1 ≤ logging.buffersToWrite.length)
  | .top | .locking | .waiting | .finished =>
      logging.newBuffer1 = some .new ∧ logging.newBuffer2 = some .new ∧
      logging.buffersToWrite = []

/-- The roles of the buffers while the mutex is free. -/
structure Orderly (logging : AsyncLogging) : Prop where
  current : ∃ buffer, logging.currentBuffer_ = some buffer
  next : logging.nextBuffer_ = none ∧ logging.buffers_ ≠ [] ∨
    logging.nextBuffer_ = some .new ∧ logging.buffers_ = []
  spares : logging.Spares

variable {logging after : AsyncLogging}

/-! ## What a step keeps in order -/

theorem append_orderly (orderly : logging.Orderly) (logline : Bytes) :
    ∃ after, logging.append logline = some after ∧ after.Orderly := by
  obtain ⟨buffer, isCurrent⟩ := orderly.current
  unfold append
  simp only [isCurrent]
  split
  next => exact ⟨_, rfl, ⟨_, rfl⟩, orderly.next, orderly.spares⟩
  next =>
    have queued : logging.buffers_ ++ [buffer] ≠ [] := by simp
    exact ⟨_, rfl, ⟨_, rfl⟩, .inl ⟨rfl, queued⟩, orderly.spares⟩

/-- When the second spare replaces the next buffer, another one had been
queued before the current one, so two are taken. -/
theorem take_orderly (orderly : logging.Orderly)
    (phase : logging.phase = .locking ∨ logging.phase = .waiting) :
    ∃ after, logging.take = some after ∧ after.Orderly := by
  obtain ⟨buffer, isCurrent⟩ := orderly.current
  obtain ⟨spare1, spare2, written⟩ : logging.newBuffer1 = some .new ∧
      logging.newBuffer2 = some .new ∧ logging.buffersToWrite = [] := by
    have spares := orderly.spares
    rcases phase with isPhase | isPhase <;> simpa [Spares, isPhase] using spares
  unfold take
  simp only [isCurrent, spare1, written]
  rcases orderly.next with ⟨used, nonempty⟩ | ⟨unused, empty⟩
  · simp only [used, spare2]
    refine ⟨_, rfl, ⟨_, rfl⟩, .inr ⟨rfl, rfl⟩, rfl, .inl ⟨rfl, ?_⟩⟩
    have := List.length_pos_iff.mpr nonempty
    simp only [List.length_append, List.length_singleton]
    omega
  · simp only [unused]
    exact ⟨_, rfl, ⟨_, rfl⟩, .inr ⟨rfl, rfl⟩, rfl, .inr ⟨spare2, by simp⟩⟩

/-- The two buffers that are left of too many are enough for two spares. -/
theorem drop_orderly (time : Bytes) (orderly : logging.Orderly)
    (phase : logging.phase = .taken) : (logging.drop time).Orderly := by
  obtain ⟨spare1, spare2⟩ : logging.newBuffer1 = none ∧
      (logging.newBuffer2 = none ∧ 2 ≤ logging.buffersToWrite.length ∨
        logging.newBuffer2 = some .new ∧ 1 ≤ logging.buffersToWrite.length) := by
    simpa [Spares, phase] using orderly.spares
  unfold drop
  by_cases tooMany : 25 < logging.buffersToWrite.length
  · rw [if_pos tooMany]
    refine ⟨orderly.current, orderly.next, spare1, ?_⟩
    rcases spare2 with ⟨isNone, _⟩ | ⟨isNew, _⟩
    · exact .inl ⟨isNone, by simp only [List.length_take]; omega⟩
    · exact .inr ⟨isNew, by simp only [List.length_take]; omega⟩
  · rw [if_neg tooMany]
    exact ⟨orderly.current, orderly.next, spare1, spare2⟩

theorem refill_none {buffersToWrite : List Buffer} (enough : 1 ≤ buffersToWrite.length) :
    refill none buffersToWrite = some (.new, buffersToWrite.dropLast) := by
  have nonempty : buffersToWrite ≠ [] := List.ne_nil_of_length_pos enough
  rw [refill, List.getLast?_eq_getLast_of_ne_nil nonempty]
  rfl

theorem recycle_eq (spare1 : logging.newBuffer1 = none)
    (spare2 : logging.newBuffer2 = none ∧ 2 ≤ logging.buffersToWrite.length ∨
      logging.newBuffer2 = some .new ∧ 1 ≤ logging.buffersToWrite.length) :
    logging.recycle = some { logging with
      newBuffer1 := some .new
      newBuffer2 := some .new
      buffersToWrite := []
      phase := .top } := by
  unfold recycle
  rcases spare2 with ⟨isNone, two⟩ | ⟨isNew, one⟩
  · have left : 1 ≤ logging.buffersToWrite.dropLast.length := by
      simp only [List.length_dropLast]
      omega
    simp only [spare1, isNone, refill_none (Nat.le_of_succ_le two), refill_none left]
  · simp only [spare1, isNew, refill_none one]
    rfl

theorem Orderly.writing {next : Nat} (orderly : logging.Orderly)
    (phase : logging.phase = .writing next) :
    logging.newBuffer1 = none ∧
      (logging.newBuffer2 = none ∧ 2 ≤ logging.buffersToWrite.length ∨
        logging.newBuffer2 = some .new ∧ 1 ≤ logging.buffersToWrite.length) := by
  simpa [Spares, phase] using orderly.spares

theorem write_orderly {next : Nat} (orderly : logging.Orderly)
    (phase : logging.phase = .writing next) :
    ∃ after, logging.write next = some after ∧ after.Orderly := by
  obtain ⟨spare1, spare2⟩ := orderly.writing phase
  unfold write
  cases logging.buffersToWrite[next]? with
  | some buffer => exact ⟨_, rfl, orderly.current, orderly.next, spare1, spare2⟩
  | none =>
      exact ⟨_, recycle_eq spare1 spare2, orderly.current, orderly.next, rfl, rfl, rfl⟩

theorem backend_orderly (orderly : logging.Orderly) (time : Bytes) :
    ∃ after, logging.backend time = some after ∧ after.Orderly := by
  have spares := orderly.spares
  unfold backend
  cases phase : logging.phase with
  | latch => exact ⟨_, rfl, orderly.current, orderly.next, rfl, rfl, rfl⟩
  | top =>
      simp only [Spares, phase] at spares
      refine ⟨_, rfl, orderly.current, orderly.next, ?_⟩
      simp only [Spares]
      cases logging.running_ <;> exact spares
  | locking =>
      change ∃ after, logging.lock = some after ∧ after.Orderly
      unfold lock
      split
      · simp only [Spares, phase] at spares
        exact ⟨_, rfl, orderly.current, orderly.next, spares⟩
      · exact take_orderly orderly (.inl phase)
  | waiting => exact take_orderly orderly (.inr phase)
  | taken => exact ⟨_, rfl, drop_orderly time orderly phase⟩
  | writing next => exact write_orderly orderly phase
  | finished => exact ⟨_, rfl, orderly⟩

/-- No step of any thread fails. -/
theorem next_orderly (orderly : logging.Orderly) (event : Event) :
    ∃ after, logging.next event = some after ∧ after.Orderly := by
  cases event with
  | append logline => exact append_orderly orderly logline
  | stop => exact ⟨_, rfl, orderly.current, orderly.next, orderly.spares⟩
  | backend time => exact backend_orderly orderly time

theorem orderly_new : new.Orderly :=
  ⟨⟨_, rfl⟩, .inr ⟨rfl, rfl⟩, rfl⟩

/-! ## The assertions -/

/-- Lines of any length. -/
def interleavings : System AsyncLogging Event where
  initial logging := logging = new
  step logging event after := logging.next event = some after

/-- The spares as the top of a round wants them. -/
def SparesReady (logging : AsyncLogging) : Prop :=
  (∃ newBuffer1, logging.newBuffer1 = some newBuffer1 ∧ newBuffer1.length = 0) ∧
  (∃ newBuffer2, logging.newBuffer2 = some newBuffer2 ∧ newBuffer2.length = 0) ∧
  logging.buffersToWrite = []

/-- Each spare that is to be taken back finds a buffer, the second one behind
the first. -/
def RefillsFind (logging : AsyncLogging) : Prop :=
  (logging.newBuffer1 = none → logging.buffersToWrite ≠ []) ∧
  ∀ newBuffer1 buffersToWrite,
    refill logging.newBuffer1 logging.buffersToWrite = some (newBuffer1, buffersToWrite) →
    logging.newBuffer2 = none → buffersToWrite ≠ []

/-- What `threadFunc` asserts next. -/
def Asserted (logging : AsyncLogging) : Prop :=
  match logging.phase with
  | .top | .locking => logging.SparesReady
  | .taken => logging.buffersToWrite ≠ []
  | .writing _ => logging.RefillsFind
  | .latch | .waiting | .finished => True

theorem Orderly.next_iff (orderly : logging.Orderly) :
    logging.nextBuffer_ = none ↔ logging.buffers_ ≠ [] := by
  rcases orderly.next with ⟨used, nonempty⟩ | ⟨unused, empty⟩
  · exact iff_of_true used nonempty
  · apply iff_of_false
    · simp [unused]
    · exact not_not_intro empty

theorem Orderly.refillsFind {next : Nat} (orderly : logging.Orderly)
    (phase : logging.phase = .writing next) : logging.RefillsFind := by
  obtain ⟨spare1, spare2⟩ := orderly.writing phase
  have one : 1 ≤ logging.buffersToWrite.length := by
    rcases spare2 with ⟨_, two⟩ | ⟨_, one⟩
    · exact Nat.le_of_succ_le two
    · exact one
  constructor
  · intro _
    exact List.ne_nil_of_length_pos one
  · intro newBuffer1 buffersToWrite refilled isNone
    rw [spare1, refill_none one] at refilled
    cases refilled
    rcases spare2 with ⟨_, two⟩ | ⟨isNew, _⟩
    · apply List.ne_nil_of_length_pos
      rw [List.length_dropLast]
      omega
    · rw [isNew] at isNone
      cases isNone

theorem Orderly.asserted (orderly : logging.Orderly) : logging.Asserted := by
  have spares := orderly.spares
  unfold Asserted
  cases phase : logging.phase with
  | latch | waiting | finished => trivial
  | top | locking =>
      simp only [Spares, phase] at spares
      obtain ⟨spare1, spare2, empty⟩ := spares
      exact ⟨⟨_, spare1, rfl⟩, ⟨_, spare2, rfl⟩, empty⟩
  | taken =>
      simp only [Spares, phase] at spares
      apply List.ne_nil_of_length_pos
      rcases spares.2 with ⟨_, two⟩ | ⟨_, one⟩ <;> omega
  | writing next => exact orderly.refillsFind phase

theorem reachable_orderly {events : List Event}
    (execution : interleavings.Execution events logging) : logging.Orderly := by
  apply execution.invariant Orderly
  · rintro _ rfl
    exact orderly_new
  · intro logging event after orderly step
    obtain ⟨_, taken, kept⟩ := next_orderly orderly event
    obtain rfl := Option.some.inj (taken.symm.trans step)
    exact kept

/-- Whenever the mutex is free there is a current buffer, and the next one is
gone exactly while full ones are queued; whatever `threadFunc` asserts next
holds; and no thread comes to use a null buffer. -/
theorem assertions_hold {events : List Event}
    (execution : interleavings.Execution events logging) :
    logging.currentBuffer_.isSome ∧
    (logging.nextBuffer_ = none ↔ logging.buffers_ ≠ []) ∧
    logging.Asserted ∧
    ∀ event : Event, (logging.next event).isSome := by
  have orderly := reachable_orderly execution
  refine ⟨?_, orderly.next_iff, orderly.asserted, ?_⟩
  · obtain ⟨buffer, isCurrent⟩ := orderly.current
    rw [isCurrent]
    rfl
  · intro event
    obtain ⟨after, taken, _⟩ := next_orderly orderly event
    rw [taken]
    rfl

/-- Behind the one buffer of a round, which becomes a spare again. -/
theorem assertions_hold_refill :
    let events : List Event := [.append [1], .backend [], .backend [], .backend [],
      .append [2], .backend [], .backend [], .backend []]
    ∃ logging : AsyncLogging, interleavings.Execution events logging ∧
      logging.phase = .writing 1 ∧ logging.newBuffer1 = none ∧
      logging.currentBuffer_.isSome ∧ logging.Asserted ∧
      (logging.next (.backend [])).isSome := by
  intro events
  have execution := System.Execution.foldl_getD interleavings (fun _ _ => True)
    (fun _ _ _ _ taken => taken) rfl
    (show System.Allowed _ _ new events by decide)
  obtain ⟨isCurrent, _, asserted, goesOn⟩ := assertions_hold execution
  exact ⟨_, execution, by decide, by decide, isCurrent, asserted, goesOn _⟩

end AsyncLogging

end GdRpc.Gdlog
