import GdRpc.Net.ConnectorThreads

/-!
# `TcpClient::stop`

A stop clears `connect_` of the client and of the connector. When a connection
goes down `removeConnection` tests the first and `restart` sets the second, so a
stop that comes in between is undone.
-/

namespace GdRpc.Net

open GdRpc.Library

theorem Connector.resetChannel_connect_ (connector : Connector) :
    connector.resetChannel.connect_ = connector.connect_ := by
  unfold resetChannel
  split <;> rfl

namespace ConnectorThreads

open Connector (Instruction Functor Call)

/-- The events of a client; the connector is private to it and restarted by
nobody else. -/
def OfClient : Event → Prop
  | .restart => False
  | _ => True

instance (event : Event) : Decidable (OfClient event) := by
  unfold OfClient
  split <;> infer_instance

def clientSystem : System ConnectorThreads Event where
  initial threads := ∃ now, threads = new now
  step threads event after :=
    (threads.Enabled event ∧ OfClient event) ∧ threads.next event = some after

/-- No stop clears the connector's `connect_` between the test in
`removeConnection` and the write in `restart`, unless the user has asked for a
connection since. -/
def Separate (threads : ConnectorThreads) : Event → Prop
  | .proceed index => threads.calls[index]? = some (.stop (some threads.wishes)) →
      .restart ∉ threads.code
  | _ => True

instance (threads : ConnectorThreads) (event : Event) : Decidable (threads.Separate event) := by
  unfold Separate
  split <;> infer_instance

/-- The runs in which every step is separate. -/
def separateSystem : System ConnectorThreads Event where
  initial threads := ∃ now, threads = new now
  step threads event after :=
    ((threads.Enabled event ∧ OfClient event) ∧ threads.Separate event) ∧
      threads.next event = some after

/-- Both flags are clear, and nothing is about to set one again. -/
structure Off (threads : ConnectorThreads) : Prop where
  connect_ : threads.connect_ = false
  connector : threads.connector.connect_ = false
  code : .restart ∉ threads.code

/-- What a stop has done as long as nobody has asked for a connection since. -/
def Sound (threads : ConnectorThreads) : Call → Prop
  | .stop (some since) =>
      since ≤ threads.wishes ∧ (since = threads.wishes → threads.connect_ = false)
  | .queueStop (some since) =>
      since ≤ threads.wishes ∧ (since = threads.wishes → threads.Off)
  | _ => True

/-- A stop leaves the flags off, and once it is final nothing is about to be
made. -/
structure Kept (threads : ConnectorThreads) : Prop where
  calls : ∀ call ∈ threads.calls, threads.Sound call
  stopped : threads.stopped ≠ none → threads.Off
  final : threads.final = true → threads.stopped ≠ none ∧
    .connect ∉ threads.code ∧ .handOver ∉ threads.code
  late : threads.late = false

variable {threads after : ConnectorThreads}

/-- Neither sets a flag nor makes an attempt or a connection. -/
def Calm : Instruction → Prop
  | .connect | .handOver | .restart => False
  | _ => True

theorem Calm.of_entry {instruction : Instruction} (entry : Entry instruction) :
    Calm instruction := by
  cases instruction with
  | connect | handOver | restart => exact entry.elim
  | _ => trivial

/-- From `threads` to `after` the flags and the record stay as they are, and
what is new is calm. -/
structure Calmly (threads after : ConnectorThreads) : Prop where
  connect_ : after.connect_ = threads.connect_
  connector : after.connector.connect_ = threads.connector.connect_
  wishes : after.wishes = threads.wishes
  stopped : after.stopped.isSome = threads.stopped.isSome
  final : after.final = threads.final
  late : after.late = threads.late
  calls : ∀ call ∈ after.calls, call ∈ threads.calls ∨ call.Begins
  code : ∀ instruction ∈ after.code, instruction ∈ threads.code ∨ Calm instruction

theorem Off.calmly (off : threads.Off) (calmly : threads.Calmly after) : after.Off := by
  refine ⟨calmly.connect_.trans off.connect_, calmly.connector.trans off.connector, ?_⟩
  intro membership
  exact (calmly.code _ membership).elim off.code id

theorem Sound.of_flags {call : Call} (sound : threads.Sound call)
    (wishes : after.wishes = threads.wishes)
    (connect_ : threads.connect_ = false → after.connect_ = false)
    (off : threads.Off → after.Off) : after.Sound call := by
  unfold Sound at sound ⊢
  split at sound
  · rw [wishes]
    exact ⟨sound.1, fun same => connect_ (sound.2 same)⟩
  · rw [wishes]
    exact ⟨sound.1, fun same => off (sound.2 same)⟩
  · trivial

theorem Sound.of_begins {call : Call} (begins : call.Begins) : threads.Sound call := by
  unfold Sound
  split
  · exact begins.elim
  · exact begins.elim
  · trivial

theorem Kept.calmly (kept : threads.Kept) (calmly : threads.Calmly after) : after.Kept := by
  have off : threads.Off → after.Off := fun off => off.calmly calmly
  have same : after.stopped ≠ none ↔ threads.stopped ≠ none := by
    rw [← Option.isSome_iff_ne_none, ← Option.isSome_iff_ne_none, calmly.stopped]
  refine ⟨?_, fun stopped => off (kept.stopped (same.mp stopped)), ?_,
    calmly.late.trans kept.late⟩
  · intro call membership
    rcases calmly.calls call membership with old | new
    · exact (kept.calls call old).of_flags calmly.wishes calmly.connect_.trans off
    · exact .of_begins new
  · intro final
    obtain ⟨stopped, noConnect, noHandOver⟩ := kept.final (calmly.final ▸ final)
    exact ⟨same.mpr stopped,
      fun membership => (calmly.code _ membership).elim noConnect id,
      fun membership => (calmly.code _ membership).elim noHandOver id⟩

theorem Calmly.of_begins (begins : threads.Begins after) : threads.Calmly after where
  connect_ := begins.connect_
  connector := begins.connect
  wishes := begins.wishes
  stopped := begins.stopped
  final := begins.final
  late := begins.late
  calls := begins.calls
  code instruction membership := by
    rcases begins.code with same | ⟨_, entries⟩
    · rw [same] at membership
      exact .inl membership
    · exact .inr (.of_entry (entries instruction membership))

theorem Calmly.refl (threads : ConnectorThreads) : threads.Calmly threads :=
  .of_begins (.refl threads)

/-- A wish undoes every stop. -/
theorem Kept.wish (kept : threads.Kept) (connector : Connector) (connect_ : Bool) :
    Kept { threads.wish with connector := connector, connect_ := connect_ } := by
  refine ⟨?_, fun stopped => absurd rfl stopped, (fun final => nomatch final), kept.late⟩
  intro call membership
  have sound := kept.calls call membership
  unfold Sound at sound ⊢
  split at sound
  · exact ⟨Nat.le_succ_of_le sound.1, fun same => absurd same (Nat.lt_succ_of_le sound.1).ne⟩
  · exact ⟨Nat.le_succ_of_le sound.1, fun same => absurd same (Nat.lt_succ_of_le sound.1).ne⟩
  · trivial

theorem Kept.settle (kept : threads.Kept) : threads.settle.Kept := by
  have off : threads.Off → Off { threads with final := true } :=
    fun off => ⟨off.connect_, off.connector, off.code⟩
  unfold ConnectorThreads.settle
  split
  next finished =>
    refine ⟨?_, fun stopped => off (kept.stopped stopped), ?_, kept.late⟩
    · intro call membership
      exact (kept.calls call membership).of_flags rfl id off
    · simp [finished.1, finished.2]
  next => exact kept

/-- While a flag is set, or about to be, no stop is in force. -/
theorem Kept.of_on (kept : threads.Kept) (on : ¬ threads.Off) (connector : Connector)
    (code : List Instruction) :
    Kept { threads with connector := connector, code := code } := by
  have unstopped : threads.stopped = none := by
    by_contra stopped
    exact on (kept.stopped stopped)
  refine ⟨?_, fun stopped => absurd unstopped stopped,
    fun final => absurd unstopped (kept.final final).1, kept.late⟩
  intro call membership
  exact (kept.calls call membership).of_flags rfl id fun off => absurd off on

theorem Kept.push (kept : threads.Kept) {code : List Instruction}
    (calm : ∀ instruction ∈ code, Calm instruction) : (threads.push code).Kept := by
  refine kept.calmly { Calmly.refl threads with code := ?_ }
  intro instruction membership
  exact (List.mem_append.mp membership).symm.imp_right (calm instruction)

theorem Kept.connector (kept : threads.Kept) {connector : Connector}
    (same : connector.connect_ = threads.connector.connect_) :
    Kept { threads with connector := connector } :=
  kept.calmly { Calmly.refl threads with connector := same }

theorem Kept.make (kept : threads.Kept) (before : threads.final = false) :
    threads.make.Kept :=
  kept.calmly { Calmly.refl threads with late := by simp [ConnectorThreads.make, before] }

theorem Kept.connect (kept : threads.Kept) (savedErrno : Nat) :
    (threads.connect savedErrno).Kept := by
  unfold ConnectorThreads.connect
  dsimp only
  split
  · exact kept.connector (Connector.resetChannel_connect_ _)
  · split
    · refine Kept.push (kept.connector ?_) ?_
      · rfl
      · simp [Calm]
    · exact kept.connector rfl

theorem Kept.remove (kept : threads.Kept) (channel : ConnectingChannel)
    {code : List Instruction} (calm : ∀ instruction ∈ code, Calm instruction) :
    (threads.remove channel code).Kept := by
  unfold ConnectorThreads.remove
  refine Kept.push (kept.connector ?_) ?_
  · rfl
  · simpa [Calm] using calm

theorem Kept.exec {instruction : Instruction} {code : List Instruction} {result : Nat}
    (kept : threads.Kept) (here : threads.code = instruction :: code)
    (ran : { threads with code := code }.exec result instruction = some after) :
    after.Kept := by
  have rest : Kept { threads with code := code } := by
    refine kept.calmly { Calmly.refl threads with code := ?_ }
    intro other membership
    rw [here]
    exact .inl (List.mem_cons_of_mem _ membership)
  have on : threads.connect_ = true ∨ threads.connector.connect_ = true ∨
      instruction = .restart → ¬ threads.Off := by
    rintro (client | connector | rfl) off
    · exact absurd off.connect_ (by simp [client])
    · exact absurd off.connector (by simp [connector])
    · exact off.code (here ▸ List.mem_cons_self)
  have early : instruction = .connect ∨ instruction = .handOver → threads.final = false := by
    rw [← Bool.not_eq_true]
    rintro (rfl | rfl) final
    · exact (kept.final final).2.1 (here ▸ List.mem_cons_self)
    · exact (kept.final final).2.2 (here ▸ List.mem_cons_self)
  cases instruction with
  | startInLoop =>
      cases ran
      split
      next wanted => exact kept.of_on (on (.inr (.inl wanted))) _ _
      next => exact rest
  | connect =>
      cases ran
      exact (rest.make (early (.inl rfl))).connect result
  | stopInLoop =>
      obtain rfl | ⟨_, channel, _, rfl⟩ := exec_stopInLoop ran
      · exact rest
      · refine Kept.remove (rest.connector ?_) channel ?_
        · rfl
        · simp [Calm]
  | handleError =>
      obtain rfl | ⟨_, channel, _, rfl⟩ := exec_handleError ran
      · exact rest
      · exact rest.remove channel (by simp [Calm])
  | handleWrite =>
      obtain rfl | ⟨_, channel, _, ⟨_, rfl⟩ | ⟨_, wanted, rfl⟩ | ⟨_, _, rfl⟩⟩ :=
        exec_handleWrite ran
      · exact rest
      · exact rest.remove channel (by simp [Calm])
      · exact kept.of_on (on (.inr (.inl wanted))) _ _
      · exact rest.remove channel (by simp [Calm])
  | handOver =>
      simp only [ConnectorThreads.exec] at ran
      obtain ⟨channel, present, rfl⟩ := Option.map_eq_some_iff.mp ran
      have made := rest.make (early (.inr rfl))
      exact made.calmly { Calmly.refl _ with }
  | retry sockfd =>
      cases ran
      split
      · refine Kept.push (rest.connector ?_) ?_
        · rfl
        · simp [Calm]
      · exact rest.connector rfl
  | runAfter | queueInLoop functor | close sockfd =>
      cases ran
      exact rest.connector rfl
  | resetChannel =>
      cases ran
      exact rest.connector (Connector.resetChannel_connect_ _)
  | restart =>
      cases ran
      exact kept.of_on (on (.inr (.inr rfl))) _ _
  | start =>
      cases ran
      exact (rest.wish _ _).push (by simp [Calm])
  | setConnected =>
      cases ran
      exact (rest.wish _ _).push (by simp [Calm])
  | connectClient =>
      cases ran
      split
      · exact rest
      · exact rest.push (by simp [Calm])
  | testRetry =>
      cases ran
      split
      · exact rest.push (by simp [Calm])
      · exact rest
  | testConnect =>
      cases ran
      split
      next wanted => exact kept.of_on (on (.inl wanted)) _ _
      next => exact rest

theorem Kept.setCall (kept : threads.Kept) (index : Nat) {call : Call}
    (sound : threads.Sound call) :
    Kept { threads with calls := threads.calls.set index call } := by
  have off : threads.Off → Off { threads with calls := threads.calls.set index call } :=
    fun off => ⟨off.connect_, off.connector, off.code⟩
  refine ⟨?_, fun stopped => off (kept.stopped stopped), kept.final, kept.late⟩
  intro other membership
  rcases List.mem_or_eq_of_mem_set membership with old | rfl
  · exact (kept.calls other old).of_flags rfl id off
  · exact sound.of_flags rfl id off

theorem Kept.clear (kept : threads.Kept) {connect_ : Bool} {connector : Connector}
    (client : connect_ = threads.connect_ ∨ connect_ = false)
    (wanted : connector.connect_ = threads.connector.connect_ ∨ connector.connect_ = false) :
    Kept { threads with connect_ := connect_, connector := connector } := by
  have off : threads.Off →
      Off { threads with connect_ := connect_, connector := connector } := by
    intro off
    exact ⟨client.elim (·.trans off.connect_) id, wanted.elim (·.trans off.connector) id, off.code⟩
  refine ⟨?_, fun stopped => off (kept.stopped stopped), kept.final, kept.late⟩
  intro call membership
  exact (kept.calls call membership).of_flags rfl
    (fun clear => client.elim (·.trans clear) id) off

theorem Kept.stopped_some (kept : threads.Kept) (off : threads.Off) (queued : Nat) :
    Kept { threads with stopped := some queued } := by
  refine ⟨?_, fun _ => ⟨off.connect_, off.connector, off.code⟩, ?_, kept.late⟩
  · intro call membership
    exact (kept.calls call membership).of_flags rfl id
      fun off => ⟨off.connect_, off.connector, off.code⟩
  · intro final
    exact ⟨by simp, (kept.final final).2⟩

theorem Kept.proceed (kept : threads.Kept) {index : Nat} {call : Call}
    (found : threads.calls[index]? = some call)
    (separate : call = .stop (some threads.wishes) → .restart ∉ threads.code) :
    Kept { (threads.proceed call).2 with
      calls := threads.calls.set index (threads.proceed call).1 } := by
  have sound := kept.calls call (List.mem_of_getElem? found)
  cases call with
  | connectClient =>
      apply kept.setCall index
      simp only [ConnectorThreads.proceed]
      split <;> trivial
  | setConnected => exact (kept.wish threads.connector true).setCall index trivial
  | start => exact (kept.wish _ threads.connect_).setCall index trivial
  | queueStart =>
      refine Kept.setCall (kept.connector ?_) index trivial
      rfl
  | stopClient =>
      exact Kept.setCall (kept.clear (.inr rfl) (.inl rfl)) index ⟨le_rfl, fun _ => rfl⟩
  | stop since =>
      apply Kept.setCall (kept.clear (.inl rfl) (.inr rfl)) index
      cases since with
      | none => trivial
      | some since =>
          refine ⟨sound.1, ?_⟩
          rintro rfl
          exact ⟨sound.2 rfl, rfl, separate rfl⟩
  | queueStop since =>
      have returned : Kept { threads with calls := threads.calls.set index .returned } :=
        kept.setCall index trivial
      have queued : Kept { threads with
          connector := threads.connector.queueInLoop .stopInLoop
          calls := threads.calls.set index .returned } := returned.connector rfl
      simp only [ConnectorThreads.proceed, promise]
      split
      next same =>
        subst same
        have off := sound.2 rfl
        exact queued.stopped_some ⟨off.connect_, off.connector, off.code⟩ _
      next => exact queued
  | returned => exact kept.setCall index trivial

theorem kept_next (kept : threads.Kept) {event : Event} (enabled : threads.Enabled event)
    (client : OfClient event) (separate : threads.Separate event)
    (taken : threads.next event = some after) : after.Kept := by
  obtain ⟨middle, moves, rfl⟩ := next_moves enabled taken
  apply Kept.settle
  cases moves with
  | loop result here ran => exact kept.exec here ran
  | proceed index found =>
      apply kept.proceed found
      rintro rfl
      exact separate found
  | restart => exact client.elim
  | begins event begins => exact kept.calmly (.of_begins begins)

theorem Kept.new (now : Int) : Kept (new now) := by
  refine ⟨?_, ?_, ?_, rfl⟩ <;> simp [ConnectorThreads.new]

/-- In every run in which no stop comes between the test in `removeConnection`
and `restart`, nothing is made after a stop until the user asks for it. -/
theorem not_late_of_separate {events : List Event}
    (execution : separateSystem.Execution events threads) : threads.late = false := by
  have kept : threads.Kept := by
    apply execution.invariant Kept
    · rintro start ⟨now, rfl⟩
      exact .new now
    · rintro before event after kept ⟨⟨⟨enabled, client⟩, separate⟩, taken⟩
      exact kept_next kept enabled client separate taken
  exact kept.late

/-- The connection goes down after it has been stopped. -/
theorem not_late_of_separate_closed :
    let events : List Event :=
      [.enableRetry, .call .connectClient, .proceed 0, .proceed 0, .proceed 0, .proceed 0,
        .doPendingFunctors, .runFunctor, .loop 0, .loop EINPROGRESS,
        .handleEvent Channel.EPOLLOUT, .loop 0, .loop 0, .call .stopClient, .proceed 1,
        .proceed 1, .proceed 1, .closeCallback 0, .loop 0, .loop 0, .loop 0, .doPendingFunctors,
        .runFunctor, .loop 0, .runFunctor]
    (events.foldl advance (new 0)).late = false := by
  intro events
  have execution : separateSystem.Execution events (events.foldl advance (new 0)) :=
    System.Execution.foldl_getD separateSystem
      (fun threads event => (threads.Enabled event ∧ OfClient event) ∧ threads.Separate event)
      (fun _ _ _ permitted taken => ⟨permitted, taken⟩) ⟨0, rfl⟩ (by decide +kernel)
  exact not_late_of_separate execution

/-- The stop comes between the test in `removeConnection` and `restart`:
`stopInLoop` gives up the attempt `restart` has begun and, as it finds `connect_`
set, has another one made. -/
theorem stop_undone_by_restart :
    ¬ ∀ (events : List Event) (threads : ConnectorThreads),
      clientSystem.Execution events threads → threads.late = false := by
  intro always
  let events : List Event :=
    [.enableRetry, .call .connectClient, .proceed 0, .proceed 0, .proceed 0, .proceed 0,
      .doPendingFunctors, .runFunctor, .loop 0, .loop EINPROGRESS,
      .handleEvent Channel.EPOLLOUT, .loop 0, .loop 0, .closeCallback 0, .loop 0, .loop 0,
      .loop 0, .call .stopClient, .proceed 1, .proceed 1, .proceed 1, .loop 0, .loop 0,
      .loop EINPROGRESS, .doPendingFunctors, .runFunctor, .runFunctor, .loop 0, .loop 0,
      .loop 0, .loop 0, .loop 0, .doPendingFunctors, .runFunctor, .loop 0, .runFunctor, .loop 0,
      .loop EINPROGRESS]
  have execution : clientSystem.Execution events (events.foldl advance (new 0)) :=
    System.Execution.foldl_getD clientSystem
      (fun threads event => threads.Enabled event ∧ OfClient event)
      (fun _ _ _ permitted taken => ⟨permitted, taken⟩) ⟨0, rfl⟩ (by decide +kernel)
  exact absurd (always events _ execution) (by decide +kernel)

end ConnectorThreads

end GdRpc.Net
