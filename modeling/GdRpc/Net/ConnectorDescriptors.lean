import GdRpc.Net.ConnectorThreads

/-!
# Who closes a descriptor

A descriptor is closed, has been handed over, is the one of `channel_`, or is
about to be given up by `retry`. `removeAndResetChannel` makes it two of these
at once: its callers close the descriptor, and the destructor of the channel,
which a functor calls later, closes it again.
-/

namespace GdRpc.Net

open GdRpc.Library

namespace Connector

/-- The descriptor of `channel_`. -/
def current (connector : Connector) : List Nat :=
  (connector.channel_.map ConnectingChannel.fd).toList

theorem resetChannel_closed (connector : Connector) :
    connector.resetChannel.closed = connector.closed ++ connector.current ∧
      connector.resetChannel.channel_ = none ∧
      connector.resetChannel.sockets = connector.sockets := by
  unfold resetChannel current
  split
  next channel present => simp [close, present]
  next absent => simp [absent]

theorem resetChannel_state (connector : Connector) :
    connector.resetChannel.state_ = connector.state_ := by
  unfold resetChannel
  split <;> rfl

theorem connecting_closed (connector : Connector) (sockfd : Nat) :
    (connector.connecting sockfd).closed = connector.closed ++ connector.current ∧
      (connector.connecting sockfd).current = [sockfd] ∧
      (connector.connecting sockfd).sockets = connector.sockets := by
  have reset := connector.resetChannel_closed
  exact ⟨reset.1, rfl, reset.2.2⟩

/-- What the callers of `removeAndResetChannel` do with the descriptor, and the
functor it has queued. -/
theorem removeAndResetChannel_closes_twice {connector removed : Connector} {sockfd : Nat}
    (removal : connector.removeAndResetChannel = some (sockfd, removed)) :
    2 ≤ (removed.retry sockfd).resetChannel.closed.count sockfd ∧
      2 ≤ (removed.close sockfd).resetChannel.closed.count sockfd := by
  have closed : removed.current = [sockfd] := by
    unfold removeAndResetChannel at removal
    split at removal
    · cases removal
      rfl
    · cases removal
  have retried : (removed.retry sockfd).closed = removed.closed ++ [sockfd] ∧
      (removed.retry sockfd).current = removed.current := by
    simp only [retry]
    split <;> exact ⟨rfl, rfl⟩
  have once : (removed.close sockfd).closed = removed.closed ++ [sockfd] ∧
      (removed.close sockfd).current = removed.current := ⟨rfl, rfl⟩
  rw [(removed.retry sockfd).resetChannel_closed.1, (removed.close sockfd).resetChannel_closed.1,
    retried.1, retried.2, once.1, once.2, closed]
  simp only [List.count_append, List.count_singleton_self]
  omega

end Connector

namespace ConnectorThreads

open Connector (Instruction Functor Call)

/-- The descriptors that `retry` is about to close. -/
def retried (code : List Instruction) : List Nat :=
  code.filterMap fun instruction =>
    match instruction with
    | .retry sockfd => some sockfd
    | _ => none

@[simp]
theorem retried_append (first second : List Instruction) :
    retried (first ++ second) = retried first ++ retried second :=
  List.filterMap_append

/-- In how many places a descriptor is. -/
def places (threads : ConnectorThreads) (fd : Nat) : Nat :=
  threads.connector.closed.count fd + threads.connector.current.count fd +
    threads.handed.count fd + (retried threads.code).count fd

/-- The instruction comes to call `removeAndResetChannel`. -/
def Removes (threads : ConnectorThreads) (result : Nat) : Instruction → Prop
  | .stopInLoop | .handleError => threads.connector.state_ = .kConnecting
  | .handleWrite => threads.connector.state_ = .kConnecting ∧
      (result ≠ 0 ∨ threads.connector.connect_ = false)
  | _ => False

instance (threads : ConnectorThreads) (result : Nat) :
    ∀ instruction, Decidable (threads.Removes result instruction) := by
  intro instruction
  unfold Removes
  split <;> infer_instance

/-- No descriptor is closed twice, or closed after it has been handed over. -/
structure OneOwner (threads : ConnectorThreads) : Prop where
  once : threads.connector.closed.Nodup
  handed : ∀ fd ∈ threads.handed, fd ∉ threads.connector.closed

/-- The connecting channel meets no error, and is not stopped. -/
def Unremoved (threads : ConnectorThreads) : Event → Prop
  | .loop result => ∀ instruction ∈ threads.code.head?, ¬ threads.Removes result instruction
  | _ => True

instance (threads : ConnectorThreads) (event : Event) : Decidable (threads.Unremoved event) := by
  unfold Unremoved
  split <;> infer_instance

/-- The runs in which `removeAndResetChannel` is never called. -/
def unremovedSystem : System ConnectorThreads Event where
  initial threads := ∃ now, threads = new now
  step threads event after :=
    (threads.Enabled event ∧ threads.Unremoved event) ∧ threads.next event = some after

/-- Every descriptor is in exactly one place, and nothing is about to be closed
apart from `retry`. -/
structure Conserved (threads : ConnectorThreads) : Prop where
  places : ∀ fd, threads.places fd = (List.range threads.connector.sockets).count fd
  code : ∀ sockfd, .close sockfd ∉ threads.code

variable {threads after : ConnectorThreads}

theorem Conserved.of_same (conserved : threads.Conserved)
    (closed : after.connector.closed = threads.connector.closed)
    (channel_ : after.connector.channel_ = threads.connector.channel_)
    (sockets : after.connector.sockets = threads.connector.sockets)
    (handed : after.handed = threads.handed)
    (retries : retried after.code = retried threads.code)
    (code : ∀ sockfd, .close sockfd ∉ after.code) : after.Conserved := by
  refine ⟨?_, code⟩
  intro fd
  rw [sockets, ← conserved.places fd]
  simp only [ConnectorThreads.places, Connector.current, closed, channel_, handed, retries]

theorem Conserved.push (conserved : threads.Conserved) {code : List Instruction}
    (noRetry : retried code = []) (noClose : ∀ sockfd, .close sockfd ∉ code) :
    (threads.push code).Conserved := by
  refine conserved.of_same rfl rfl rfl rfl ?_ ?_
  · simp [ConnectorThreads.push, noRetry]
  · intro sockfd membership
    rcases List.mem_append.mp membership with new | old
    · exact noClose sockfd new
    · exact conserved.code sockfd old

theorem Conserved.connect (conserved : threads.Conserved) (savedErrno : Nat) :
    (threads.make.connect savedErrno).Conserved := by
  unfold ConnectorThreads.connect
  dsimp only
  split
  · have connecting := Connector.connecting_closed { threads.connector with
      sockets := threads.connector.sockets + 1
      attempts := threads.connector.attempts ++ [⟨threads.connector.now, threads.connector.putOff⟩]
      putOff := none } threads.connector.sockets
    refine ⟨?_, conserved.code⟩
    intro fd
    have before := conserved.places fd
    simp only [ConnectorThreads.places, make, connecting.1, connecting.2.1, connecting.2.2,
      List.count_append, List.range_succ] at before ⊢
    simp only [Connector.current] at before ⊢
    omega
  · split
    · refine ⟨?_, ?_⟩
      · intro fd
        have before := conserved.places fd
        simp only [ConnectorThreads.places, make, ConnectorThreads.push, retried_append,
          List.count_append, List.range_succ] at before ⊢
        simp only [Connector.current, retried, List.filterMap_cons, List.filterMap_nil] at before ⊢
        omega
      · simpa [ConnectorThreads.push, make] using conserved.code
    · refine ⟨?_, conserved.code⟩
      intro fd
      have before := conserved.places fd
      simp only [ConnectorThreads.places, make, Connector.close, Connector.fail,
        List.count_append, List.range_succ] at before ⊢
      simp only [Connector.current] at before ⊢
      omega

theorem Conserved.retry {sockfd : Nat} {code : List Instruction} {result : Nat}
    (conserved : threads.Conserved) (here : threads.code = .retry sockfd :: code)
    (ran : { threads with code := code }.exec result (.retry sockfd) = some after) :
    after.Conserved := by
  have closed : Conserved { threads with
      code := code
      connector := { threads.connector.fail.close sockfd with state_ := .kDisconnected } } := by
    refine ⟨?_, ?_⟩
    · intro fd
      have before := conserved.places fd
      simp only [ConnectorThreads.places, here, retried, List.filterMap_cons] at before
      rw [← List.singleton_append, List.count_append] at before
      simp only [ConnectorThreads.places, Connector.close, Connector.fail, List.count_append,
        retried]
      simp only [Connector.current] at before ⊢
      omega
    · intro other membership
      exact conserved.code other (by rw [here]; exact List.mem_cons_of_mem _ membership)
  simp only [ConnectorThreads.exec, Option.some.injEq] at ran
  subst ran
  split
  · exact closed.push rfl (by simp)
  · exact closed

theorem Conserved.handOver (conserved : threads.Conserved) {result : Nat}
    (ran : threads.exec result .handOver = some after) : after.Conserved := by
  rw [ConnectorThreads.exec, Option.map_eq_some_iff] at ran
  obtain ⟨channel, present, rfl⟩ := ran
  refine ⟨?_, conserved.code⟩
  intro fd
  have before := conserved.places fd
  simp only [ConnectorThreads.places, Connector.current, present, List.count_append, make,
    Option.map_some, Option.map_none, Option.toList_some, Option.toList_none,
    List.count_nil] at before ⊢
  omega

theorem Conserved.resetChannel (conserved : threads.Conserved) :
    Conserved { threads with connector := threads.connector.resetChannel } := by
  obtain ⟨closed, null, sockets⟩ := threads.connector.resetChannel_closed
  refine ⟨?_, conserved.code⟩
  intro fd
  have before := conserved.places fd
  simp only [ConnectorThreads.places, closed, sockets, List.count_append] at before ⊢
  simp only [Connector.current, null, Option.map_none, Option.toList_none,
    List.count_nil] at before ⊢
  omega

theorem Conserved.exec {instruction : Instruction} {code : List Instruction} {result : Nat}
    (conserved : threads.Conserved) (here : threads.code = instruction :: code)
    (keeps : ¬ threads.Removes result instruction)
    (ran : { threads with code := code }.exec result instruction = some after) :
    after.Conserved := by
  have clean : ∀ sockfd, .close sockfd ∉ code := by
    intro sockfd membership
    exact conserved.code sockfd (by rw [here]; exact List.mem_cons_of_mem _ membership)
  have same : retried [instruction] = [] → { threads with code := code }.Conserved := by
    intro other
    refine conserved.of_same rfl rfl rfl rfl ?_ clean
    rw [here, ← List.singleton_append, retried_append, other, List.nil_append]
  cases instruction with
  | retry sockfd => exact conserved.retry here ran
  | close sockfd =>
      refine absurd ?_ (conserved.code sockfd)
      rw [here]
      exact List.mem_cons_self
  | startInLoop =>
      simp only [ConnectorThreads.exec, Option.some.injEq] at ran
      subst ran
      split
      · exact (same rfl).push rfl (by simp)
      · exact same rfl
  | connect =>
      simp only [ConnectorThreads.exec, Option.some.injEq] at ran
      subst ran
      exact (same rfl).connect result
  | stopInLoop | handleError =>
      simp only [Removes] at keeps
      simp only [ConnectorThreads.exec, keeps, if_false, Option.some.injEq] at ran
      subst ran
      exact same rfl
  | handleWrite =>
      obtain rfl | ⟨waits, channel, _, ⟨failed, _⟩ | ⟨_, _, rfl⟩ | ⟨_, unwanted, _⟩⟩ :=
        exec_handleWrite ran
      · exact same rfl
      · exact absurd ⟨waits, .inl failed⟩ keeps
      · exact (same rfl).push rfl (by simp)
      · exact absurd ⟨waits, .inr unwanted⟩ keeps
  | handOver => exact (same rfl).handOver ran
  | resetChannel =>
      cases ran
      exact (same rfl).resetChannel
  | runAfter | queueInLoop functor =>
      cases ran
      exact (same rfl).of_same rfl rfl rfl rfl rfl clean
  | restart | start | setConnected =>
      cases ran
      refine Conserved.push ?_ rfl (by simp)
      exact (same rfl).of_same rfl rfl rfl rfl rfl clean
  | connectClient =>
      simp only [ConnectorThreads.exec, Option.some.injEq] at ran
      subst ran
      split
      · exact same rfl
      · exact (same rfl).push rfl (by simp)
  | testRetry | testConnect =>
      simp only [ConnectorThreads.exec, Option.some.injEq] at ran
      subst ran
      split
      · exact (same rfl).push rfl (by simp)
      · exact same rfl

theorem retried_of_entries {code : List Instruction}
    (entries : ∀ instruction ∈ code, Entry instruction) : retried code = [] := by
  rw [retried, List.filterMap_eq_nil_iff]
  intro instruction membership
  cases instruction with
  | retry sockfd => exact (entries _ membership).elim
  | _ => rfl

theorem Conserved.begins (conserved : threads.Conserved) (begins : threads.Begins after) :
    after.Conserved := by
  rcases begins.code with same | ⟨empty, entries⟩
  · refine conserved.of_same begins.closed begins.channel_ begins.sockets begins.handed ?_ ?_
    · rw [same]
    · rw [same]
      exact conserved.code
  · refine conserved.of_same begins.closed begins.channel_ begins.sockets begins.handed ?_ ?_
    · rw [retried_of_entries entries, empty]
      rfl
    · exact fun sockfd => entries (.close sockfd)

theorem Conserved.settle (conserved : threads.Conserved) : threads.settle.Conserved := by
  unfold ConnectorThreads.settle
  split
  · exact conserved.of_same rfl rfl rfl rfl rfl conserved.code
  · exact conserved

theorem Conserved.proceed (conserved : threads.Conserved) (call : Call) (calls : List Call) :
    Conserved { (threads.proceed call).2 with calls := calls } := by
  cases call with
  | queueStop since =>
      simp only [ConnectorThreads.proceed, promise]
      split <;> exact conserved.of_same rfl rfl rfl rfl rfl conserved.code
  | connectClient | setConnected | start | queueStart | stopClient | stop since | returned =>
      exact conserved.of_same rfl rfl rfl rfl rfl conserved.code

theorem conserved_next (conserved : threads.Conserved) {event : Event}
    (enabled : threads.Enabled event) (unremoved : threads.Unremoved event)
    (taken : threads.next event = some after) : after.Conserved := by
  obtain ⟨middle, moves, rfl⟩ := next_moves enabled taken
  apply Conserved.settle
  cases moves with
  | loop result here ran =>
      exact conserved.exec here (unremoved _ (by simp [here])) ran
  | proceed index found => exact conserved.proceed _ _
  | restart empty => exact conserved.push rfl (by simp)
  | begins event begins => exact conserved.begins begins

theorem Conserved.new (now : Int) : Conserved (new now) := by
  refine ⟨?_, ?_⟩
  · intro fd
    simp [ConnectorThreads.places, ConnectorThreads.new, Connector.new, Connector.current, retried]
  · simp [ConnectorThreads.new]

theorem Conserved.oneOwner (conserved : threads.Conserved) : threads.OneOwner := by
  have once : ∀ fd, threads.places fd ≤ 1 := by
    intro fd
    rw [conserved.places]
    exact List.nodup_iff_count_le_one.mp List.nodup_range fd
  refine ⟨List.nodup_iff_count_le_one.mpr ?_, ?_⟩
  · intro fd
    have here := once fd
    unfold ConnectorThreads.places at here
    omega
  · intro fd given closed
    have here := once fd
    have inHanded := List.count_pos_iff.mpr given
    have inClosed := List.count_pos_iff.mpr closed
    unfold ConnectorThreads.places at here
    omega

/-- In every run in which no connecting channel meets an error or is stopped,
every descriptor is closed at most once and never after it has been handed
over. -/
theorem oneOwner_of_unremoved {events : List Event}
    (execution : unremovedSystem.Execution events threads) : threads.OneOwner := by
  have conserved : threads.Conserved := by
    apply execution.invariant Conserved
    · rintro start ⟨now, rfl⟩
      exact .new now
    · rintro before event after conserved ⟨⟨enabled, unremoved⟩, taken⟩
      exact conserved_next conserved enabled unremoved taken
  exact conserved.oneOwner

/-- A connection is made in the second attempt; the first was refused at
once. -/
theorem oneOwner_of_unremoved_second :
    let events : List Event :=
      [.start, .loop 0, .loop 0, .loop ECONNREFUSED, .loop 0, .loop 0, .loop 0,
        .doPendingFunctors, .runFunctor, .loop 0, .loop EINPROGRESS,
        .handleEvent Channel.EPOLLOUT, .loop 0, .loop 0]
    let threads := events.foldl advance (new 0)
    threads.connector.closed = [0] ∧ threads.handed = [1] ∧ threads.OneOwner := by
  intro events threads
  have execution : unremovedSystem.Execution events threads :=
    System.Execution.foldl_getD unremovedSystem
      (fun threads event => threads.Enabled event ∧ threads.Unremoved event)
      (fun _ _ _ permitted taken => ⟨permitted, taken⟩) ⟨0, rfl⟩ (by decide +kernel)
  exact ⟨by decide +kernel, by decide +kernel, oneOwner_of_unremoved execution⟩

/-- The connection is refused after `EINPROGRESS`: `retry` closes the
descriptor, and so does the destructor of the channel. -/
theorem refused_closes_twice :
    ¬ ∀ (events : List Event) (threads : ConnectorThreads),
      system.Execution events threads → threads.OneOwner := by
  intro always
  let events : List Event :=
    [.start, .loop 0, .loop 0, .loop EINPROGRESS, .handleEvent Channel.EPOLLOUT,
      .loop ECONNREFUSED, .loop 0, .loop 0, .loop 0, .loop 0, .doPendingFunctors, .runFunctor,
      .loop 0]
  have execution : system.Execution events (events.foldl advance (new 0)) :=
    System.Execution.foldl_getD system Enabled
      (fun _ _ _ enabled taken => ⟨enabled, taken⟩) ⟨0, rfl⟩ (by decide +kernel)
  have closed : (events.foldl advance (new 0)).connector.closed = [0, 0] := by decide +kernel
  have once := (always events _ execution).once
  simp [closed] at once

end ConnectorThreads

end GdRpc.Net
