import GdRpc.Net.ConnectorDescriptors

/-!
# The channel of a connecting connector

While `state_` is `kConnecting` the handlers dereference `channel_`. Two steps
take it away from them: `handleWrite` gives up a connection nobody wants any more
and leaves `state_` as it is, and a `resetChannel` queued in an earlier attempt
may run in the next one.
-/

namespace GdRpc.Net

open GdRpc.Library

namespace ConnectorThreads

open Connector (Instruction Functor Call)

/-- Between two callbacks a connecting connector has a channel with an open
descriptor, and no instruction dereferences null. -/
structure Channelled (threads : ConnectorThreads) : Prop where
  connecting : threads.code = [] → threads.connector.state_ = .kConnecting →
    ∃ channel ∈ threads.connector.channel_, channel.fd ∉ threads.connector.closed
  nonnull : ∀ result, threads.next (.loop result) ≠ none

/-- No `resetChannel` meets a connecting connector, and no connection comes up
that is not wanted any more. -/
def Timely (threads : ConnectorThreads) : Event → Prop
  | .loop result => threads.connector.state_ = .kConnecting →
      threads.code.head? ≠ some .resetChannel ∧
      (threads.code.head? = some .handleWrite → result = 0 →
        threads.connector.connect_ = true)
  | _ => True

instance (threads : ConnectorThreads) : ∀ event, Decidable (threads.Timely event)
  | .loop _ => inferInstanceAs (Decidable (_ → _ ∧ _))
  | .advance _ | .enableRetry | .call _ | .proceed _ | .start | .connectClient | .restart
  | .handleEvent _ | .timer _ | .closeCallback _ | .doPendingFunctors | .runFunctor =>
      inferInstanceAs (Decidable True)

/-- The runs in which every step is timely. -/
def timelySystem : System ConnectorThreads Event where
  initial threads := ∃ now, threads = new now
  step threads event after :=
    (threads.Enabled event ∧ threads.Timely event) ∧ threads.next event = some after

/-- A connecting connector has its channel in the middle of a callback too;
descriptors are numbered in the order of creation; what is handed over is what
`handleWrite` has just looked at. -/
structure Held (threads : ConnectorThreads) : Prop where
  connecting : threads.connector.state_ = .kConnecting →
    ∃ channel ∈ threads.connector.channel_, channel.fd ∉ threads.connector.closed
  closed : ∀ fd ∈ threads.connector.closed, fd < threads.connector.sockets
  current : ∀ fd ∈ threads.connector.current, fd < threads.connector.sockets
  retried : ∀ fd ∈ retried threads.code, fd < threads.connector.sockets
  code : ∀ sockfd, .close sockfd ∉ threads.code
  handOver : ∃ rest, .handOver ∉ rest ∧ (threads.code = rest ∨
    threads.code = .handOver :: rest ∧ threads.connector.state_ = .kConnecting)

variable {threads after : ConnectorThreads}

theorem Held.of_same (held : threads.Held)
    (state_ : after.connector.state_ = threads.connector.state_)
    (channel_ : after.connector.channel_ = threads.connector.channel_)
    (closed : after.connector.closed = threads.connector.closed)
    (sockets : after.connector.sockets = threads.connector.sockets)
    (code : after.code = threads.code) : after.Held := by
  refine ⟨?_, ?_, ?_, ?_, ?_, ?_⟩
  · rw [state_, channel_, closed]
    exact held.connecting
  · rw [closed, sockets]
    exact held.closed
  · rw [Connector.current, channel_, sockets]
    exact held.current
  · rw [code, sockets]
    exact held.retried
  · rw [code]
    exact held.code
  · rw [code, state_]
    exact held.handOver

theorem Held.push (held : threads.Held) (clean : .handOver ∉ threads.code)
    {code : List Instruction}
    (retries : ∀ fd ∈ ConnectorThreads.retried code, fd < threads.connector.sockets)
    (noClose : ∀ sockfd, .close sockfd ∉ code) (noHandOver : .handOver ∉ code) :
    (threads.push code).Held := by
  refine ⟨held.connecting, held.closed, held.current, ?_, ?_, ?_⟩
  · intro fd membership
    rw [ConnectorThreads.push, retried_append, List.mem_append] at membership
    exact membership.elim (retries fd) (held.retried fd)
  · intro sockfd membership
    exact (List.mem_append.mp membership).elim (noClose sockfd) (held.code sockfd)
  · refine ⟨_, ?_, .inl rfl⟩
    intro membership
    exact (List.mem_append.mp membership).elim noHandOver clean

theorem Held.tail (held : threads.Held) {instruction : Instruction} {code : List Instruction}
    (here : threads.code = instruction :: code) :
    Held { threads with code := code } ∧ .handOver ∉ code := by
  have clean : .handOver ∉ code := by
    obtain ⟨rest, noHandOver, same | ⟨same, _⟩⟩ := held.handOver
    · rw [here] at same
      subst same
      exact fun membership => noHandOver (List.mem_cons_of_mem _ membership)
    · rw [here] at same
      rwa [(List.cons.inj same).2]
  refine ⟨⟨held.connecting, held.closed, held.current, ?_, ?_, ⟨code, clean, .inl rfl⟩⟩, clean⟩
  · intro fd membership
    apply held.retried fd
    rw [here, ← List.singleton_append, retried_append]
    exact List.mem_append_right _ membership
  · intro sockfd membership
    apply held.code sockfd
    rw [here]
    exact List.mem_cons_of_mem _ membership

theorem Held.give (held : threads.Held) {connector : Connector} (given : List Nat)
    (known : ∀ fd ∈ given, fd < threads.connector.sockets)
    (idle : connector.state_ ≠ .kConnecting)
    (closed : connector.closed = threads.connector.closed ++ given)
    (sockets : connector.sockets = threads.connector.sockets)
    (current : ∀ fd ∈ connector.current, fd < threads.connector.sockets)
    (clean : .handOver ∉ threads.code) :
    Held { threads with connector := connector } := by
  refine ⟨fun waits => absurd waits idle, ?_, ?_, ?_, held.code, ⟨_, clean, .inl rfl⟩⟩
  · intro fd membership
    rw [closed, List.mem_append] at membership
    rw [sockets]
    exact membership.elim (held.closed fd) (known fd)
  · rw [sockets]
    exact current
  · rw [sockets]
    exact held.retried

theorem Held.startConnecting (held : threads.Held) (clean : .handOver ∉ threads.code) {sockfd : Nat}
    (known : sockfd < threads.connector.sockets) (isOpen : sockfd ∉ threads.connector.closed)
    (other : sockfd ∉ threads.connector.current) :
    Held { threads with connector := threads.connector.connecting sockfd } := by
  obtain ⟨closed, current, sockets⟩ := threads.connector.connecting_closed sockfd
  refine ⟨fun _ => ⟨_, rfl, ?_⟩, ?_, ?_, ?_, held.code, ⟨_, clean, .inl rfl⟩⟩
  · rw [closed, List.mem_append]
    exact fun membership => membership.elim isOpen other
  · intro fd membership
    rw [closed, List.mem_append] at membership
    rw [sockets]
    exact membership.elim (held.closed fd) (held.current fd)
  · intro fd membership
    rw [current, List.mem_singleton] at membership
    rwa [sockets, membership]
  · rw [sockets]
    exact held.retried

theorem Held.close (held : threads.Held) (clean : .handOver ∉ threads.code) {sockfd : Nat}
    (known : sockfd < threads.connector.sockets)
    (other : sockfd ∉ threads.connector.current) :
    Held { threads with connector := threads.connector.fail.close sockfd } := by
  refine ⟨?_, ?_, held.current, held.retried, held.code, ⟨_, clean, .inl rfl⟩⟩
  · intro waits
    obtain ⟨channel, present, isOpen⟩ := held.connecting waits
    refine ⟨channel, present, ?_⟩
    intro membership
    rcases List.mem_append.mp membership with old | new
    · exact isOpen old
    · rw [← List.mem_singleton.mp new, Connector.current, Option.mem_def.mp present] at other
      exact other (List.mem_singleton_self _)
  · intro fd membership
    rcases List.mem_append.mp membership with old | new
    · exact held.closed fd old
    · rwa [List.mem_singleton.mp new]

theorem Held.connect (held : threads.Held) (clean : .handOver ∉ threads.code)
    (savedErrno : Nat) : (threads.connect savedErrno).Held := by
  have older : ∀ fd < threads.connector.sockets, fd < threads.connector.sockets + 1 :=
    fun fd old => Nat.lt_succ_of_lt old
  have counted : Held { threads with connector := { threads.connector with
      sockets := threads.connector.sockets + 1
      attempts := threads.connector.attempts ++ [⟨threads.connector.now, threads.connector.putOff⟩]
      putOff := none } } :=
    ⟨held.connecting, fun fd membership => older fd (held.closed fd membership),
      fun fd membership => older fd (held.current fd membership),
      fun fd membership => older fd (held.retried fd membership), held.code,
      ⟨_, clean, .inl rfl⟩⟩
  have newest := Nat.lt_succ_self threads.connector.sockets
  have isOpen : threads.connector.sockets ∉ threads.connector.closed :=
    fun membership => lt_irrefl _ (held.closed _ membership)
  have other : threads.connector.sockets ∉ threads.connector.current :=
    fun membership => lt_irrefl _ (held.current _ membership)
  unfold ConnectorThreads.connect
  dsimp only
  split
  · exact counted.startConnecting clean newest isOpen other
  · split
    · refine counted.push clean ?_ (by simp) (by simp)
      intro fd membership
      rwa [show fd = threads.connector.sockets from List.mem_singleton.mp membership]
    · exact counted.close clean newest other

theorem Held.remove (held : threads.Held) (clean : .handOver ∉ threads.code)
    {channel : ConnectingChannel} (present : threads.connector.channel_ = some channel) :
    (threads.remove channel [.retry channel.fd]).Held := by
  have known : channel.fd < threads.connector.sockets :=
    held.current channel.fd (by simp [Connector.current, present])
  have removed : Held { threads with connector := { threads.connector with
      channel_ := some channel.disableAll.remove } } := by
    refine ⟨?_, held.closed, ?_, held.retried, held.code, ⟨_, clean, .inl rfl⟩⟩
    · intro waits
      obtain ⟨other, isOther, isOpen⟩ := held.connecting waits
      obtain rfl := Option.some.inj (present.symm.trans isOther)
      exact ⟨_, rfl, isOpen⟩
    · intro fd membership
      rwa [show fd = channel.fd from List.mem_singleton.mp membership]
  unfold ConnectorThreads.remove
  refine removed.push clean ?_ (by simp) (by simp)
  intro fd membership
  rwa [show fd = channel.fd from List.mem_singleton.mp membership]

theorem Held.exec {instruction : Instruction} {code : List Instruction} {result : Nat}
    (held : threads.Held) (here : threads.code = instruction :: code)
    (timely : threads.Timely (.loop result))
    (ran : { threads with code := code }.exec result instruction = some after) :
    after.Held := by
  obtain ⟨rest, clean⟩ := held.tail here
  simp only [Timely, here, List.head?_cons, ne_eq, Option.some.injEq] at timely
  cases instruction with
  | startInLoop =>
      cases ran
      split
      · exact rest.push clean (by simp [ConnectorThreads.retried]) (by simp) (by simp)
      · exact rest
  | connect =>
      cases ran
      refine Held.connect ?_ clean result
      exact rest.of_same rfl rfl rfl rfl rfl
  | stopInLoop =>
      obtain rfl | ⟨_, channel, present, rfl⟩ := exec_stopInLoop ran
      · exact rest
      · refine Held.remove ?_ clean present
        exact rest.give [] (by simp) (by simp) (by simp) rfl held.current clean
  | handleError =>
      obtain rfl | ⟨_, channel, present, rfl⟩ := exec_handleError ran
      · exact rest
      · exact rest.remove clean present
  | handleWrite =>
      obtain rfl | ⟨waits, channel, present, ⟨_, rfl⟩ | ⟨_, _, rfl⟩ | ⟨zero, unwanted, _⟩⟩ :=
        exec_handleWrite ran
      · exact rest
      · exact rest.remove clean present
      · exact ⟨rest.connecting, rest.closed, rest.current, rest.retried,
          by simpa [ConnectorThreads.push] using rest.code, ⟨code, clean, .inr ⟨rfl, waits⟩⟩⟩
      · -- nothing unwanted comes up in a timely step
        have wanted := (timely waits).2 rfl zero
        exact absurd wanted (Bool.eq_false_iff.mp unwanted)
  | handOver =>
      simp only [ConnectorThreads.exec] at ran
      obtain ⟨channel, present, rfl⟩ := Option.map_eq_some_iff.mp ran
      exact ⟨by simp, rest.closed, by simp [Connector.current], rest.retried, rest.code,
        ⟨_, clean, .inl rfl⟩⟩
  | retry sockfd =>
      have known : sockfd < threads.connector.sockets :=
        held.retried sockfd (by simp [here, ConnectorThreads.retried])
      have closed : Held { threads with
          code := code
          connector := { threads.connector.fail.close sockfd with
            state_ := .kDisconnected } } := by
        refine rest.give [sockfd] ?_ (by simp) rfl rfl held.current clean
        intro fd membership
        rwa [List.mem_singleton.mp membership]
      cases ran
      split
      · exact closed.push clean (by simp [ConnectorThreads.retried]) (by simp) (by simp)
      · exact closed
  | close sockfd =>
      refine absurd ?_ (held.code sockfd)
      rw [here]
      exact List.mem_cons_self
  | resetChannel =>
      cases ran
      obtain ⟨closed, null, sockets⟩ := threads.connector.resetChannel_closed
      refine rest.give _ held.current ?_ closed sockets (by simp [Connector.current, null]) clean
      rw [threads.connector.resetChannel_state]
      exact fun waits => (timely waits).1 rfl
  | runAfter | queueInLoop functor =>
      cases ran
      exact rest.of_same rfl rfl rfl rfl rfl
  | restart =>
      cases ran
      refine Held.push ?_ clean (by simp [ConnectorThreads.retried]) (by simp) (by simp)
      exact rest.give [] (by simp) (by simp) (by simp) rfl held.current clean
  | start | setConnected =>
      cases ran
      refine Held.push ?_ clean (by simp [ConnectorThreads.retried]) (by simp) (by simp)
      exact rest.of_same rfl rfl rfl rfl rfl
  | connectClient =>
      cases ran
      split
      · exact rest
      · exact rest.push clean (by simp [ConnectorThreads.retried]) (by simp) (by simp)
  | testRetry | testConnect =>
      cases ran
      split
      · exact rest.push clean (by simp [ConnectorThreads.retried]) (by simp) (by simp)
      · exact rest

theorem Held.begins (held : threads.Held) (begins : threads.Begins after) : after.Held := by
  rcases begins.code with same | ⟨empty, entries⟩
  · exact held.of_same begins.state_ begins.channel_ begins.closed begins.sockets same
  · have base : Held { after with code := [] } :=
      held.of_same begins.state_ begins.channel_ begins.closed begins.sockets empty.symm
    refine ⟨base.connecting, base.closed, base.current, ?_, fun sockfd => entries (.close sockfd),
      after.code, entries .handOver, .inl rfl⟩
    rw [retried_of_entries entries]
    exact base.retried

theorem Held.proceed (held : threads.Held) (call : Call) (calls : List Call) :
    Held { (threads.proceed call).2 with calls := calls } := by
  cases call with
  | queueStop since =>
      simp only [ConnectorThreads.proceed, promise]
      split <;> exact held.of_same rfl rfl rfl rfl rfl
  | connectClient | setConnected | start | queueStart | stopClient | stop since | returned =>
      exact held.of_same rfl rfl rfl rfl rfl

theorem Held.settle (held : threads.Held) : threads.settle.Held := by
  unfold ConnectorThreads.settle
  split
  · exact held.of_same rfl rfl rfl rfl rfl
  · exact held

theorem held_next (held : threads.Held) {event : Event} (enabled : threads.Enabled event)
    (timely : threads.Timely event) (taken : threads.next event = some after) :
    after.Held := by
  obtain ⟨middle, moves, rfl⟩ := next_moves enabled taken
  apply Held.settle
  cases moves with
  | loop result here ran => exact held.exec here timely ran
  | proceed index found => exact held.proceed _ _
  | restart empty =>
      exact held.push (by simp [empty]) (by simp [ConnectorThreads.retried]) (by simp) (by simp)
  | begins event begins => exact held.begins begins

/-- The instructions that dereference `channel_` are taken while it is there. -/
theorem Held.nonnull (held : threads.Held) (result : Nat) :
    threads.next (.loop result) ≠ none := by
  have present : threads.connector.state_ = .kConnecting →
      threads.connector.channel_ ≠ none := by
    intro waits
    obtain ⟨channel, present, _⟩ := held.connecting waits
    rw [Option.mem_def.mp present]
    simp
  rw [next, ne_eq, Option.map_eq_none_iff]
  cases here : threads.code with
  | nil => simp [step, here]
  | cons instruction code =>
      simp only [step, here]
      cases instruction with
      | stopInLoop | handleError | handleWrite =>
          simp only [ConnectorThreads.exec]
          split
          next waits => simpa using present waits
          next => simp
      | handOver =>
          obtain ⟨rest, noHandOver, same | ⟨_, waits⟩⟩ := held.handOver
          · rw [here] at same
            rw [← same] at noHandOver
            exact absurd List.mem_cons_self noHandOver
          · simpa [ConnectorThreads.exec] using present waits
      | startInLoop | connect | retry | runAfter | queueInLoop | close | resetChannel | restart
      | start | connectClient | setConnected | testRetry | testConnect =>
          simp [ConnectorThreads.exec]

theorem Held.new (now : Int) : Held (new now) := by
  refine ⟨?_, ?_, ?_, ?_, ?_, ⟨[], by simp, .inl rfl⟩⟩ <;>
    simp [ConnectorThreads.new, Connector.new, Connector.current, ConnectorThreads.retried]

/-- In every run in which no `resetChannel` meets a connecting connector, and no
connection comes up that is not wanted any more, a connecting connector has its
channel. -/
theorem channelled_of_timely {events : List Event}
    (execution : timelySystem.Execution events threads) : threads.Channelled := by
  have held : threads.Held := by
    apply execution.invariant Held
    · rintro start ⟨now, rfl⟩
      exact .new now
    · rintro before event after held ⟨⟨enabled, timely⟩, taken⟩
      exact held_next held enabled timely taken
  exact ⟨fun _ => held.connecting, held.nonnull⟩

/-- A refused attempt is repeated, and the next one is stopped. -/
theorem channelled_of_timely_stopped :
    let events : List Event :=
      [.start, .loop 0, .loop 0, .loop EINPROGRESS, .handleEvent Channel.EPOLLOUT,
        .loop ECONNREFUSED, .loop 0, .loop 0, .loop 0, .loop 0, .doPendingFunctors, .runFunctor,
        .loop 0, .runFunctor, .loop 0, .loop EINPROGRESS, .call (.stop none), .proceed 0,
        .proceed 0, .doPendingFunctors, .runFunctor, .loop 0, .loop 0, .loop 0]
    (events.foldl advance (new 0)).Channelled := by
  intro events
  have execution : timelySystem.Execution events (events.foldl advance (new 0)) :=
    System.Execution.foldl_getD timelySystem
      (fun threads event => threads.Enabled event ∧ threads.Timely event)
      (fun _ _ _ permitted taken => ⟨permitted, taken⟩) ⟨0, rfl⟩ (by decide +kernel)
  exact channelled_of_timely execution

/-- The connection comes up when it has been stopped: `handleWrite` closes the
descriptor, `resetChannel` makes `channel_` null, and `stopInLoop` finds
`kConnecting`. -/
theorem stopped_connection_dereferences_null :
    ¬ ∀ (events : List Event) (threads : ConnectorThreads),
      system.Execution events threads → threads.Channelled := by
  intro always
  let events : List Event :=
    [.start, .loop 0, .loop 0, .loop EINPROGRESS, .call (.stop none), .proceed 0,
      .handleEvent Channel.EPOLLOUT, .loop 0, .loop 0, .loop 0, .proceed 0, .doPendingFunctors,
      .runFunctor, .loop 0, .runFunctor]
  have execution : system.Execution events (events.foldl advance (new 0)) :=
    System.Execution.foldl_getD system Enabled
      (fun _ _ _ enabled taken => ⟨enabled, taken⟩) ⟨0, rfl⟩ (by decide +kernel)
  exact (always events _ execution).nonnull 0 (by decide +kernel)

end ConnectorThreads

end GdRpc.Net
