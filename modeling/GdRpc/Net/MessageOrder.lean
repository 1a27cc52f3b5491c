import GdRpc.Library.ThreadOrder
import GdRpc.Net.GracefulShutdown

/-!
# The order of the messages of one thread

A message goes straight to `sendInLoop` on the loop thread and through the
queue of functors on any other. It may overtake messages of other threads on
the way, but not those of its own: the loop thread never queues a message, and
the queue is first in, first out.
-/

namespace GdRpc.Net

open GdRpc.Library

universe u

namespace TcpConnection

/-- The kernel has accepted a prefix of `stream`; as long as the connection is
not closed, the rest waits in the output buffer. -/
structure Carries (connection : TcpConnection) (stream : Bytes) : Prop where
  accepted : connection.accepted <+: stream
  outgoing : connection.state_ ≠ .kDisconnected → connection.outgoing = stream
  interest : connection.state_ ≠ .kDisconnected → connection.InterestMatchesBuffer
  closed : connection.state_ = .kDisconnected → connection.channel_.isWriting = false

variable {connection after : TcpConnection} {stream s : Bytes}

theorem Carries.emits (carries : connection.Carries stream)
    (alive : connection.state_ ≠ .kDisconnected) (emits : connection.Emits s after) :
    after.Carries (stream ++ s) := by
  have outgoing : after.outgoing = stream ++ s := by
    rw [emits.outgoing, carries.outgoing alive]
  constructor
  · rw [← outgoing]
    exact List.prefix_append _ _
  · exact fun _ => outgoing
  · exact fun _ => emits.interest
  · intro disconnected
    exact absurd disconnected (emits.alive alive)

theorem Carries.sendInLoop (carries : connection.Carries stream) (s : Bytes)
    (result : WriteResult) :
    connection.sendInLoop s result = connection ∨
      (connection.state_ ≠ .kDisconnected ∧
        connection.Emits s (connection.sendInLoop s result)) := by
  by_cases disconnected : connection.state_ = .kDisconnected
  · left
    rw [TcpConnection.sendInLoop, if_pos disconnected]
  · rcases (connection.sendInLoop_cases s result disconnected
      (carries.interest disconnected)).2 with ⟨_, unchanged⟩ | emits
    · exact .inl unchanged
    · exact .inr ⟨disconnected, emits⟩

/-- After a step the connection carries `stream` and perhaps some of `messages`
behind it, and the step has queued notifications only. -/
def Passes (connection after : TcpConnection) (stream : Bytes)
    (messages : List Bytes) : Prop :=
  ∃ given : List Bytes, given.Sublist messages ∧
    after.Carries (stream ++ given.flatten) ∧
    ∃ added : List Functor, (∀ functor ∈ added, functor.Notifies) ∧
      after.pending_functors_ = connection.pending_functors_ ++ added

theorem Passes.drop (messages : List Bytes) (carries : connection.Carries stream) :
    Passes connection connection stream messages := by
  refine ⟨[], List.nil_sublist _, ?_, [], by simp, by simp⟩
  simpa using carries

theorem Passes.emit (alive : connection.state_ ≠ .kDisconnected)
    (carries : connection.Carries stream) {messages : List Bytes}
    (emits : connection.Emits messages.flatten after) :
    Passes connection after stream messages :=
  ⟨messages, List.Sublist.refl _, carries.emits alive emits, emits.functors⟩

theorem Carries.runFunctor (carries : connection.Carries stream) {functor : Functor}
    (keepsOpen : functor.KeepsOpen) (result : WriteResult) :
    Passes connection (connection.runFunctor functor result) stream
      functor.message?.toList := by
  cases functor with
  | forceCloseInLoop | connectDestroyed => exact keepsOpen.elim
  | writeCompleteCallback | highWaterMarkCallback => exact .drop _ carries
  | sendInLoop s =>
      rcases carries.sendInLoop s result with same | ⟨alive, emits⟩
      · change Passes connection (connection.sendInLoop s result) stream [s]
        rw [same]
        exact .drop _ carries
      · have message : (Functor.sendInLoop s).message?.toList.flatten = s := by
          simp [Functor.message?]
        apply Passes.emit alive carries
        rw [message]
        exact emits
  | shutdownInLoop =>
      refine ⟨[], List.nil_sublist _, ?_, [], by simp, ?_⟩
      · simp only [TcpConnection.runFunctor, shutdownInLoop_eq, List.flatten_nil,
          List.append_nil]
        exact ⟨carries.accepted, carries.outgoing, carries.interest, carries.closed⟩
      · simp [TcpConnection.runFunctor, shutdownInLoop_eq]

theorem Carries.handleWrite (carries : connection.Carries stream)
    (result : WriteResult) :
    Passes connection (connection.handleWrite result) stream [] := by
  by_cases disconnected : connection.state_ = .kDisconnected
  · have unchanged : connection.handleWrite result = connection := by
      rw [TcpConnection.handleWrite, carries.closed disconnected]
      rfl
    rw [unchanged]
    exact .drop _ carries
  · exact .emit disconnected carries (connection.handleWrite_spec result
      (carries.interest disconnected)).1

theorem Carries.handleClose (carries : connection.Carries stream) :
    connection.handleClose.Carries stream := by
  constructor
  · exact carries.accepted
  · intro alive
    exact absurd rfl alive
  · intro alive
    exact absurd rfl alive
  · intro _
    exact Channel.isWriting_disableAll connection.channel_

end TcpConnection

namespace ConnectionThreads

variable {Thread : Type u} [DecidableEq Thread]

/-- The messages that have passed the test of `state_` and are not yet in the
hands of `runInLoop`. -/
def callMessages (calls : List (Thread × Call)) : List (Thread × Bytes) :=
  calls.filterMap fun entry =>
    entry.2.functor.message?.map fun s => (entry.1, s)

/-- What may happen to a connection: one of the threads' events, or the loop
thread closes it. -/
inductive Interleaved (Thread : Type u) where
  | act (event : Event Thread)
  | handleClose

/-- The call of `send` an event is. -/
def Interleaved.sent? : Interleaved Thread → Option (Thread × Bytes)
  | .act (.send thread s) => some (thread, s)
  | _ => none

def Interleaved.Enabled (loop : Thread) (threads : ConnectionThreads Thread) :
    Interleaved Thread → Prop
  | .act event => ConnectionThreads.Enabled loop threads event
  | .handleClose => threads.Idle loop

instance (loop : Thread) (threads : ConnectionThreads Thread) :
    ∀ label : Interleaved Thread, Decidable (label.Enabled loop threads)
  | .act event => inferInstanceAs (Decidable (ConnectionThreads.Enabled loop threads event))
  | .handleClose => inferInstanceAs (Decidable (threads.Idle loop))

def interleave (loop : Thread) (threads : ConnectionThreads Thread) :
    Interleaved Thread → ConnectionThreads Thread
  | .act event => next loop threads event
  | .handleClose => { threads with connection := threads.connection.handleClose }

/-- All interleavings, with any results of the writes. -/
def interleavings (loop : Thread) :
    System (ConnectionThreads Thread) (Interleaved Thread) where
  initial threads :=
    ∃ writeComplete highWaterMark, threads = start writeComplete highWaterMark
  step threads label after :=
    label.Enabled loop threads ∧ after = interleave loop threads label

/-- The message of a functor, tagged with the thread it comes from. -/
def tagged (thread : Thread) (functor : Functor) : List (Thread × Bytes) :=
  functor.message?.toList.map fun s => (thread, s)

omit [DecidableEq Thread] in
theorem tagged_thread {thread : Thread} {functor : Functor} {entry : Thread × Bytes}
    (membership : entry ∈ tagged thread functor) : entry.1 = thread := by
  obtain ⟨s, _, rfl⟩ := List.mem_map.mp membership
  rfl

/-- `handed` are the messages given to the outgoing stream and `queued` those
in the functors still to run, each with its thread. -/
structure OrderInvariant (loop : Thread) (sent handed queued : List (Thread × Bytes))
    (threads : ConnectionThreads Thread) : Prop where
  messages : queued.map Prod.snd = Functor.messages threads.functors
  keepOpen : ∀ functor ∈ threads.functors, functor.KeepsOpen
  remote : ∀ entry ∈ queued, entry.1 ≠ loop
  single : (threads.calls.map Prod.fst).Nodup
  order : KeepsThreadOrder (handed ++ queued ++ callMessages threads.calls) sent
  carries : threads.connection.Carries (handed.map Prod.snd).flatten

/-- The invariant with the two lists left open. -/
def Ordered (loop : Thread) (sent : List (Thread × Bytes))
    (threads : ConnectionThreads Thread) : Prop :=
  ∃ handed queued, OrderInvariant loop sent handed queued threads

omit [DecidableEq Thread] in
theorem tagged_messages (thread : Thread) (functor : Functor) :
    (tagged thread functor).map Prod.snd = functor.message?.toList := by
  simp [tagged]

namespace OrderInvariant

variable {loop : Thread} {sent handed queued : List (Thread × Bytes)}
  {threads : ConnectionThreads Thread}

/-- The loop thread runs what has been taken out before: `own` is passed on
ahead of the queue, or dropped. -/
theorem commit (handed own : List (Thread × Bytes)) {after : TcpConnection}
    (messages : queued.map Prod.snd = Functor.messages threads.functors)
    (keepOpen : ∀ functor ∈ threads.functors, functor.KeepsOpen)
    (remote : ∀ entry ∈ queued, entry.1 ≠ loop)
    (single : (threads.calls.map Prod.fst).Nodup)
    (order : KeepsThreadOrder (handed ++ own ++ queued ++ callMessages threads.calls) sent)
    (passes : TcpConnection.Passes threads.connection after
      (handed.map Prod.snd).flatten (own.map Prod.snd)) :
    Ordered loop sent (threads.commit after) := by
  obtain ⟨given, selected, carries, added, notify, pending⟩ := passes
  obtain ⟨passed, sublist, rfl⟩ := List.sublist_map_iff.mp selected
  have functors : (threads.commit after).functors = threads.functors ++ added := by
    simp [ConnectionThreads.functors, ConnectionThreads.commit, pending]
  refine ⟨handed ++ passed, queued, ?_, ?_, remote, single, ?_, ?_⟩
  · rw [functors, Functor.messages_append, Functor.messages_of_notifies notify,
      List.append_nil]
    exact messages
  · rw [functors]
    intro functor membership
    rcases List.mem_append.mp membership with old | new
    · exact keepOpen functor old
    · exact (notify functor new).keepsOpen
  · refine order.sublist ?_
    exact ((sublist.append_left handed).append_right queued).append_right _
  · change after.Carries _
    simpa using carries

theorem split_calls (single : (threads.calls.map Prod.fst).Nodup) {thread : Thread}
    {call : Call} (underWay : (thread, call) ∈ threads.calls) :
    ∃ before behind, threads.calls = before ++ (thread, call) :: behind ∧
      threads.calls.erase (thread, call) = before ++ behind ∧
      ∀ entry ∈ before, entry.1 ≠ thread := by
  obtain ⟨before, behind, _, split, erased⟩ := List.exists_erase_eq underWay
  refine ⟨before, behind, split, erased, ?_⟩
  intro entry membership same
  rw [split, List.map_append, List.map_cons, List.nodup_append] at single
  exact single.2.2 entry.1 (List.mem_map_of_mem membership) thread
    List.mem_cons_self same

omit [DecidableEq Thread] in
theorem callMessages_split (before behind : List (Thread × Call)) (thread : Thread)
    (call : Call) :
    callMessages (before ++ (thread, call) :: behind) =
      callMessages before ++ tagged thread call.functor ++ callMessages behind := by
  unfold callMessages tagged
  rw [List.filterMap_append, List.append_assoc]
  cases call with
  | send s => rfl
  | shutdown => rfl

omit [DecidableEq Thread] in
theorem callMessages_thread {calls : List (Thread × Call)} {thread : Thread}
    (others : ∀ entry ∈ calls, entry.1 ≠ thread) :
    ∀ entry ∈ callMessages calls, entry.1 ≠ thread := by
  intro entry membership
  obtain ⟨call, isCall, isMessage⟩ := List.mem_filterMap.mp membership
  obtain ⟨message, _, rfl⟩ := Option.map_eq_some_iff.mp isMessage
  exact others call isCall

theorem send (invariant : OrderInvariant loop sent handed queued threads)
    {thread : Thread} (idle : threads.Idle thread) (s : Bytes) :
    Ordered loop (sent ++ [(thread, s)]) (next loop threads (.send thread s)) := by
  by_cases connected : threads.connection.state_ = .kConnected
  · rw [next, if_pos connected]
    refine ⟨handed, queued, invariant.messages, invariant.keepOpen, invariant.remote,
      ?_, ?_, invariant.carries⟩
    · rw [List.map_append, List.nodup_append]
      refine ⟨invariant.single, by simp, ?_⟩
      intro other membership new isNew same
      obtain ⟨entry, isCall, rfl⟩ := List.mem_map.mp membership
      rw [List.mem_singleton.mp isNew] at same
      exact idle entry isCall same
    · have extended := invariant.order.snoc (thread, s)
      simpa [callMessages, Functor.message?, Call.functor] using extended
  · rw [next, if_neg connected]
    exact ⟨handed, queued, { invariant with order := invariant.order.extend _ }⟩

theorem shutdown (invariant : OrderInvariant loop sent handed queued threads)
    {thread : Thread} (idle : threads.Idle thread) :
    Ordered loop sent (next loop threads (.shutdown thread)) := by
  by_cases connected : threads.connection.state_ = .kConnected
  · simp only [next, TcpConnection.compareExchange, if_pos connected, if_true]
    have alive : threads.connection.state_ ≠ .kDisconnected := by simp [connected]
    refine ⟨handed, queued, invariant.messages, invariant.keepOpen, invariant.remote,
      ?_, ?_, ?_⟩
    · rw [List.map_append, List.nodup_append]
      refine ⟨invariant.single, by simp, ?_⟩
      intro other membership new isNew same
      obtain ⟨entry, isCall, rfl⟩ := List.mem_map.mp membership
      rw [List.mem_singleton.mp isNew] at same
      exact idle entry isCall same
    · simpa [callMessages, Functor.message?, Call.functor] using invariant.order
    · constructor
      · exact invariant.carries.accepted
      · exact fun _ => invariant.carries.outgoing alive
      · exact fun _ => invariant.carries.interest alive
      · intro disconnected
        cases disconnected
  · simp only [next, TcpConnection.compareExchange, if_neg connected]
    exact ⟨handed, queued, invariant⟩

theorem runInLoop (invariant : OrderInvariant loop sent handed queued threads)
    {thread : Thread} {call : Call} (underWay : (thread, call) ∈ threads.calls)
    (result : WriteResult) :
    Ordered loop sent (next loop threads (.runInLoop thread call result)) := by
  obtain ⟨before, behind, split, erased, others⟩ :=
    split_calls invariant.single underWay
  have keepsOpen := call.functor_keepsOpen
  have single : ((before ++ behind).map Prod.fst).Nodup := by
    rw [← erased]
    exact (List.erase_sublist.map _).nodup invariant.single
  have order := invariant.order
  rw [split, callMessages_split] at order
  have fewer : callMessages (before ++ behind) =
      callMessages before ++ callMessages behind := List.filterMap_append
  have own : ∀ entry ∈ tagged thread call.functor, entry.1 = thread :=
    fun _ => tagged_thread
  by_cases inLoop : thread = loop
  · -- the loop thread overtakes the queue, in which nothing is its own
    subst inLoop
    rw [next, if_pos rfl, erased]
    refine commit handed (tagged thread call.functor) invariant.messages
      invariant.keepOpen invariant.remote single ?_ ?_
    · rw [fewer, ← List.append_assoc, List.append_assoc _ queued]
      apply KeepsThreadOrder.overtake _ own
      · intro other membership
        rcases List.mem_append.mp membership with old | ahead
        · exact invariant.remote other old
        · exact callMessages_thread others other ahead
      · simpa only [List.append_assoc] using order
    · rw [tagged_messages]
      exact invariant.carries.runFunctor keepsOpen result
  · rw [next, if_neg inLoop, erased]
    have functors := threads.functors_queueInLoop (before ++ behind) call.functor
    refine ⟨handed, queued ++ tagged thread call.functor, ?_, ?_, ?_, single, ?_, ?_⟩
    · rw [functors, Functor.messages_append, Functor.messages_cons, List.map_append,
        tagged_messages, invariant.messages]
      simp [Functor.messages]
    · rw [functors]
      intro functor membership
      rcases List.mem_append.mp membership with old | new
      · exact invariant.keepOpen functor old
      · exact List.mem_singleton.mp new ▸ keepsOpen
    · intro entry membership
      rcases List.mem_append.mp membership with old | new
      · exact invariant.remote entry old
      · rw [own entry new]
        exact inLoop
    · rw [fewer, ← List.append_assoc, ← List.append_assoc]
      apply KeepsThreadOrder.overtake _ own
      · exact callMessages_thread others
      · simpa only [List.append_assoc] using order
    · constructor
      · exact invariant.carries.accepted
      · exact invariant.carries.outgoing
      · exact invariant.carries.interest
      · exact invariant.carries.closed

theorem runFunctor (invariant : OrderInvariant loop sent handed queued threads)
    (result : WriteResult) :
    Ordered loop sent (next loop threads (.runFunctor result)) := by
  unfold next
  dsimp only
  split
  next functor rest batch =>
    have functors := functors_eq_cons batch
    have messages := invariant.messages
    have keepOpen := invariant.keepOpen
    rw [functors] at messages keepOpen
    rw [Functor.messages_cons] at messages
    obtain ⟨own, others, rfl, ownMessage, otherMessages⟩ := List.map_eq_append_iff.mp messages
    refine commit handed own otherMessages
      (fun functor membership => keepOpen functor (List.mem_cons_of_mem _ membership))
      (fun entry membership => invariant.remote entry (List.mem_append_right _ membership))
      invariant.single ?_ ?_
    · simpa only [List.append_assoc] using invariant.order
    · rw [ownMessage]
      exact invariant.carries.runFunctor (keepOpen functor List.mem_cons_self) result
  next => exact ⟨handed, queued, invariant⟩

theorem rebatch (invariant : OrderInvariant loop sent handed queued threads)
    (batch : Option (List Functor)) (pending : List Functor)
    (same : batch.getD [] ++ pending = threads.functors) :
    Ordered loop sent { threads with
      batch := batch
      connection := { threads.connection with pending_functors_ := pending } } := by
  have functors : { threads with
      batch := batch
      connection := { threads.connection with
        pending_functors_ := pending } }.functors = threads.functors := same
  refine ⟨handed, queued, ?_, ?_, invariant.remote, invariant.single, invariant.order, ?_⟩
  · rw [functors]
    exact invariant.messages
  · rw [functors]
    exact invariant.keepOpen
  · constructor
    · exact invariant.carries.accepted
    · exact invariant.carries.outgoing
    · exact invariant.carries.interest
    · exact invariant.carries.closed

theorem handleWrite (invariant : OrderInvariant loop sent handed queued threads)
    (result : WriteResult) :
    Ordered loop sent (next loop threads (.handleWrite result)) := by
  refine commit handed [] invariant.messages invariant.keepOpen invariant.remote
    invariant.single ?_ ?_
  · simpa using invariant.order
  · exact invariant.carries.handleWrite result

/-- The step lemma. -/
theorem step (invariant : OrderInvariant loop sent handed queued threads)
    {label : Interleaved Thread} {after : ConnectionThreads Thread}
    (taken : (interleavings loop).step threads label after) :
    Ordered loop (sent ++ label.sent?.toList) after := by
  obtain ⟨enabled, rfl⟩ := taken
  cases label with
  | handleClose =>
      refine ⟨handed, queued, { invariant with
        order := ?_
        carries := invariant.carries.handleClose }⟩
      simpa [Interleaved.sent?, interleave] using invariant.order
  | act event =>
      cases event with
      | send thread s => exact invariant.send enabled s
      | shutdown thread =>
          simpa [Interleaved.sent?, interleave] using invariant.shutdown enabled
      | runInLoop thread call result =>
          simpa [Interleaved.sent?, interleave] using invariant.runInLoop enabled result
      | runFunctor result =>
          simpa [Interleaved.sent?, interleave] using invariant.runFunctor result
      | handleWrite result =>
          simpa [Interleaved.sent?, interleave] using invariant.handleWrite result
      | beginFunctors =>
          simp only [Interleaved.sent?, Option.toList_none, List.append_nil]
          exact invariant.rebatch (some _) [] (by simp [functors, enabled.2])
      | endFunctors =>
          simp only [Interleaved.sent?, Option.toList_none, List.append_nil]
          exact invariant.rebatch none threads.connection.pending_functors_
            (by simp [functors, enabled.2])

end OrderInvariant

theorem start_ordered (loop : Thread) (writeComplete highWaterMark : Bool) :
    Ordered loop [] (start writeComplete highWaterMark) := by
  refine ⟨[], [], ?_, ?_, ?_, ?_, KeepsThreadOrder.nil _, ?_⟩
  · rfl
  · simp [start, functors, TcpConnection.connectEstablished, TcpConnection.callOwner,
      TcpConnection.new]
  · simp
  · simp [start]
  · constructor <;> simp [start, TcpConnection.connectEstablished,
      TcpConnection.callOwner, TcpConnection.new, TcpConnection.outgoing,
      TcpConnection.InterestMatchesBuffer]

/-- Whatever the interleaving and the results of the writes, the bytes the
kernel has accepted are the beginning of a concatenation of whole messages,
which are calls of `send` with those of each thread in the order in which this
thread made them. Nothing is accepted after the connection has been closed. -/
theorem accepted_in_thread_order {loop : Thread} {history : List (Interleaved Thread)}
    {threads : ConnectionThreads Thread}
    (execution : (interleavings loop).Execution history threads) :
    ∃ order : List (Thread × Bytes),
      threads.connection.accepted <+: (order.map Prod.snd).flatten ∧
        ∀ thread, (order.filter fun entry => entry.1 = thread).Sublist
          ((history.filterMap Interleaved.sent?).filter fun entry => entry.1 = thread) := by
  have ordered := execution.history
    (fun past reached => Ordered loop (past.filterMap Interleaved.sent?) reached) ?_ ?_
  · obtain ⟨handed, queued, invariant⟩ := ordered
    refine ⟨handed, invariant.carries.accepted, ?_⟩
    apply invariant.order.sublist
    rw [List.append_assoc]
    exact List.sublist_append_left _ _
  · rintro _ ⟨writeComplete, highWaterMark, rfl⟩
    exact start_ordered loop writeComplete highWaterMark
  · rintro past middle label next ⟨handed, queued, invariant⟩ step
    have single : [label].filterMap Interleaved.sent? = label.sent?.toList := by
      cases sent : label.sent? with
      | none => simp [sent]
      | some entry => simp [sent]
    rw [List.filterMap_append, single]
    exact invariant.step step

/-- A message of the loop thread overtakes one of thread `1`; of the second
message of thread `1` the kernel takes a part before the connection closes. -/
theorem accepted_in_thread_order_overtaking :
    let labels : List (Interleaved Nat) :=
      [.act (.send 1 [7]), .act (.runInLoop 1 (.send [7]) (.wrote 0)),
        .act (.send 0 [8]), .act (.runInLoop 0 (.send [8]) (.wrote 1)),
        .act (.send 1 [5, 6]), .act (.runInLoop 1 (.send [5, 6]) (.wrote 0)),
        .act .beginFunctors, .act (.runFunctor (.wrote 1)),
        .act (.runFunctor (.wrote 1)), .handleClose]
    let threads := labels.foldl (interleave 0) (start false false)
    threads.connection.accepted = [8, 7, 5] ∧
      ∃ order : List (Nat × Bytes),
        threads.connection.accepted <+: (order.map Prod.snd).flatten ∧
          ∀ thread, (order.filter fun entry => entry.1 = thread).Sublist
            ((labels.filterMap Interleaved.sent?).filter
              fun entry => entry.1 = thread) := by
  intro labels threads
  have execution : (interleavings 0).Execution labels threads :=
    System.Execution.foldl (interleavings 0)
      (fun threads label => label.Enabled 0 threads)
      (fun _ _ enabled => ⟨enabled, rfl⟩) ⟨false, false, rfl⟩ (by decide)
  exact ⟨by decide, accepted_in_thread_order execution⟩

end ConnectionThreads

end GdRpc.Net
