import GdRpc.Library.Threshold
import GdRpc.Net.OutputStream

/-!
# High water and write complete

The two notifications a producer paces itself by. The first goes out when what
is buffered reaches `highWaterMark_` from below, the second when the buffer has
drained, so a producer that stops at the one can rely on the other.
-/

namespace GdRpc.Net

open GdRpc.Library GdRpc.Library.System

/-- The sizes passed to `highWaterMarkCallback_`, oldest first. -/
def reportedSizes (functors : List Functor) : List Nat :=
  functors.filterMap fun
    | .highWaterMarkCallback size => some size
    | _ => none

theorem reportedSizes_append (first second : List Functor) :
    reportedSizes (first ++ second) = reportedSizes first ++ reportedSizes second :=
  List.filterMap_append

/-- Whether the producer waits to hear that the buffer has drained, once it has
heard one more notification. -/
def hear (waiting : Bool) : Functor → Bool
  | .highWaterMarkCallback _ => true
  | .writeCompleteCallback => false
  | _ => waiting

/-- A high-water notification that no write-complete notification follows. -/
def awaitsDrain (functors : List Functor) : Bool :=
  functors.foldl hear false

theorem awaitsDrain_append (first second : List Functor) :
    awaitsDrain (first ++ second) = second.foldl hear (awaitsDrain first) :=
  List.foldl_append

theorem foldl_hear_true {functors : List Functor}
    (silent : .writeCompleteCallback ∉ functors) : functors.foldl hear true = true := by
  induction functors with
  | nil => rfl
  | cons functor functors inductionHypothesis =>
      rw [List.mem_cons, not_or] at silent
      have still : hear true functor = true := by
        cases functor with
        | writeCompleteCallback => exact absurd rfl silent.1
        | _ => rfl
      rw [List.foldl_cons, still]
      exact inductionHypothesis silent.2

theorem awaitsDrain_of_unanswered {earlier later : List Functor} {size : Nat}
    (silent : .writeCompleteCallback ∉ later) :
    awaitsDrain (earlier ++ .highWaterMarkCallback size :: later) = true := by
  rw [awaitsDrain_append, List.foldl_cons]
  exact foldl_hear_true silent

namespace TcpConnection

/-- The amount buffered for output. -/
def buffered (connection : TcpConnection) : Nat :=
  connection.outputBuffer_.readableBytes

theorem buffered_eq (connection : TcpConnection) :
    connection.buffered = connection.outputBuffer_.readable.length :=
  (Buffer.length_readable _).symm

/-! ## What a step notifies of -/

/-- The high-water notification due when the amount buffered goes from `before`
to `after`. -/
def highWater (connection : TcpConnection) (before after : Nat) : List Functor :=
  if connection.highWaterMarkCallback_ ∧ Rises connection.highWaterMark_ before after then
    [.highWaterMarkCallback after]
  else
    []

/-- The write-complete notification, if there is a callback for it. -/
def writeComplete (connection : TcpConnection) : List Functor :=
  if connection.writeCompleteCallback_ then [.writeCompleteCallback] else []

/-- The settings of the two notifications. -/
structure SameSettings (before after : TcpConnection) : Prop where
  writeCompleteCallback_ : after.writeCompleteCallback_ = before.writeCompleteCallback_
  highWaterMarkCallback_ : after.highWaterMarkCallback_ = before.highWaterMarkCallback_
  highWaterMark_ : after.highWaterMark_ = before.highWaterMark_

/-- A step and its notifications: high water exactly when the amount buffered
reaches the mark, write complete only with an empty buffer and whenever the
buffer has become empty. -/
structure Accounts (before after : TcpConnection) : Prop where
  settings : before.SameSettings after
  disconnected : before.state_ = .kDisconnected → after.state_ = .kDisconnected
  functors : ∃ drained : Bool,
    after.pending_functors_ = before.pending_functors_ ++
      (before.highWater before.buffered after.buffered ++
        if drained then before.writeComplete else []) ∧
    (drained = true → after.buffered = 0) ∧
    (after.buffered = 0 → 0 < before.buffered → drained = true)

theorem highWater_of_le (connection : TcpConnection) {before after : Nat}
    (falls : after ≤ before) : connection.highWater before after = [] := by
  rw [highWater, if_neg]
  rintro ⟨-, below, reached⟩
  omega

theorem Accounts.quiet {before after : TcpConnection} (settings : before.SameSettings after)
    (disconnected : before.state_ = .kDisconnected → after.state_ = .kDisconnected)
    (outputBuffer_ : after.outputBuffer_ = before.outputBuffer_)
    (pending_functors_ : after.pending_functors_ = before.pending_functors_) :
    before.Accounts after := by
  have same : after.buffered = before.buffered := by rw [buffered, buffered, outputBuffer_]
  refine ⟨settings, disconnected, false, ?_, by simp, ?_⟩
  · rw [same, highWater_of_le _ (Nat.le_refl _)]
    simp [pending_functors_]
  · intro empty nonempty
    omega

theorem Accounts.refl (connection : TcpConnection) : connection.Accounts connection :=
  .quiet ⟨rfl, rfl, rfl⟩ id rfl rfl

theorem bufferRemaining_notifies (connection : TcpConnection) (rest : Bytes) :
    (connection.bufferRemaining rest).buffered = connection.buffered + rest.length ∧
    (connection.bufferRemaining rest).pending_functors_ = connection.pending_functors_ ++
      connection.highWater connection.buffered (connection.buffered + rest.length) := by
  constructor
  · obtain ⟨-, functors, -, eq⟩ := connection.bufferRemaining_spec rest
    rw [eq, buffered_eq, buffered_eq]
    simp
  · unfold bufferRemaining highWater Rises buffered
    dsimp only
    split
    next warn =>
      rw [if_pos ⟨warn.2.2, warn.2.1, warn.1⟩]
      rfl
    next quiet =>
      rw [if_neg, List.append_nil]
      rintro ⟨callback, below, reached⟩
      exact quiet ⟨reached, below, callback⟩

theorem writeDirectly_notifies (connection : TcpConnection) (s : Bytes)
    (result : WriteResult) {nwrote : Nat} {faultError : Bool} {written : TcpConnection}
    (write : connection.writeDirectly s result = (nwrote, faultError, written)) :
    connection.SameSettings written ∧ written.state_ = connection.state_ ∧
    written.outputBuffer_ = connection.outputBuffer_ ∧
    ∃ drained : Bool, written.pending_functors_ =
        connection.pending_functors_ ++ (if drained then connection.writeComplete else []) ∧
      (drained = true → connection.buffered = 0 ∧ s.length - nwrote = 0) := by
  unfold writeDirectly at write
  split at write
  next idle =>
    split at write
    next nonneg =>
      dsimp only at write
      split at write
      next complete =>
        cases write
        refine ⟨⟨rfl, rfl, rfl⟩, rfl, rfl, true, ?_, fun _ => ⟨idle.2, complete.1⟩⟩
        simp [queueInLoop, writeComplete, complete.2]
      next partly =>
        cases write
        exact ⟨⟨rfl, rfl, rfl⟩, rfl, rfl, false, by simp, by simp⟩
    next failed =>
      cases write
      exact ⟨⟨rfl, rfl, rfl⟩, rfl, rfl, false, by simp, by simp⟩
  next busy =>
    cases write
    exact ⟨⟨rfl, rfl, rfl⟩, rfl, rfl, false, by simp, by simp⟩

theorem sendInLoop_accounts (connection : TcpConnection) (s : Bytes) (result : WriteResult) :
    connection.Accounts (connection.sendInLoop s result) := by
  by_cases disconnected : connection.state_ = .kDisconnected
  · rw [sendInLoop, if_pos disconnected]
    exact .refl connection
  · rcases write : connection.writeDirectly s result with ⟨nwrote, faultError, written⟩
    obtain ⟨settings, state, buffer, drained, functors, complete⟩ :=
      connection.writeDirectly_notifies s result write
    have same : written.buffered = connection.buffered := by rw [buffered, buffered, buffer]
    rw [sendInLoop, if_neg disconnected, write]
    dsimp only
    split
    next remaining =>
      obtain ⟨grown, notified⟩ := written.bufferRemaining_notifies (s.drop nwrote)
      obtain ⟨-, warnings, -, eq⟩ := written.bufferRemaining_spec (s.drop nwrote)
      -- something remains, so the direct write has not reported completion
      have silent : drained = false := by
        cases drained with
        | false => rfl
        | true =>
            have nothing := (complete rfl).2
            omega
      have more : 0 < (s.drop nwrote).length := by
        rw [List.length_drop]
        exact remaining.2
      refine ⟨?_, fun closed => absurd closed disconnected, false, ?_, by simp, by omega⟩
      · rw [eq]
        exact ⟨settings.1, settings.2, settings.3⟩
      · rw [notified, grown, functors, silent, same]
        simp [highWater, settings.2, settings.3]
    next done =>
      refine ⟨settings, fun closed => absurd closed disconnected, drained, ?_, ?_, by omega⟩
      · rw [functors, highWater_of_le _ (Nat.le_of_eq same), List.nil_append]
      · intro reported
        rw [same]
        exact (complete reported).1

theorem shutdownInLoop_accounts (connection : TcpConnection) :
    connection.Accounts connection.shutdownInLoop := by
  rw [shutdownInLoop_eq]
  exact .quiet ⟨rfl, rfl, rfl⟩ id rfl rfl

theorem retrieveWritten_accounts (connection : TcpConnection) {n : Nat}
    (fits : n ≤ connection.buffered) : connection.Accounts (connection.retrieveWritten n) := by
  have retrieved : (connection.outputBuffer_.retrieve n).2.readableBytes =
      connection.buffered - n := by
    rw [← Buffer.length_readable, (connection.outputBuffer_.retrieve_of_le fits).2,
      List.length_drop, Buffer.length_readable]
    rfl
  by_cases drained : (connection.outputBuffer_.retrieve n).2.readableBytes = 0
  · have eq : connection.retrieveWritten n = { connection with
        outputBuffer_ := (connection.outputBuffer_.retrieve n).2
        channel_ := connection.channel_.disableWriting
        pending_functors_ := connection.pending_functors_ ++ connection.writeComplete
        shutdownWrites := connection.shutdownWrites +
          if connection.state_ = .kDisconnecting then 1 else 0 } := by
      unfold retrieveWritten writeComplete
      simp only [drained, if_true, shutdownInLoop_eq]
      cases connection.writeCompleteCallback_ <;>
        by_cases closing : connection.state_ = .kDisconnecting <;>
        simp [queueInLoop, closing]
    have after : (connection.retrieveWritten n).buffered = 0 := by
      rw [eq]
      exact drained
    refine ⟨by rw [eq]; exact ⟨rfl, rfl, rfl⟩, by rw [eq]; exact id, true, ?_, fun _ => after,
      by simp⟩
    rw [highWater_of_le _ (by omega), eq]
    simp
  · have eq : connection.retrieveWritten n = { connection with
        outputBuffer_ := (connection.outputBuffer_.retrieve n).2 } := by
      simp [retrieveWritten, drained]
    have after : (connection.retrieveWritten n).buffered = connection.buffered - n := by
      rw [eq]
      exact retrieved
    refine ⟨by rw [eq]; exact ⟨rfl, rfl, rfl⟩, by rw [eq]; exact id, false, ?_, by simp, ?_⟩
    · rw [highWater_of_le _ (by omega), eq]
      simp
    · intro empty
      rw [after, ← retrieved] at empty
      exact absurd empty drained

theorem handleWrite_accounts (connection : TcpConnection) (result : WriteResult) :
    connection.Accounts (connection.handleWrite result) := by
  unfold handleWrite
  split
  next writing =>
    dsimp only
    split
    next progress =>
      have isPrefix := WriteResult.taken_eq_take result connection.outputBuffer_.readable
      have fits : (result.taken connection.outputBuffer_.readable).length ≤
          connection.buffered := by
        rw [isPrefix, List.length_take, buffered_eq]
        omega
      -- the accepted bytes take no part in the account
      obtain ⟨settings, disconnected, functors⟩ := retrieveWritten_accounts { connection with
        accepted := connection.accepted ++
          result.taken connection.outputBuffer_.readable } fits
      exact ⟨⟨settings.1, settings.2, settings.3⟩, disconnected, functors⟩
    next stalled => exact .refl connection
  next notWriting => exact .refl connection

theorem handleClose_accounts (connection : TcpConnection) :
    connection.Accounts connection.handleClose :=
  .quiet ⟨rfl, rfl, rfl⟩ (fun _ => rfl) rfl rfl

theorem handleRead_accounts (connection : TcpConnection) (result : ReadvResult) :
    connection.Accounts (connection.handleRead result) := by
  unfold handleRead
  rcases connection.inputBuffer_.readFd result with ⟨n, errno, inputBuffer_⟩
  dsimp only
  split
  · exact .quiet ⟨rfl, rfl, rfl⟩ id rfl rfl
  · split
    · exact .quiet ⟨rfl, rfl, rfl⟩ (fun _ => rfl) rfl rfl
    · exact .quiet ⟨rfl, rfl, rfl⟩ id rfl rfl

theorem forceCloseInLoop_accounts (connection : TcpConnection) :
    connection.Accounts connection.forceCloseInLoop := by
  unfold forceCloseInLoop
  split
  · exact connection.handleClose_accounts
  · exact .refl connection

theorem compareExchange_accounts (connection : TcpConnection) {expected : StateE}
    (desired : StateE) (open_ : expected ≠ .kDisconnected) :
    connection.Accounts (connection.compareExchange expected desired).2 := by
  unfold compareExchange
  split
  next matched =>
    refine .quiet ⟨rfl, rfl, rfl⟩ (fun closed => ?_) rfl rfl
    exact absurd (matched.symm.trans closed) open_
  next => exact .refl connection

theorem connectDestroyed_accounts (connection : TcpConnection) :
    connection.Accounts connection.connectDestroyed := by
  unfold connectDestroyed compareExchange
  by_cases connected : connection.state_ = .kConnected
  · simp only [connected, if_true]
    exact .quiet ⟨rfl, rfl, rfl⟩ (fun _ => rfl) rfl rfl
  · by_cases disconnecting : connection.state_ = .kDisconnecting
    · simp only [disconnecting, reduceCtorEq, if_false, if_true]
      exact .quiet ⟨rfl, rfl, rfl⟩ (fun _ => rfl) rfl rfl
    · simp only [connected, disconnecting, if_false]
      exact .refl connection

/-! ## Runs -/

/-- What the loop thread, or a caller of `shutdown` and `forceClose`, does with
a connection once it is established. -/
inductive FlowEvent where
  | sendInLoop (s : Bytes) (result : WriteResult)
  | handleWrite (result : WriteResult)
  | handleRead (result : ReadvResult)
  | kDisconnecting
  | shutdownInLoop
  | forceCloseInLoop
  | connectDestroyed
  deriving DecidableEq, Repr

/-- `kDisconnecting` is the change of state that `shutdown` and `forceClose` make. -/
def applyFlow (connection : TcpConnection) : FlowEvent → TcpConnection
  | .sendInLoop s result => connection.sendInLoop s result
  | .handleWrite result => connection.handleWrite result
  | .handleRead result => connection.handleRead result
  | .kDisconnecting => (connection.compareExchange .kConnected .kDisconnecting).2
  | .shutdownInLoop => connection.shutdownInLoop
  | .forceCloseInLoop => connection.forceCloseInLoop
  | .connectDestroyed => connection.connectDestroyed

theorem applyFlow_accounts (connection : TcpConnection) (event : FlowEvent) :
    connection.Accounts (connection.applyFlow event) := by
  cases event with
  | sendInLoop s result => exact connection.sendInLoop_accounts s result
  | handleWrite result => exact connection.handleWrite_accounts result
  | handleRead result => exact connection.handleRead_accounts result
  | kDisconnecting => exact connection.compareExchange_accounts _ (by decide)
  | shutdownInLoop => exact connection.shutdownInLoop_accounts
  | forceCloseInLoop => exact connection.forceCloseInLoop_accounts
  | connectDestroyed => exact connection.connectDestroyed_accounts

/-- An established connection with the callbacks set by its user. -/
def established (writeCompleteCallback_ highWaterMarkCallback_ : Bool)
    (highWaterMark_ : Nat) : TcpConnection :=
  { new writeCompleteCallback_ highWaterMarkCallback_ with
    highWaterMark_ := highWaterMark_ }.connectEstablished

/-- The amounts buffered at the beginning and after each event. -/
def levels (connection : TcpConnection) (events : List FlowEvent) : List Nat :=
  (events.scanl applyFlow connection).map buffered

theorem levels_cons (connection : TcpConnection) (event : FlowEvent)
    (events : List FlowEvent) :
    connection.levels (event :: events) =
      connection.buffered :: (connection.applyFlow event).levels events := by
  rw [levels, List.scanl_cons, List.map_cons]
  rfl

theorem levels_head (connection : TcpConnection) (events : List FlowEvent) :
    ∃ rest, connection.levels events = connection.buffered :: rest := by
  cases events with
  | nil => exact ⟨[], by simp [levels]⟩
  | cons event events => exact ⟨_, connection.levels_cons event events⟩

theorem reportedSizes_writeComplete (connection : TcpConnection) (drained : Bool) :
    reportedSizes (if drained then connection.writeComplete else []) = [] := by
  unfold writeComplete
  cases drained with
  | false => rfl
  | true => cases connection.writeCompleteCallback_ <;> rfl

/-- The high-water notifications of a run are those for the levels that reach
the mark from below. -/
theorem reportedSizes_foldl {connection : TcpConnection}
    (callback : connection.highWaterMarkCallback_ = true) (events : List FlowEvent) :
    reportedSizes (events.foldl applyFlow connection).pending_functors_ =
      reportedSizes connection.pending_functors_ ++
        risings connection.highWaterMark_ (connection.levels events) := by
  induction events generalizing connection with
  | nil => simp [levels, risings]
  | cons event events inductionHypothesis =>
      obtain ⟨settings, -, drained, functors, -⟩ := connection.applyFlow_accounts event
      obtain ⟨rest, levels⟩ := (connection.applyFlow event).levels_head events
      have reported : reportedSizes
          (connection.highWater connection.buffered (connection.applyFlow event).buffered) =
          if Rises connection.highWaterMark_ connection.buffered
            (connection.applyFlow event).buffered
          then [(connection.applyFlow event).buffered] else [] := by
        simp only [highWater, callback, true_and]
        split <;> rfl
      rw [List.foldl_cons, inductionHypothesis (settings.2.trans callback), settings.3,
        functors, levels_cons, levels, risings, reportedSizes_append, reportedSizes_append,
        reportedSizes_writeComplete, reported, List.append_nil, List.append_assoc]

/-- Whatever is sent, however much of it the kernel takes and whenever the
connection is closed, `highWaterMarkCallback_` is called for, in order, exactly
the levels at which the output buffer reaches the mark from below; none of them
lies below the mark. -/
theorem highWaterMark_reports_risings (writeCompleteCallback_ : Bool)
    (highWaterMark_ : Nat) (events : List FlowEvent) :
    let start := established writeCompleteCallback_ true highWaterMark_
    let sizes := reportedSizes (events.foldl applyFlow start).pending_functors_
    sizes = risings highWaterMark_ (start.levels events) ∧
      ∀ size ∈ sizes, highWaterMark_ ≤ size := by
  have reported := @reportedSizes_foldl
    (established writeCompleteCallback_ true highWaterMark_) rfl events
  have sizes : reportedSizes
      (events.foldl applyFlow (established writeCompleteCallback_ true
        highWaterMark_)).pending_functors_ =
      risings highWaterMark_ ((established writeCompleteCallback_ true
        highWaterMark_).levels events) := reported
  refine ⟨sizes, ?_⟩
  intro size membership
  rw [sizes] at membership
  exact le_of_mem_risings membership

/-! ## A paused producer is woken -/

/-- Whoever waits for the buffer to drain waits for something to be written. -/
structure Wakeful (connection : TcpConnection) : Prop where
  callback : connection.writeCompleteCallback_ = true
  awaited : awaitsDrain connection.pending_functors_ = true → 0 < connection.buffered

theorem applyFlow_wakeful {connection : TcpConnection} (wakeful : connection.Wakeful)
    (event : FlowEvent) : (connection.applyFlow event).Wakeful := by
  obtain ⟨settings, -, drained, functors, empty, reported⟩ :=
    connection.applyFlow_accounts event
  refine ⟨settings.1.trans wakeful.callback, ?_⟩
  intro awaited
  rw [functors, awaitsDrain_append, List.foldl_append, writeComplete, wakeful.callback] at awaited
  cases drained with
  | true => exact absurd awaited (by simp [hear])
  | false =>
      apply Nat.pos_of_ne_zero
      intro nothing
      unfold highWater at awaited
      split at awaited
      next rises =>
        -- the mark has just been reached, so something is buffered
        have below := rises.2.1
        have above := rises.2.2
        omega
      next level =>
        have before := wakeful.awaited awaited
        exact absurd (reported nothing before) (by decide)

/-- Write interest is enabled exactly while something is buffered, as long as
the connection has not been given up. -/
def Served (connection : TcpConnection) : Prop :=
  connection.state_ = .kDisconnected ∨ connection.InterestMatchesBuffer

theorem handleRead_served {connection : TcpConnection} (served : connection.Served)
    (result : ReadvResult) : (connection.handleRead result).Served := by
  unfold handleRead
  rcases connection.inputBuffer_.readFd result with ⟨n, errno, inputBuffer_⟩
  dsimp only
  split
  · exact served
  · split
    · exact Or.inl rfl
    · exact served

theorem connectDestroyed_served {connection : TcpConnection} (served : connection.Served) :
    connection.connectDestroyed.Served := by
  unfold connectDestroyed compareExchange
  by_cases connected : connection.state_ = .kConnected
  · simp only [connected, if_true]
    exact Or.inl rfl
  · by_cases disconnecting : connection.state_ = .kDisconnecting
    · simp only [disconnecting, reduceCtorEq, if_false, if_true]
      exact Or.inl rfl
    · simp only [connected, disconnecting, if_false]
      exact served

theorem applyFlow_served {connection : TcpConnection} (served : connection.Served)
    (event : FlowEvent) : (connection.applyFlow event).Served := by
  rcases served with closed | interest
  · exact Or.inl ((connection.applyFlow_accounts event).disconnected closed)
  · cases event with
    | sendInLoop s result =>
        by_cases closed : connection.state_ = .kDisconnected
        · exact Or.inl ((connection.sendInLoop_accounts s result).disconnected closed)
        · right
          rcases (connection.sendInLoop_cases s result closed interest).2 with
            ⟨-, unchanged⟩ | emits
          · rw [applyFlow, unchanged]
            exact interest
          · exact emits.interest
    | handleWrite result => exact Or.inr (connection.handleWrite_spec result interest).1.interest
    | handleRead result => exact handleRead_served (Or.inr interest) result
    | kDisconnecting =>
        right
        rw [applyFlow, compareExchange]
        split <;> exact interest
    | shutdownInLoop =>
        right
        rw [applyFlow, shutdownInLoop_eq]
        exact interest
    | forceCloseInLoop =>
        rw [applyFlow, forceCloseInLoop]
        split
        · exact Or.inl rfl
        · exact Or.inr interest
    | connectDestroyed => exact connectDestroyed_served (Or.inr interest)

theorem foldl_applyFlow_kept {connection : TcpConnection} (wakeful : connection.Wakeful)
    (served : connection.Served) (events : List FlowEvent) :
    (events.foldl applyFlow connection).Wakeful ∧
      (events.foldl applyFlow connection).Served := by
  induction events generalizing connection with
  | nil => exact ⟨wakeful, served⟩
  | cons event events inductionHypothesis =>
      exact inductionHypothesis (applyFlow_wakeful wakeful event)
        (applyFlow_served served event)

/-- After a call of `highWaterMarkCallback_` has been queued, either one of
`writeCompleteCallback_` is queued behind it, or the connection has been given
up, or there is output left and write interest is enabled for it: a producer
that stops at the first and goes on at the second never waits for nothing. -/
theorem highWaterMark_answered (highWaterMarkCallback_ : Bool) (highWaterMark_ : Nat)
    (events : List FlowEvent) (earlier later : List Functor) (size : Nat)
    (queued : (events.foldl applyFlow
      (established true highWaterMarkCallback_ highWaterMark_)).pending_functors_ =
        earlier ++ .highWaterMarkCallback size :: later) :
    let connection := events.foldl applyFlow
      (established true highWaterMarkCallback_ highWaterMark_)
    .writeCompleteCallback ∈ later ∨ connection.state_ = .kDisconnected ∨
      connection.channel_.isWriting = true ∧ connection.outputBuffer_.readable ≠ [] := by
  intro connection
  have invariant : connection.Wakeful ∧ connection.Served := by
    apply foldl_applyFlow_kept
    · exact ⟨rfl, fun awaited => absurd awaited Bool.false_ne_true⟩
    · right
      simp [established, connectEstablished, callOwner, new, InterestMatchesBuffer]
  by_cases silent : .writeCompleteCallback ∉ later
  · have awaited : awaitsDrain connection.pending_functors_ = true := by
      rw [queued]
      exact awaitsDrain_of_unanswered silent
    have left := invariant.1.awaited awaited
    have nonempty : connection.outputBuffer_.readable ≠ [] := by
      intro empty
      rw [buffered_eq, empty] at left
      exact absurd left (by decide)
    rcases invariant.2 with closed | interest
    · exact Or.inr (Or.inl closed)
    · exact Or.inr (Or.inr ⟨interest.mpr nonempty, nonempty⟩)
  · exact Or.inl (not_not.mp silent)

/-- A mark of two bytes, reached by the second message. -/
theorem highWaterMark_answered_two :
    let connection := [.sendInLoop [1] (.failed EWOULDBLOCK),
        .sendInLoop [2, 3] (.wrote 0), .handleWrite (.wrote 1)].foldl applyFlow
      (established true true 2)
    Functor.writeCompleteCallback ∈ [] ∨ connection.state_ = .kDisconnected ∨
      connection.channel_.isWriting = true ∧ connection.outputBuffer_.readable ≠ [] :=
  highWaterMark_answered true 2 [.sendInLoop [1] (.failed EWOULDBLOCK),
    .sendInLoop [2, 3] (.wrote 0), .handleWrite (.wrote 1)] [] [] 3 (by decide +kernel)

end TcpConnection

end GdRpc.Net
