import GdRpc.Net.OutputStream

/-!
# The calls a connection makes to its owner

Writing never calls the owner and never changes `state_`. Reading calls
`messageCallback_`, or closes the connection after a read of zero bytes.
-/

namespace GdRpc.Net

open GdRpc.Library

/-- The position of a state on the way from the constructor to the end. -/
def StateE.rank : StateE → Nat
  | kConnecting => 0
  | kConnected => 1
  | kDisconnecting => 2
  | kDisconnected => 3

/-- The state a call reports, if it is one to `connectionCallback_`. -/
def OwnerCall.state? : OwnerCall → Option StateE
  | .connectionCallback state_ => some state_
  | .messageCallback | .closeCallback => none

namespace TcpConnection

/-- From `before` to `after` the owner is not called and `state_` stays. -/
structure Quiet (before after : TcpConnection) : Prop where
  state_ : after.state_ = before.state_
  ownerCalls : after.ownerCalls = before.ownerCalls

theorem Quiet.refl (connection : TcpConnection) : connection.Quiet connection :=
  ⟨rfl, rfl⟩

theorem Quiet.trans {first second third : TcpConnection} (left : first.Quiet second)
    (right : second.Quiet third) : first.Quiet third :=
  ⟨right.state_.trans left.state_, right.ownerCalls.trans left.ownerCalls⟩

theorem queueInLoop_quiet (connection : TcpConnection) (functor : Functor) :
    connection.Quiet (connection.queueInLoop functor) :=
  ⟨rfl, rfl⟩

theorem shutdownInLoop_quiet (connection : TcpConnection) :
    connection.Quiet connection.shutdownInLoop := by
  rw [shutdownInLoop_eq]
  exact ⟨rfl, rfl⟩

theorem bufferRemaining_quiet (connection : TcpConnection) (rest : Bytes) :
    connection.Quiet (connection.bufferRemaining rest) := by
  obtain ⟨_, functors, _, eq⟩ := connection.bufferRemaining_spec rest
  rw [eq]
  exact ⟨rfl, rfl⟩

theorem sendInLoop_quiet (connection : TcpConnection) (s : Bytes)
    (result : WriteResult) : connection.Quiet (connection.sendInLoop s result) := by
  by_cases disconnected : connection.state_ = .kDisconnected
  · rw [sendInLoop, if_pos disconnected]
    exact .refl connection
  · rcases write : connection.writeDirectly s result with
      ⟨nwrote, faultError, written⟩
    obtain ⟨_, _, functors, _, writtenEq⟩ :=
      connection.writeDirectly_spec s result write
    have direct : connection.Quiet written := by
      rw [writtenEq]
      exact ⟨rfl, rfl⟩
    rw [sendInLoop, if_neg disconnected, write]
    dsimp only
    split
    next remaining => exact direct.trans (written.bufferRemaining_quiet _)
    next complete => exact direct

theorem retrieveWritten_quiet (connection : TcpConnection) (n : Nat) :
    connection.Quiet (connection.retrieveWritten n) := by
  by_cases drained : (connection.outputBuffer_.retrieve n).2.readableBytes = 0
  · obtain ⟨functors, _, eq⟩ := connection.retrieveWritten_drained n drained
    rw [eq]
    exact ⟨rfl, rfl⟩
  · have eq : connection.retrieveWritten n = { connection with
        outputBuffer_ := (connection.outputBuffer_.retrieve n).2 } := by
      simp [retrieveWritten, drained]
    rw [eq]
    exact ⟨rfl, rfl⟩

theorem handleWrite_quiet (connection : TcpConnection) (result : WriteResult) :
    connection.Quiet (connection.handleWrite result) := by
  unfold handleWrite
  split
  next writing =>
    dsimp only
    split
    next progress =>
      have accepts : connection.Quiet { connection with
          accepted := connection.accepted ++
            result.taken connection.outputBuffer_.readable } := ⟨rfl, rfl⟩
      exact accepts.trans (retrieveWritten_quiet _ _)
    next stalled => exact .refl connection
  next notWriting => exact .refl connection

/-! ## Reading and closing -/

/-- The two calls of `handleClose`. -/
def closeCalls : List OwnerCall :=
  [.connectionCallback .kDisconnected, .closeCallback]

@[simp]
theorem state_handleClose (connection : TcpConnection) :
    connection.handleClose.state_ = .kDisconnected := rfl

@[simp]
theorem ownerCalls_handleClose (connection : TcpConnection) :
    connection.handleClose.ownerCalls = connection.ownerCalls ++ closeCalls := by
  simp [handleClose, callOwner, closeCalls]

theorem handleRead_cases (connection : TcpConnection) (result : ReadvResult) :
    (∃ data inputBuffer_, result = .delivered data ∧ data ≠ [] ∧
      connection.handleRead result =
        { connection with inputBuffer_ := inputBuffer_ }.callOwner .messageCallback) ∨
    (∃ inputBuffer_, result = .delivered [] ∧
      connection.handleRead result =
        { connection with inputBuffer_ := inputBuffer_ }.handleClose) ∨
    (∃ errno, result = .failed errno ∧ connection.handleRead result = connection) := by
  cases result with
  | failed errno => exact .inr (.inr ⟨errno, rfl, rfl⟩)
  | delivered data =>
      have count := (connection.inputBuffer_.readFd_delivered data).1
      rcases read : connection.inputBuffer_.readFd (.delivered data) with
        ⟨n, errno, inputBuffer_⟩
      rw [read] at count
      dsimp only at count
      subst count
      cases data with
      | nil =>
          refine .inr (.inl ⟨inputBuffer_, rfl, ?_⟩)
          simp [handleRead, read]
      | cons byte data =>
          refine .inl ⟨byte :: data, inputBuffer_, rfl, by simp, ?_⟩
          have positive : (0 : Int) < ((byte :: data).length : Int) := by
            simp only [List.length_cons]
            omega
          simp only [handleRead, read, if_pos positive]

/-! ## What a step of an established connection can do -/

/-- The states reported to `connectionCallback_`, oldest first. -/
def reports (connection : TcpConnection) : List StateE :=
  connection.ownerCalls.filterMap OwnerCall.state?

/-- How often `closeCallback_` has been called. -/
def closes (connection : TcpConnection) : Nat :=
  connection.ownerCalls.count .closeCallback

/-- The two states `forceCloseInLoop` and `connectDestroyed` look for. -/
def Up (connection : TcpConnection) : Prop :=
  connection.state_ = .kConnected ∨ connection.state_ = .kDisconnecting

theorem reports_of_calls {before after : TcpConnection} {calls : List OwnerCall}
    (eq : after.ownerCalls = before.ownerCalls ++ calls) :
    after.reports = before.reports ++ calls.filterMap OwnerCall.state? := by
  rw [reports, eq, List.filterMap_append]
  rfl

theorem closes_of_calls {before after : TcpConnection} {calls : List OwnerCall}
    (eq : after.ownerCalls = before.ownerCalls ++ calls) :
    after.closes = before.closes + calls.count .closeCallback := by
  rw [closes, eq, List.count_append]
  rfl

/-- The five things that can happen to `state_` and to the owner. `fit` says
that the step does not close what is closed, `received` that it reports a
message. -/
inductive Change (before after : TcpConnection) (fit received : Prop) : Prop where
  | quiet (same : before.Quiet after) (holds : fit) (missed : ¬ received)
  | message (same : after.state_ = before.state_)
      (calls : after.ownerCalls = before.ownerCalls ++ [.messageCallback])
      (holds : fit) (arrived : received)
  | disconnecting (connected : before.state_ = .kConnected)
      (left : after.state_ = .kDisconnecting)
      (calls : after.ownerCalls = before.ownerCalls) (holds : fit) (missed : ¬ received)
  | down (up : before.Up) (left : after.state_ = .kDisconnected)
      (calls : after.ownerCalls =
        before.ownerCalls ++ [.connectionCallback .kDisconnected])
      (holds : fit) (missed : ¬ received)
  | close (left : after.state_ = .kDisconnected)
      (calls : after.ownerCalls = before.ownerCalls ++ closeCalls)
      (once : fit ↔ before.state_ ≠ .kDisconnected) (missed : ¬ received)

theorem Quiet.change {before after : TcpConnection} (same : before.Quiet after) :
    Change before after True False :=
  .quiet same trivial id

theorem Change.quietly {before after later : TcpConnection} {fit received : Prop}
    (change : Change before after fit received) (same : after.Quiet later) :
    Change before later fit received := by
  cases change with
  | quiet first holds missed => exact .quiet (first.trans same) holds missed
  | message state calls holds arrived =>
      exact .message (same.state_.trans state) (same.ownerCalls.trans calls) holds arrived
  | disconnecting connected left calls holds missed =>
      exact .disconnecting connected (same.state_.trans left) (same.ownerCalls.trans calls)
        holds missed
  | down up left calls holds missed =>
      exact .down up (same.state_.trans left) (same.ownerCalls.trans calls) holds missed
  | close left calls once missed =>
      exact .close (same.state_.trans left) (same.ownerCalls.trans calls) once missed

theorem handleClose_change (connection : TcpConnection) :
    Change connection connection.handleClose (connection.state_ ≠ .kDisconnected) False :=
  .close rfl connection.ownerCalls_handleClose Iff.rfl id

theorem handleRead_change (connection : TcpConnection) (result : ReadvResult) :
    Change connection (connection.handleRead result)
      (result = .delivered [] → connection.state_ ≠ .kDisconnected)
      (∃ data, result = .delivered data ∧ data ≠ []) := by
  rcases connection.handleRead_cases result with
    ⟨data, inputBuffer_, rfl, nonempty, eq⟩ | ⟨inputBuffer_, rfl, eq⟩ | ⟨errno, rfl, eq⟩
  · rw [eq]
    exact .message rfl rfl (by simp [nonempty]) ⟨data, rfl, nonempty⟩
  · rw [eq]
    exact .close rfl (ownerCalls_handleClose _) (by simp) (by simp)
  · rw [eq]
    exact .quiet (.refl connection) (by simp) (by simp)

theorem compareExchange_change (connection : TcpConnection) :
    Change connection (connection.compareExchange .kConnected .kDisconnecting).2
      True False := by
  unfold compareExchange
  split
  next connected => exact .disconnecting connected rfl rfl trivial id
  next other => exact (Quiet.refl connection).change

theorem forceCloseInLoop_change (connection : TcpConnection) :
    Change connection connection.forceCloseInLoop True False := by
  unfold forceCloseInLoop
  split
  next up =>
    refine .close rfl connection.ownerCalls_handleClose (iff_of_true trivial ?_) id
    rcases up with connected | disconnecting
    · simp [connected]
    · simp [disconnecting]
  next other => exact (Quiet.refl connection).change

theorem connectDestroyed_change (connection : TcpConnection) :
    Change connection connection.connectDestroyed True False := by
  unfold connectDestroyed compareExchange
  by_cases connected : connection.state_ = .kConnected
  · simp only [if_pos connected]
    exact .down (.inl connected) rfl rfl trivial id
  · by_cases disconnecting : connection.state_ = .kDisconnecting
    · simp only [if_neg connected, if_pos disconnecting]
      exact .down (.inr disconnecting) rfl rfl trivial id
    · simp only [if_neg connected, if_neg disconnecting]
      exact (Quiet.refl connection).change

theorem runFunctor_change (connection : TcpConnection) (functor : Functor)
    (result : WriteResult) :
    Change connection (connection.runFunctor functor result) True False := by
  cases functor with
  | sendInLoop s => exact (connection.sendInLoop_quiet s result).change
  | shutdownInLoop => exact connection.shutdownInLoop_quiet.change
  | forceCloseInLoop => exact connection.forceCloseInLoop_change
  | connectDestroyed => exact connection.connectDestroyed_change
  | writeCompleteCallback | highWaterMarkCallback => exact (Quiet.refl connection).change

theorem Change.calls {before after : TcpConnection} {fit received : Prop}
    (change : Change before after fit received) :
    ∃ calls, after.ownerCalls = before.ownerCalls ++ calls ∧
      (∀ state_, .connectionCallback state_ ∈ calls → state_ = .kDisconnected) ∧
      (.messageCallback ∈ calls ↔ received) := by
  cases change with
  | quiet same holds missed => exact ⟨[], by simp [same.ownerCalls], by simp, by simp [missed]⟩
  | message same calls holds arrived => exact ⟨_, calls, by simp, by simp [arrived]⟩
  | disconnecting connected left calls holds missed =>
      exact ⟨[], by simp [calls], by simp, by simp [missed]⟩
  | down up left calls holds missed => exact ⟨_, calls, by simp, by simp [missed]⟩
  | close left calls once missed =>
      exact ⟨_, calls, by simp [closeCalls], by simp [closeCalls, missed]⟩

theorem Change.established {before after : TcpConnection} {fit received : Prop}
    (change : Change before after fit received) (established : before.state_ ≠ .kConnecting) :
    after.state_ ≠ .kConnecting := by
  cases change with
  | quiet same holds missed =>
      rw [same.state_]
      exact established
  | message same calls holds arrived =>
      rw [same]
      exact established
  | disconnecting connected left calls holds missed => simp [left]
  | down up left calls holds missed => simp [left]
  | close left calls once missed => simp [left]

theorem Change.forward {before after : TcpConnection} {fit received : Prop}
    (change : Change before after fit received) : before.state_.rank ≤ after.state_.rank := by
  have last : ∀ state_ : StateE, state_.rank ≤ StateE.kDisconnected.rank := by
    intro state_
    cases state_ <;> decide
  cases change with
  | quiet same holds missed => rw [same.state_]
  | message same calls holds arrived => rw [same]
  | disconnecting connected left calls holds missed =>
      rw [connected, left]
      decide
  | down up left calls holds missed =>
      rw [left]
      exact last _
  | close left calls once missed =>
      rw [left]
      exact last _

/-! ## Regular reports -/

/-- Up and reported so, or down and reported so. -/
def Regular (connection : TcpConnection) : Prop :=
  (connection.Up ∧ connection.reports = [.kConnected] ∧ connection.closes = 0) ∨
  (connection.state_ = .kDisconnected ∧
    connection.reports = [.kConnected, .kDisconnected] ∧ connection.closes ≤ 1)

/-- The first report has missed `kConnected`, or the end has been reported
twice. No later call can repair this. -/
def Irregular (connection : TcpConnection) : Prop :=
  ∃ later, connection.reports = .kDisconnecting :: later ∨
    connection.reports = .kConnected :: .kDisconnected :: .kDisconnected :: later

theorem Irregular.change {before after : TcpConnection} {fit received : Prop}
    (irregular : before.Irregular) (change : Change before after fit received) :
    after.Irregular := by
  obtain ⟨calls, eq, _⟩ := change.calls
  obtain ⟨later, reported⟩ := irregular
  refine ⟨later ++ calls.filterMap OwnerCall.state?, ?_⟩
  rcases reported with missed | twice
  · exact .inl (by simp [reports_of_calls eq, missed])
  · exact .inr (by simp [reports_of_calls eq, twice])

/-- What is regular stays so if the step is fit, and becomes irregular if not. -/
theorem Regular.change {before after : TcpConnection} {fit received : Prop}
    (regular : before.Regular) (change : Change before after fit received) :
    (fit → after.Regular) ∧ (¬ fit → after.Irregular) := by
  have silent : ∀ calls : List OwnerCall, calls.filterMap OwnerCall.state? = [] →
      calls.count .closeCallback = 0 → after.ownerCalls = before.ownerCalls ++ calls →
      after.reports = before.reports ∧ after.closes = before.closes := by
    intro calls unreported unclosed eq
    rw [reports_of_calls eq, closes_of_calls eq, unreported, unclosed, List.append_nil]
    exact ⟨rfl, rfl⟩
  cases change with
  | quiet same holds _ =>
      obtain ⟨reports, closes⟩ := silent [] rfl rfl (by rw [same.ownerCalls, List.append_nil])
      refine ⟨fun _ => ?_, fun unfit => absurd holds unfit⟩
      simpa only [Regular, Up, reports, closes, same.state_] using regular
  | message same calls holds _ =>
      obtain ⟨reports, closes⟩ := silent [.messageCallback] rfl rfl calls
      refine ⟨fun _ => ?_, fun unfit => absurd holds unfit⟩
      simpa only [Regular, Up, reports, closes, same] using regular
  | disconnecting connected left calls holds _ =>
      obtain ⟨reports, closes⟩ := silent [] rfl rfl (by rw [calls, List.append_nil])
      refine ⟨fun _ => ?_, fun unfit => absurd holds unfit⟩
      rcases regular with ⟨_, reported, unclosed⟩ | ⟨down, _⟩
      · exact .inl ⟨.inr left, reports.trans reported, closes.trans unclosed⟩
      · rw [connected] at down
        cases down
  | down up left calls holds _ =>
      refine ⟨fun _ => ?_, fun unfit => absurd holds unfit⟩
      rcases regular with ⟨_, reported, unclosed⟩ | ⟨down, _⟩
      · refine .inr ⟨left, ?_, ?_⟩
        · simp [reports_of_calls calls, reported, OwnerCall.state?]
        · simp [closes_of_calls calls, unclosed]
      · simp [Up, down] at up
  | close left calls once _ =>
      rcases regular with ⟨up, reported, unclosed⟩ | ⟨down, reported, _⟩
      · have alive : before.state_ ≠ .kDisconnected := by
          intro disconnected
          simp [Up, disconnected] at up
        refine ⟨fun _ => .inr ⟨left, ?_, ?_⟩, fun unfit => absurd (once.mpr alive) unfit⟩
        · simp [reports_of_calls calls, reported, closeCalls, OwnerCall.state?]
        · simp [closes_of_calls calls, unclosed, closeCalls]
      · refine ⟨fun fit => absurd down (once.mp fit), fun _ => ⟨[], .inr ?_⟩⟩
        simp [reports_of_calls calls, reported, closeCalls, OwnerCall.state?]

end TcpConnection

end GdRpc.Net
