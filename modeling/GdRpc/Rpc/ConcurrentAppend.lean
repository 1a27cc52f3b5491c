import GdRpc.Library.Transition
import GdRpc.Rpc.ZkClient

/-!
# Several `Append`s at once

`Append` is four calls of ZooKeeper, and other clients may come in between. A
call appends to what it has read and writes the whole back without asking for
a version, so what others have written since is overwritten.
-/

namespace GdRpc.Rpc

open GdRpc.Library

universe u

namespace ZkClient

/-- The ZooKeeper call that comes next, with the string made for `zoo_set`, or
the end of `Append`. -/
inductive Position where
  | zoo_exists
  | zoo_create
  | zoo_get
  | zoo_set (s : Bytes)
  | ended (outcome : Outcome)
  deriving DecidableEq, Repr

/-- One call of `Append`: its arguments, its array and how far it has come. -/
structure AppendCall (Session : Type u) where
  session : Session
  data : Bytes
  state : Int
  buf : Bytes
  position : Position
  deriving DecidableEq, Repr

namespace AppendCall

variable {Session : Type u}

/-- One ZooKeeper call, which succeeds if it can, and what `Append` does up to
the next one. -/
def step (call : AppendCall Session) (node : Option (Znode Session)) :
    AppendCall Session × Option (Znode Session) :=
  match call.position with
  | .zoo_exists =>
      let flag := ZkClient.zoo_exists node none
      if flag = ZNONODE then ({ call with position := .zoo_create }, node)
      else if flag = ZOK then ({ call with position := .zoo_get }, node)
      else ({ call with position := .ended (.returned flag) }, node)
  | .zoo_create =>
      let (flag, node) := ZkClient.zoo_create call.session node call.data call.state none
      if flag = ZOK then ({ call with position := .zoo_get }, node)
      else ({ call with position := .ended (.returned flag) }, node)
  | .zoo_get =>
      let (_, buf, len) := ZkClient.zoo_get node call.buf none
      if len < 0 then
        ({ call with buf := buf, position := .ended .length_error }, node)
      else
        ({ call with
          buf := buf
          position := .zoo_set (buf.take len.toNat ++ call.data) }, node)
  | .zoo_set s =>
      let (flag, node) := ZkClient.zoo_set node s none
      ({ call with position := .ended (.returned flag) }, node)
  | .ended _ => (call, node)

/-- The steps left until the end of the call. -/
def run : Nat → AppendCall Session → Option (Znode Session) →
    AppendCall Session × Option (Znode Session)
  | 0, call, node => (call, node)
  | steps + 1, call, node =>
      let (call, node) := call.step node
      run steps call node

theorem run_ended {call : AppendCall Session} {outcome : Outcome}
    (ended : call.position = .ended outcome) (steps : Nat) (node : Option (Znode Session)) :
    run steps call node = (call, node) := by
  induction steps with
  | zero => rfl
  | succ steps inductionHypothesis =>
      have stays : call.step node = (call, node) := by simp only [step, ended]
      rw [run, stays]
      exact inductionHypothesis

/-- The position and the znode of a call that goes on alone. -/
def Becomes (steps : Nat) (call : AppendCall Session) (node : Option (Znode Session))
    (result : Outcome × Option (Znode Session)) : Prop :=
  (run steps call node).1.position = .ended result.1 ∧ (run steps call node).2 = result.2

theorem becomes_getAndSet {call : AppendCall Session} (getting : call.position = .zoo_get)
    (steps : Nat) (node : Option (Znode Session)) :
    Becomes (steps + 2) call node (getAndSet node call.data call.buf .none) := by
  rcases negative : ZkClient.zoo_get node call.buf none with ⟨flag, buf, len⟩
  unfold Becomes
  rw [run]
  by_cases throws : len < 0
  · have first : call.step node =
        ({ call with buf := buf, position := .ended .length_error }, node) := by
      simp only [step, getting, negative, if_pos throws]
    have ended : ({ call with
        buf := buf
        position := .ended .length_error } : AppendCall Session).position =
          .ended .length_error := rfl
    simp only [first, run_ended ended, getAndSet, Faults.none, negative, if_pos throws, and_self]
  · have first : call.step node = ({ call with
        buf := buf
        position := .zoo_set (buf.take len.toNat ++ call.data) }, node) := by
      simp only [step, getting, negative, if_neg throws]
    simp only [first, getAndSet, Faults.none, negative, if_neg throws]
    rw [run]
    simp only [step]
    rw [run_ended rfl]
    exact ⟨rfl, rfl⟩

/-- With nobody in between the four steps are `Append`. -/
theorem becomes_append {call : AppendCall Session} (begins : call.position = .zoo_exists)
    (node : Option (Znode Session)) :
    Becomes 4 call node (Append call.session node call.data call.state call.buf .none) := by
  cases node with
  | some node =>
      have present : (ZOK = ZNONODE) = False := by decide
      have first : call.step (some node) = ({ call with position := .zoo_get }, some node) := by
        simp only [step, begins, ZkClient.zoo_exists, present, if_false, if_true]
      simp only [Append, ZkClient.zoo_exists, Faults.none, present, if_false, if_true]
      unfold Becomes
      rw [run, first]
      exact @becomes_getAndSet _ { call with position := .zoo_get } rfl 1 (some node)
  | none =>
      have first : call.step none = ({ call with position := .zoo_create }, none) := by
        simp only [step, begins, ZkClient.zoo_exists, if_true]
      let made : Znode Session := {
        data := some call.data
        ephemeralOwner := if call.state = ZOO_EPHEMERAL then some call.session else none }
      have second : ({ call with position := .zoo_create } : AppendCall Session).step none =
          ({ call with position := .zoo_get }, some made) := by
        simp only [step, ZkClient.zoo_create, if_true, made]
      simp only [Append, ZkClient.zoo_exists, ZkClient.zoo_create, Faults.none, if_true]
      unfold Becomes
      rw [run, first]
      dsimp only
      rw [run, second]
      exact @becomes_getAndSet _ { call with position := .zoo_get } rfl 0 (some made)

end AppendCall

end ZkClient

open ZkClient

/-- The znode and all calls of `Append` on its path. -/
structure Appends (Session : Type u) where
  node : Option (Znode Session)
  calls : List (AppendCall Session)
  deriving DecidableEq, Repr

namespace Appends

variable {Session : Type u}

/-- The call at `index` makes its next ZooKeeper call. -/
def next (appends : Appends Session) (index : Nat) : Appends Session :=
  match appends.calls[index]? with
  | none => appends
  | some call => {
      node := (call.step appends.node).2
      calls := appends.calls.set index (call.step appends.node).1 }

/-- The calls have the arrays of `Append`, and nobody has begun yet. -/
def Fresh (appends : Appends Session) : Prop :=
  ∀ call ∈ appends.calls, call.position = .zoo_exists ∧ call.buf.length = 1024

instance (appends : Appends Session) : Decidable appends.Fresh :=
  inferInstanceAs (Decidable (∀ call ∈ appends.calls, _))

/-- All interleavings of any calls, on any znode. -/
def system : System (Appends Session) Nat where
  initial appends := appends.Fresh
  step appends index after := index < appends.calls.length ∧ after = appends.next index

/-- The znode contains the data. -/
def Contains (node : Option (Znode Session)) (data : Bytes) : Prop :=
  ∃ znode ∈ node, ∃ whole ∈ znode.data, data <:+: whole

instance (node : Option (Znode Session)) (data : Bytes) : Decidable (Contains node data) :=
  inferInstanceAs (Decidable (∃ znode ∈ node, ∃ whole ∈ znode.data, data <:+: whole))

/-- What the `zoo_get` of a call has read, until its `zoo_set`. -/
def read (call : AppendCall Session) : Option Bytes :=
  match call.position with
  | .zoo_set s => some (s.take (s.length - call.data.length))
  | _ => none

/-- The call has read what the znode's data begins with, as much as the array takes,
and found there the data of every call that the znode contains. -/
def UpToDate (appends : Appends Session) (call : AppendCall Session) : Prop :=
  ∀ bytes ∈ read call, ∀ znode ∈ appends.node, ∀ whole ∈ znode.data,
    bytes = whole.take 1024 ∧
      ∀ other ∈ appends.calls, other.data <:+: whole → other.data <:+: bytes

instance (appends : Appends Session) (call : AppendCall Session) :
    Decidable (appends.UpToDate call) :=
  inferInstanceAs (Decidable (∀ bytes ∈ read call, ∀ znode ∈ appends.node,
    ∀ whole ∈ znode.data, _ ∧ ∀ other ∈ appends.calls, _ → _))

def Fit (appends : Appends Session) (index : Nat) : Prop :=
  ∀ call ∈ appends.calls[index]?, appends.UpToDate call

instance (appends : Appends Session) (index : Nat) : Decidable (appends.Fit index) :=
  inferInstanceAs (Decidable (∀ call ∈ appends.calls[index]?, appends.UpToDate call))

/-- The runs in which every step is fit. -/
def fitSystem : System (Appends Session) Nat where
  initial appends := appends.Fresh
  step appends index after :=
    (index < appends.calls.length ∧ appends.Fit index) ∧ after = appends.next index

/-- What a call is to have got into the znode, or is about to put there. -/
def Kept (node : Option (Znode Session)) (call : AppendCall Session) : Prop :=
  match call.position with
  | .ended outcome => outcome = .returned ZOK → Contains node call.data
  | .zoo_set s => call.data <:+ s
  | _ => True

theorem read_append {call : AppendCall Session} {s : Bytes} (position : call.position = .zoo_set s)
    {node : Option (Znode Session)} (kept : Kept node call) :
    ∃ bytes ∈ read call, s = bytes ++ call.data := by
  simp only [Kept, position] at kept
  obtain ⟨bytes, rfl⟩ := kept
  refine ⟨bytes, ?_, rfl⟩
  simp [read, position]

variable {appends : Appends Session}

theorem kept_step {call : AppendCall Session} (kept : Kept appends.node call)
    (upToDate : appends.UpToDate call) :
    Kept (call.step appends.node).2 (call.step appends.node).1 ∧
      ∀ other ∈ appends.calls, Contains appends.node other.data →
        Contains (call.step appends.node).2 other.data := by
  obtain ⟨node, calls⟩ := appends
  unfold AppendCall.step
  cases position : call.position with
  | zoo_exists =>
      cases node with
      | none => simp [ZkClient.zoo_exists, Kept]
      | some znode =>
          have present : (ZOK = ZNONODE) = False := by decide
          simp [ZkClient.zoo_exists, present, Kept]
  | zoo_create =>
      cases node with
      | none => simp [ZkClient.zoo_create, Kept, Contains]
      | some znode =>
          have taken : (ZNODEEXISTS = ZOK) = False := by decide
          simp [ZkClient.zoo_create, taken, Kept]
  | zoo_get =>
      rcases ZkClient.zoo_get node call.buf none with ⟨flag, buf, len⟩
      dsimp only
      split
      next => exact ⟨fun returned => (by cases returned), fun _ _ => id⟩
      next => exact ⟨List.suffix_append _ _, fun _ _ => id⟩
  | zoo_set s =>
      obtain ⟨bytes, isRead, rfl⟩ := read_append position kept
      cases node with
      | none =>
          have missing : (ZNONODE = ZOK) = False := by decide
          simp [ZkClient.zoo_set, Kept, missing, Contains]
      | some znode =>
          refine ⟨fun _ => ⟨_, rfl, _, rfl, (List.suffix_append _ _).isInfix⟩, ?_⟩
          rintro other isCall ⟨found, isFound, whole, here, inside⟩
          obtain rfl := Option.some.inj isFound
          have known := (upToDate bytes isRead znode rfl whole here).2 other isCall inside
          exact ⟨_, rfl, _, rfl, known.trans (List.prefix_append _ _).isInfix⟩
  | ended outcome =>
      refine ⟨?_, fun _ _ => id⟩
      simpa [Kept, position] using kept

theorem Kept.mono {call : AppendCall Session} {node after : Option (Znode Session)}
    (kept : Kept node call) (keeps : Contains node call.data → Contains after call.data) :
    Kept after call := by
  unfold Kept at kept ⊢
  cases position : call.position with
  | ended outcome =>
      simp only [position] at kept
      exact fun returned => keeps (kept returned)
  | zoo_exists | zoo_create | zoo_get => trivial
  | zoo_set s => simpa only [position] using kept

theorem kept_next {index : Nat} (kept : ∀ call ∈ appends.calls, Kept appends.node call)
    (fit : appends.Fit index) :
    ∀ call ∈ (appends.next index).calls, Kept (appends.next index).node call := by
  unfold next
  split
  next => exact kept
  next call here =>
    have own := kept call (List.mem_of_getElem? here)
    have stepped := kept_step own (fit call here)
    intro other membership
    rcases List.mem_or_eq_of_mem_set membership with old | rfl
    · exact (kept other old).mono (stepped.2 other old)
    · exact stepped.1

/-- In every run in which each `zoo_set` finds the znode as its `zoo_get` has
read it, with the data of the calls in the part that the array took, a call that
has returned `ZOK` has its data in the znode. -/
theorem contains_of_fit {indices : List Nat} {appends : Appends Session}
    (execution : fitSystem.Execution indices appends)
    (returned : ∀ call ∈ appends.calls, call.position = .ended (.returned ZOK)) :
    ∀ call ∈ appends.calls, Contains appends.node call.data := by
  have kept : ∀ call ∈ appends.calls, Kept appends.node call := by
    refine execution.invariant
      (fun appends => ∀ call ∈ appends.calls, Kept appends.node call) ?_ ?_
    · intro start fresh call membership
      simp [Kept, (fresh call membership).1]
    · rintro before index after kept ⟨⟨_, fit⟩, rfl⟩
      exact kept_next kept fit
  intro call membership
  have own := kept call membership
  unfold Kept at own
  rw [returned call membership] at own
  exact own rfl

/-- A registered server, `127.0.0.1 8080 1`, and two others that come at the
same time. -/
def twoServers : Appends Nat where
  node := some ⟨some (ascii "127.0.0.1 8080 1\n"), some 0⟩
  calls :=
    [⟨1, ascii "127.0.0.1 8081 1\n", ZOO_EPHEMERAL, List.replicate 1024 0, .zoo_exists⟩,
      ⟨2, ascii "127.0.0.1 8082 1\n", ZOO_EPHEMERAL, List.replicate 1024 0, .zoo_exists⟩]

/-- The second reads when the first has written. -/
theorem contains_of_fit_successive :
    let appends := [0, 1, 0, 0, 1, 1].foldl next twoServers
    ∀ call ∈ appends.calls, Contains appends.node call.data := by
  intro appends
  have execution : fitSystem.Execution [0, 1, 0, 0, 1, 1] appends :=
    System.Execution.foldl fitSystem
      (fun appends index => index < appends.calls.length ∧ appends.Fit index)
      (fun _ _ permitted => ⟨permitted, rfl⟩)
      (show twoServers.Fresh by decide +kernel) (by decide +kernel)
  exact contains_of_fit execution (by decide +kernel)

/-- Both read before either writes: the first one's line is lost, and both
have returned `ZOK`. -/
theorem concurrent_append_loses_line :
    ∃ (indices : List Nat) (appends : Appends Nat), system.Execution indices appends ∧
      (∀ call ∈ appends.calls, call.position = .ended (.returned ZOK)) ∧
      ¬ ∀ call ∈ appends.calls, Contains appends.node call.data := by
  have execution : system.Execution [0, 1, 0, 1, 0, 1]
      ([0, 1, 0, 1, 0, 1].foldl next twoServers) :=
    System.Execution.foldl system (fun appends index => index < appends.calls.length)
      (fun _ _ permitted => ⟨permitted, rfl⟩)
      (show twoServers.Fresh by decide +kernel) (by decide +kernel)
  exact ⟨_, _, execution, by decide +kernel, by decide +kernel⟩

end Appends

end GdRpc.Rpc
