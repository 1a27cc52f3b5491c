import GdRpc.Library.Bytes

/-!
# `ZkClient` on one path

The four ZooKeeper calls on the znode of one path, and `Append` and `GetData`,
which are made of them. Each call is atomic and may fail with a code of its own,
which leaves the znode as it is.
-/

namespace GdRpc.Rpc

open GdRpc.Library

universe u

def ZOK : Int := 0
def ZNONODE : Int := -101
def ZNODEEXISTS : Int := -110

/-- The flag of `zoo_create`. -/
def ZOO_EPHEMERAL : Int := 1

/-- The data of a znode may be null; an ephemeral one belongs to the session
that created it. -/
structure Znode (Session : Type u) where
  data : Option Bytes
  ephemeralOwner : Option Session
  deriving DecidableEq, Repr

namespace ZkClient

variable {Session : Type u}

/-- The code each call fails with, if it fails. -/
structure Faults where
  zoo_exists : Option Int
  zoo_create : Option Int
  zoo_get : Option Int
  zoo_set : Option Int
  deriving DecidableEq, Repr

def Faults.none : Faults := ⟨.none, .none, .none, .none⟩

def zoo_exists (node : Option (Znode Session)) (fault : Option Int) : Int :=
  match fault, node with
  | some code, _ => code
  | none, some _ => ZOK
  | none, none => ZNONODE

def zoo_create (session : Session) (node : Option (Znode Session)) (data : Bytes)
    (flags : Int) (fault : Option Int) : Int × Option (Znode Session) :=
  match fault, node with
  | some code, _ => (code, node)
  | none, some _ => (ZNODEEXISTS, node)
  | none, none =>
      (ZOK, some {
        data := some data
        ephemeralOwner := if flags = ZOO_EPHEMERAL then some session else none })

/-- `zoo_get` into a buffer of `buf.length` bytes: the code, the buffer and
`len`, which is `-1` for null data. -/
def zoo_get (node : Option (Znode Session)) (buf : Bytes) (fault : Option Int) :
    Int × Bytes × Int :=
  match fault, node with
  | some code, _ => (code, buf, buf.length)
  | none, none => (ZNONODE, buf, buf.length)
  | none, some node =>
      match node.data with
      | none => (ZOK, buf, -1)
      | some data =>
          let copied := data.take buf.length
          (ZOK, copied ++ buf.drop copied.length, copied.length)

/-- `zoo_set` with version `-1`, which asks for no particular version. -/
def zoo_set (node : Option (Znode Session)) (data : Bytes) (fault : Option Int) :
    Int × Option (Znode Session) :=
  match fault, node with
  | some code, _ => (code, node)
  | none, none => (ZNONODE, none)
  | none, some node => (ZOK, some { node with data := some data })

/-- How `Append` ends: it returns a code, or the constructor of `std::string`
throws because it is given a negative length. -/
inductive Outcome where
  | returned (flag : Int)
  | length_error
  deriving DecidableEq, Repr

/-- The second half of `Append`; `buf` is what the array holds before. -/
def getAndSet (node : Option (Znode Session)) (data buf : Bytes) (faults : Faults) :
    Outcome × Option (Znode Session) :=
  let (_, buf, len) := zoo_get node buf faults.zoo_get
  if len < 0 then
    (.length_error, node)
  else
    let s := buf.take len.toNat ++ data
    let (flag, node) := zoo_set node s faults.zoo_set
    (.returned flag, node)

def Append (session : Session) (node : Option (Znode Session)) (data : Bytes)
    (state : Int) (buf : Bytes) (faults : Faults) : Outcome × Option (Znode Session) :=
  let flag := zoo_exists node faults.zoo_exists
  let (flag, node) :=
    if flag = ZNONODE then zoo_create session node data state faults.zoo_create
    else (flag, node)
  if flag = ZOK then getAndSet node data buf faults else (.returned flag, node)

/-- The array `buffer` is returned as a C string: it ends at the first zero
byte, which may lie in what is `beyond` the array. -/
def GetData (node : Option (Znode Session)) (buffer beyond : Bytes) (fault : Option Int) :
    Bytes :=
  let (flag, buffer, _) := zoo_get node buffer fault
  if flag ≠ ZOK then [] else (buffer ++ beyond).takeWhile (· ≠ 0)

/-! ## When every call succeeds -/

theorem getAndSet_take (node : Znode Session) {old : Bytes} (holds : node.data = some old)
    (data buf : Bytes) :
    getAndSet (some node) data buf .none =
      (.returned ZOK, some { node with data := some (old.take buf.length ++ data) }) := by
  have nonneg : ¬ (((old.take buf.length).length : Int) < 0) := by omega
  simp only [getAndSet, zoo_get, Faults.none, holds, nonneg, if_false,
    Int.toNat_natCast, List.take_left, zoo_set]

theorem Append_some_take (session : Session) (node : Znode Session) {old : Bytes}
    (holds : node.data = some old) (data : Bytes) (state : Int) (buf : Bytes) :
    Append session (some node) data state buf .none =
      (.returned ZOK, some { node with data := some (old.take buf.length ++ data) }) := by
  have present : (ZOK = ZNONODE) = False := by decide
  simp only [Append, zoo_exists, Faults.none, present, if_false, if_true]
  exact getAndSet_take node holds data buf

theorem Append_some (session : Session) (node : Znode Session) {old : Bytes}
    (holds : node.data = some old) (data : Bytes) (state : Int) {buf : Bytes}
    (fits : old.length ≤ buf.length) :
    Append session (some node) data state buf .none =
      (.returned ZOK, some { node with data := some (old ++ data) }) := by
  rw [Append_some_take session node holds, List.take_of_length_le fits]

theorem Append_none_take (session : Session) (data : Bytes) (state : Int) (buf : Bytes) :
    Append session none data state buf .none =
      (.returned ZOK, some {
        data := some (data.take buf.length ++ data)
        ephemeralOwner := if state = ZOO_EPHEMERAL then some session else none }) := by
  simp only [Append, zoo_exists, zoo_create, Faults.none, if_true]
  exact getAndSet_take ⟨some data, _⟩ rfl data buf

theorem Append_none (session : Session) (data : Bytes) {buf : Bytes}
    (fits : data.length ≤ buf.length) :
    Append session none data ZOO_EPHEMERAL buf .none =
      (.returned ZOK, some {
        data := some (data ++ data)
        ephemeralOwner := some session }) := by
  rw [Append_none_take, List.take_of_length_le fits, if_pos rfl]

theorem GetData_some (owner : Option Session) {front : Bytes} (rest : Bytes) {buffer : Bytes}
    (fits : front.length ≤ buffer.length) (text : 0 ∉ front) (beyond : Bytes) :
    ∃ more, GetData (some ⟨some (front ++ rest), owner⟩) buffer beyond none = front ++ more := by
  have copied : (front ++ rest).take buffer.length =
      front ++ rest.take (buffer.length - front.length) := by
    rw [List.take_append, List.take_of_length_le fits]
  have inside : ∀ byte ∈ front, decide (byte ≠ 0) = true := by
    intro byte membership
    simpa using fun same : byte = 0 => text (same ▸ membership)
  simp only [GetData, zoo_get, copied, ne_eq, not_true_eq_false, if_false, List.append_assoc]
  rw [List.takeWhile_append_of_pos inside]
  exact ⟨_, rfl⟩

end ZkClient

end GdRpc.Rpc
