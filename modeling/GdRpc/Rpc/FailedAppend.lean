import GdRpc.Rpc.ZkClient

/-!
# `Append` when a ZooKeeper call fails

A failed `zoo_get` is only logged: what is then written over the znode is made
of the array as it was declared. The results of the four calls are followed to
the end for any znode and any codes.
-/

namespace GdRpc.Rpc

open GdRpc.Library

universe u

namespace ZkClient

variable {Session : Type u}

/-- A call that fails says so with a code that is not `ZOK`. -/
def Faults.AreErrors (faults : Faults) : Prop :=
  faults.zoo_exists ≠ some ZOK ∧ faults.zoo_create ≠ some ZOK ∧
    faults.zoo_get ≠ some ZOK ∧ faults.zoo_set ≠ some ZOK

instance (faults : Faults) : Decidable faults.AreErrors :=
  inferInstanceAs (Decidable (_ ∧ _))

/-- The code with which `Append` decides whether to read the data, and the
znode at that moment: those of `zoo_create` where `zoo_exists` finds nothing. -/
def existsOrCreate (session : Session) (node : Option (Znode Session)) (data : Bytes)
    (state : Int) (faults : Faults) : Int × Option (Znode Session) :=
  let flag := zoo_exists node faults.zoo_exists
  if flag = ZNONODE then zoo_create session node data state faults.zoo_create
  else (flag, node)

/-- One of `zoo_exists`, `zoo_create` and `zoo_get` reports an error; that there
is no znode yet is none when it can be created. -/
def ReportsError (session : Session) (node : Option (Znode Session)) (data : Bytes)
    (state : Int) (buf : Bytes) (faults : Faults) : Prop :=
  let (flag, node) := existsOrCreate session node data state faults
  flag ≠ ZOK ∨ (zoo_get node buf faults.zoo_get).1 ≠ ZOK

/-- The data of the znode is what it was, and the caller gets an error. -/
def LeavesIntact (node : Option (Znode Session))
    (result : Outcome × Option (Znode Session)) : Prop :=
  result.2.map Znode.data = node.map Znode.data ∧
    ∃ flag, result.1 = .returned flag ∧ flag ≠ ZOK

/-- What the second half of `Append` does to the znode it finds, if it is to
leave `before` intact when `zoo_get` fails. -/
theorem getAndSet_intact_iff (before : Option (Znode Session)) (node : Znode Session)
    (data buf : Bytes) {faults : Faults} (errors : faults.AreErrors) :
    ((zoo_get (some node) buf faults.zoo_get).1 ≠ ZOK →
        LeavesIntact before (getAndSet (some node) data buf faults)) ∧
      (getAndSet (some node) data buf faults).1 ≠ .length_error ↔
    (faults.zoo_get = none → node.data ≠ none) ∧
      (faults.zoo_get ≠ none →
        faults.zoo_set ≠ none ∧ before.map Znode.data = some node.data) := by
  obtain ⟨-, -, getErrors, setErrors⟩ := errors
  cases reading : faults.zoo_get with
  | none =>
      cases stored : node.data with
      | none => simp [getAndSet, zoo_get, reading, stored]
      | some old =>
          have nonneg : ¬ (((old.take buf.length).length : Int) < 0) := by omega
          simp only [getAndSet, zoo_get, reading, stored, nonneg, if_false]
          simp
  | some code =>
      -- `len` is still the length of the array
      have failed : code ≠ ZOK := by simpa [reading] using getErrors
      have nonneg : ¬ ((buf.length : Int) < 0) := by omega
      cases writing : faults.zoo_set with
      | none => simp [getAndSet, zoo_get, zoo_set, LeavesIntact, reading, writing, failed, nonneg]
      | some set =>
          have rejected : set ≠ ZOK := by simpa [writing] using setErrors
          simp [getAndSet, zoo_get, zoo_set, LeavesIntact, reading, writing, failed, nonneg,
            rejected, eq_comm]

theorem zoo_exists_eq_ZOK_iff (node : Option (Znode Session)) {fault : Option Int}
    (isError : fault ≠ some ZOK) :
    zoo_exists node fault = ZOK ↔ fault = none ∧ node ≠ none := by
  cases fault with
  | none => cases node <;> simp [zoo_exists, ZOK, ZNONODE]
  | some code =>
      have failed : code ≠ ZOK := by simpa using isError
      simp [zoo_exists, failed]

theorem zoo_exists_eq_ZNONODE_iff (node : Option (Znode Session)) (fault : Option Int) :
    zoo_exists node fault = ZNONODE ↔
      fault = some ZNONODE ∨ fault = none ∧ node = none := by
  cases fault with
  | none => cases node <;> simp [zoo_exists, ZOK, ZNONODE]
  | some code => simp [zoo_exists]

theorem zoo_create_eq_ZOK_iff (session : Session) (node : Option (Znode Session)) (data : Bytes)
    (flags : Int) {fault : Option Int} (isError : fault ≠ some ZOK) :
    (zoo_create session node data flags fault).1 = ZOK ↔ fault = none ∧ node = none := by
  cases fault with
  | none => cases node <;> simp [zoo_create, ZOK, ZNODEEXISTS]
  | some code =>
      have failed : code ≠ ZOK := by simpa using isError
      simp [zoo_create, failed]

theorem zoo_create_failed (session : Session) (node : Option (Znode Session)) (data : Bytes)
    (flags : Int) {fault : Option Int}
    (failed : (zoo_create session node data flags fault).1 ≠ ZOK) :
    (zoo_create session node data flags fault).2 = node := by
  cases fault <;> cases node <;> simp_all [zoo_create]

theorem existsOrCreate_failed (session : Session) (node : Option (Znode Session)) (data : Bytes)
    (state : Int) {faults : Faults}
    (failed : (existsOrCreate session node data state faults).1 ≠ ZOK) :
    (existsOrCreate session node data state faults).2 = node := by
  unfold existsOrCreate at *
  by_cases absent : zoo_exists node faults.zoo_exists = ZNONODE
  · simp only [if_pos absent] at failed ⊢
    exact zoo_create_failed session node data state failed
  · simp only [if_neg absent]

theorem existsOrCreate_eq_ZOK_iff (session : Session) (node : Option (Znode Session))
    (data : Bytes) (state : Int) {faults : Faults} (errors : faults.AreErrors) :
    (existsOrCreate session node data state faults).1 = ZOK ↔
      faults.zoo_exists = none ∧ node ≠ none ∨
        (faults.zoo_exists = none ∨ faults.zoo_exists = some ZNONODE) ∧
          faults.zoo_create = none ∧ node = none := by
  obtain ⟨existsError, createError, -, -⟩ := errors
  unfold existsOrCreate
  by_cases absent : zoo_exists node faults.zoo_exists = ZNONODE
  · simp only [if_pos absent]
    rw [zoo_create_eq_ZOK_iff session node data state createError]
    rw [zoo_exists_eq_ZNONODE_iff] at absent
    grind
  · simp only [if_neg absent]
    rw [zoo_exists_eq_ZOK_iff node existsError]
    rw [zoo_exists_eq_ZNONODE_iff] at absent
    grind

theorem existsOrCreate_ok (session : Session) (node : Option (Znode Session)) (data : Bytes)
    (state : Int) {faults : Faults} (errors : faults.AreErrors)
    (ok : (existsOrCreate session node data state faults).1 = ZOK) :
    ∃ present : Znode Session,
      (existsOrCreate session node data state faults).2 = some present ∧
        (node = some present ∨ node = none ∧ present.data = some data) := by
  have cases := (existsOrCreate_eq_ZOK_iff session node data state errors).mp ok
  unfold existsOrCreate
  rcases cases with ⟨found, there⟩ | ⟨missing, created, rfl⟩
  · obtain ⟨present, rfl⟩ := Option.ne_none_iff_exists'.mp there
    have notMissing : ¬ zoo_exists (some present) faults.zoo_exists = ZNONODE := by
      rw [zoo_exists_eq_ZNONODE_iff, found]
      simp
    exact ⟨present, by simp only [if_neg notMissing], Or.inl rfl⟩
  · have isMissing : zoo_exists (none : Option (Znode Session)) faults.zoo_exists = ZNONODE := by
      rw [zoo_exists_eq_ZNONODE_iff]
      grind
    simp only [if_pos isMissing, created, zoo_create]
    exact ⟨_, rfl, Or.inr ⟨trivial, rfl⟩⟩

/-- Where `Append` gets to read the znode, it can and finds data that is not
null; or it can neither read nor write it, and has not created it either. -/
def ReadsOrKeeps (node : Option (Znode Session)) (faults : Faults) : Prop :=
  match node with
  | some node =>
      faults.zoo_exists = none →
        (faults.zoo_get = none → node.data ≠ none) ∧
          (faults.zoo_get ≠ none → faults.zoo_set ≠ none)
  | none =>
      faults.zoo_exists = none ∨ faults.zoo_exists = some ZNONODE →
        faults.zoo_create = none → faults.zoo_get = none

/-- An error of `zoo_exists`, `zoo_create` or `zoo_get` leaves the registry
intact, and no string is asked for with a negative length. -/
theorem Append_intact_iff (session : Session) (node : Option (Znode Session)) (data : Bytes)
    (state : Int) (buf : Bytes) (faults : Faults) (errors : faults.AreErrors) :
    (ReportsError session node data state buf faults →
        LeavesIntact node (Append session node data state buf faults)) ∧
      (Append session node data state buf faults).1 ≠ .length_error ↔
    ReadsOrKeeps node faults := by
  have split : Append session node data state buf faults =
      if (existsOrCreate session node data state faults).1 = ZOK then
        getAndSet (existsOrCreate session node data state faults).2 data buf faults
      else
        (.returned (existsOrCreate session node data state faults).1,
          (existsOrCreate session node data state faults).2) := rfl
  have reaches := existsOrCreate_eq_ZOK_iff session node data state errors
  by_cases ok : (existsOrCreate session node data state faults).1 = ZOK
  · obtain ⟨present, found, origin⟩ := existsOrCreate_ok session node data state errors ok
    have reports : ReportsError session node data state buf faults ↔
        (zoo_get (some present) buf faults.zoo_get).1 ≠ ZOK := by
      simp only [ReportsError, ok, found, ne_eq, not_true_eq_false, false_or]
    rw [split, if_pos ok, found, reports, getAndSet_intact_iff node present data buf errors]
    have reached := reaches.mp ok
    rcases origin with rfl | ⟨rfl, stored⟩
    · simp_all [ReadsOrKeeps]
    · simp_all [ReadsOrKeeps]
  · have unreached := mt reaches.mpr ok
    have vacuous : ReadsOrKeeps node faults := by
      cases node <;> simp_all [ReadsOrKeeps]
    apply iff_of_true _ vacuous
    rw [split, if_neg ok, existsOrCreate_failed session node data state ok]
    exact ⟨fun _ => ⟨rfl, _, rfl, ok⟩, by simp⟩

/-- The code of a lost connection. -/
def ZCONNECTIONLOSS : Int := -4

def registered : Option (Znode Unit) := some ⟨some [97], none⟩

/-- The connection is lost and stays so. -/
def Faults.lost : Faults := ⟨.none, .none, some ZCONNECTIONLOSS, some ZCONNECTIONLOSS⟩

/-- The connection is lost before the data has been read and there again after
that. -/
def Faults.interrupted : Faults := ⟨.none, .none, some ZCONNECTIONLOSS, .none⟩

theorem Append_intact_iff_lost :
    (ReportsError () registered [98] ZOO_EPHEMERAL [0] .lost →
        LeavesIntact registered (Append () registered [98] ZOO_EPHEMERAL [0] .lost)) ∧
      (Append () registered [98] ZOO_EPHEMERAL [0] .lost).1 ≠ .length_error :=
  (Append_intact_iff () registered [98] ZOO_EPHEMERAL [0] .lost (by decide)).mpr
    fun _ => ⟨by decide, by decide⟩

/-- When only `zoo_get` fails, the array as it was declared is written in front
of the data. -/
theorem Append_get_failed (session : Session) (node : Znode Session) (data : Bytes)
    (state : Int) (buf : Bytes) (code : Int) :
    Append session (some node) data state buf ⟨none, none, some code, none⟩ =
      (.returned ZOK, some { node with data := some (buf ++ data) }) := by
  have present : (ZOK = ZNONODE) = False := by decide
  have nonneg : ¬ ((buf.length : Int) < 0) := by omega
  simp only [Append, zoo_exists, present, if_false, if_true, getAndSet, zoo_get, nonneg,
    Int.toNat_natCast, List.take_length, zoo_set]

theorem Append_erases :
    ReportsError () registered [98] ZOO_EPHEMERAL (List.replicate 1024 0) .interrupted ∧
      ¬ LeavesIntact registered
        (Append () registered [98] ZOO_EPHEMERAL (List.replicate 1024 0) .interrupted) := by
  apply And.intro
  · exact Or.inr (by decide : ZCONNECTIONLOSS ≠ ZOK)
  · intro intact
    rw [registered, Faults.interrupted, Append_get_failed] at intact
    obtain ⟨-, flag, returned, failed⟩ := intact
    exact failed (Outcome.returned.inj returned).symm

end ZkClient

end GdRpc.Rpc
