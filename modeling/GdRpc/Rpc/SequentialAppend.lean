import GdRpc.Rpc.ZkClient

/-!
# `Append`s one after the other

The first call creates the znode with its data and goes on to append it, and
each later call reads what is there into an array of 1024 bytes. What is left
after all of them is said by the data of the first and of the last call and by
what the calls before the last have brought.
-/

namespace GdRpc.Rpc

open GdRpc.Library

universe u

namespace ZkClient

variable {Session : Type u}

/-- A call of `Append`: its arguments, and what the array `buf` holds when it
is declared. -/
structure Registration (Session : Type u) where
  session : Session
  data : Bytes
  state : Int
  buf : Bytes
  size : buf.length = 1024
  deriving Repr

/-- The znode after the call, with no ZooKeeper call that fails. -/
def Registration.append (node : Option (Znode Session)) (call : Registration Session) :
    Option (Znode Session) :=
  (Append call.session node call.data call.state call.buf .none).2

def contents (node : Option (Znode Session)) : Bytes :=
  (node.bind Znode.data).getD []

theorem Registration.append_some (node : Znode Session) {old : Bytes}
    (holds : node.data = some old) (call : Registration Session) :
    call.append (some node) = some { node with data := some (old.take 1024 ++ call.data) } := by
  unfold Registration.append
  rw [Append_some_take call.session node holds, call.size]

theorem Registration.append_none (call : Registration Session) :
    ∃ node : Znode Session, call.append none = some node ∧
      node.data = some (call.data.take 1024 ++ call.data) := by
  unfold Registration.append
  rw [Append_none_take, call.size]
  exact ⟨_, rfl, rfl⟩

theorem take_take_append (count : Nat) (front back : Bytes) :
    (front.take count ++ back).take count = (front ++ back).take count := by
  rw [List.take_append, List.take_append, List.take_take, Nat.min_self, List.length_take]
  rcases Nat.le_total count front.length with long | short
  · rw [Nat.min_eq_left long, Nat.sub_self, Nat.sub_eq_zero_of_le long]
  · rw [Nat.min_eq_right short]

/-- After the calls the znode has as much of what was there and what all calls
but the last have appended as the array holds, and behind it the last one's data. -/
theorem foldl_append_some (node : Znode Session) {old : Bytes} (holds : node.data = some old)
    (calls : List (Registration Session)) (last : Registration Session) :
    ∃ after : Znode Session,
      (calls ++ [last]).foldl Registration.append (some node) = some after ∧
      after.data =
        some ((old ++ calls.flatMap Registration.data).take 1024 ++ last.data) := by
  induction calls generalizing node old with
  | nil =>
      rw [List.nil_append, List.foldl_cons, List.foldl_nil, Registration.append_some node holds,
        List.flatMap_nil, List.append_nil]
      exact ⟨_, rfl, rfl⟩
  | cons call calls inductionHypothesis =>
      obtain ⟨after, run, data⟩ := inductionHypothesis
        { node with data := some (old.take 1024 ++ call.data) } rfl
      rw [List.cons_append, List.foldl_cons, Registration.append_some node holds]
      apply Exists.intro after
      apply And.intro run
      rw [data, List.append_assoc, take_take_append, List.flatMap_cons]

theorem contents_foldl_none (first : Registration Session)
    (calls : List (Registration Session)) :
    ∃ last : Bytes,
      ((first :: calls).map Registration.data).flatten =
        ((first :: calls).map Registration.data).dropLast.flatten ++ last ∧
      contents ((first :: calls).foldl Registration.append none) =
        (first.data ++ ((first :: calls).map Registration.data).dropLast.flatten).take 1024 ++
          last := by
  obtain ⟨node, created, data⟩ := first.append_none
  rcases List.eq_nil_or_concat' calls with rfl | ⟨front, last, rfl⟩
  · apply Exists.intro first.data
    rw [List.foldl_cons, created]
    simp [contents, data]
  · obtain ⟨after, run, appended⟩ := foldl_append_some node data front last
    have pieces : ((first :: (front ++ [last])).map Registration.data) =
        (first.data :: front.map Registration.data) ++ [last.data] := by
      rw [List.map_cons, List.map_append, List.map_singleton, List.cons_append]
    apply Exists.intro last.data
    rw [List.foldl_cons, created, run, pieces, List.dropLast_concat]
    apply And.intro
    · rw [List.flatten_append, List.flatten_singleton]
    · simp only [contents, Option.bind_some, appended, Option.getD_some]
      rw [List.append_assoc, take_take_append, List.flatMap_def, List.flatten_cons]

/-! ## When the data is that of all calls -/

theorem take_append_eq_iff (count : Nat) (front back : Bytes) :
    (front ++ back).take count = back ↔
      back.length ≤ count ∧
        (front = [] ∨ back.length = count ∧ back <+: front ++ back) := by
  constructor
  · intro same
    have length : min count (front.length + back.length) = back.length := by
      rw [← List.length_append, ← List.length_take, same]
    apply And.intro (by omega)
    rcases Nat.lt_or_ge (front.length + back.length) count with short | long
    · left
      exact List.eq_nil_of_length_eq_zero (by omega)
    · right
      apply And.intro (by omega)
      calc back = (front ++ back).take count := same.symm
        _ <+: front ++ back := List.take_prefix count (front ++ back)
  · rintro ⟨fits, rfl | ⟨full, isPrefix⟩⟩
    · exact List.take_of_length_le fits
    · rw [← full]
      exact (List.prefix_iff_eq_take.mp isPrefix).symm

/-- What comes before the last piece fits the array, and the first piece is
empty or what comes before the last fills the array and is found again behind
the first. -/
def Unrepeated : List Bytes → Prop
  | [] => True
  | first :: rest =>
      let before := (first :: rest).dropLast.flatten
      before.length ≤ 1024 ∧
        (first = [] ∨ before.length = 1024 ∧ before <+: first ++ before)

instance : DecidablePred Unrepeated
  | [] => inferInstanceAs (Decidable True)
  | first :: rest =>
      inferInstanceAs (Decidable ((first :: rest).dropLast.flatten.length ≤ 1024 ∧
        (first = [] ∨ (first :: rest).dropLast.flatten.length = 1024 ∧
          (first :: rest).dropLast.flatten <+: first ++ (first :: rest).dropLast.flatten)))

/-- Nothing that is registered on a missing znode is lost or there twice. -/
theorem Appends_exact_iff (calls : List (Registration Session)) :
    contents (calls.foldl Registration.append none) =
        (calls.map Registration.data).flatten ↔
      Unrepeated (calls.map Registration.data) := by
  cases calls with
  | nil => exact iff_of_true rfl trivial
  | cons first calls =>
      obtain ⟨last, pieces, data⟩ := contents_foldl_none first calls
      rw [data, pieces, List.append_cancel_right_eq]
      exact take_append_eq_iff 1024 first.data _

def soleServer : Registration Unit := {
  session := ()
  data := [97]
  state := ZOO_EPHEMERAL
  buf := List.replicate 1024 0
  size := List.length_replicate }

/-- A single server is registered twice. -/
theorem Appends_single_twice :
    contents ([soleServer].foldl Registration.append none) ≠
      ([soleServer].map Registration.data).flatten := by
  obtain ⟨node, created, data⟩ := soleServer.append_none
  rw [List.foldl_cons, List.foldl_nil, created, contents, Option.bind_some, data]
  decide

end ZkClient

end GdRpc.Rpc
