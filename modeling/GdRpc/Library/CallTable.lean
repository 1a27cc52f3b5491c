import Mathlib.Data.List.Nodup

/-!
# Correlating replies with calls

Calls are issued under a key and stay outstanding until a reply bears it. A
reply finishes whatever is outstanding under its key and nothing else.
-/

namespace GdRpc.Library

universe u v w

/-- The outstanding calls and the calls finished, each with its reply. -/
structure CallTable (Key : Type u) (Call : Type v) (Reply : Type w) where
  outstanding : List (Key × Call)
  finished : List (Call × Reply)
  deriving DecidableEq, Repr

namespace CallTable

variable {Key : Type u} {Call : Type v} {Reply : Type w}

def empty : CallTable Key Call Reply where
  outstanding := []
  finished := []

def issue (table : CallTable Key Call Reply) (key : Key) (call : Call) :
    CallTable Key Call Reply :=
  { table with outstanding := table.outstanding ++ [(key, call)] }

/-- A reply under `key`. -/
def reply [DecidableEq Key] (table : CallTable Key Call Reply) (key : Key)
    (reply : Reply) : CallTable Key Call Reply where
  outstanding := table.outstanding.filter fun entry => entry.1 ≠ key
  finished := table.finished ++
    (table.outstanding.filter fun entry => entry.1 = key).map
      fun entry => (entry.2, reply)

/-- No two outstanding calls have the same key. -/
def Distinct (table : CallTable Key Call Reply) : Prop :=
  (table.outstanding.map Prod.fst).Nodup

variable {table : CallTable Key Call Reply}

theorem distinct_issue_iff {key : Key} {call : Call} :
    (table.issue key call).Distinct ↔
      table.Distinct ∧ ∀ other, (key, other) ∉ table.outstanding := by
  rw [Distinct, issue, List.map_append, List.map_singleton, List.nodup_append_comm,
    List.singleton_append, List.nodup_cons, and_comm]
  apply and_congr_right
  intro _
  simp

theorem Distinct.reply [DecidableEq Key] (distinct : table.Distinct) (key : Key)
    (reply : Reply) : (table.reply key reply).Distinct :=
  distinct.sublist (List.filter_sublist.map _)

theorem Distinct.reply_finished [DecidableEq Key] (distinct : table.Distinct)
    {key : Key} {call : Call} (reply : Reply)
    (membership : (key, call) ∈ table.outstanding) :
    (table.reply key reply).finished = table.finished ++ [(call, reply)] := by
  have only : (table.outstanding.filter fun entry => entry.1 = key) = [(key, call)] := by
    obtain ⟨before, after, split⟩ := List.append_of_mem membership
    simp only [Distinct, split, List.map_append, List.map_cons] at distinct
    obtain ⟨_, ⟨later, _⟩, earlier⟩ := by
      simpa only [List.nodup_append, List.nodup_cons] using distinct
    rw [split, List.filter_append, List.filter_cons_of_pos (by simp)]
    have noneBefore : before.filter (fun entry => decide (entry.1 = key)) = [] := by
      apply List.filter_eq_nil_iff.mpr
      intro entry isBefore same
      exact earlier _ (List.mem_map_of_mem isBefore) _ List.mem_cons_self
        (of_decide_eq_true same)
    have noneAfter : after.filter (fun entry => decide (entry.1 = key)) = [] := by
      apply List.filter_eq_nil_iff.mpr
      intro entry isAfter same
      exact later (of_decide_eq_true same ▸ List.mem_map_of_mem isAfter)
    rw [noneBefore, noneAfter, List.nil_append]
  rw [CallTable.reply, only]
  rfl

theorem mem_reply_of_ne [DecidableEq Key] {key other : Key} {call : Call}
    (reply : Reply) (differs : key ≠ other)
    (membership : (key, call) ∈ table.outstanding) :
    (key, call) ∈ (table.reply other reply).outstanding :=
  List.mem_filter.mpr ⟨membership, by simpa using differs⟩

theorem reply_of_unknown [DecidableEq Key] {key : Key} (reply : Reply)
    (unknown : ∀ call, (key, call) ∉ table.outstanding) :
    table.reply key reply = table := by
  have differs : ∀ entry ∈ table.outstanding, entry.1 ≠ key := by
    rintro ⟨other, call⟩ membership rfl
    exact unknown call membership
  have keeps := List.filter_eq_self.mpr fun entry membership =>
    decide_eq_true (differs entry membership)
  have finishes : (table.outstanding.filter fun entry => entry.1 = key) = [] := by
    apply List.filter_eq_nil_iff.mpr
    intro entry membership
    simpa using differs entry membership
  simp only [CallTable.reply, keeps, finishes, List.map_nil, List.append_nil]

end CallTable

end GdRpc.Library
