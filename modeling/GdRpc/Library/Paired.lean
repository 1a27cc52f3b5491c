import Mathlib.Data.List.Basic

/-!
# Lists kept in step

Objects are named by their places in one list, and what is recorded about them
stands at the same places of another.
-/

namespace GdRpc.Library

universe u v

variable {Object : Type u} {Entry : Type v}

/-- Every object agrees with the entry about it. -/
structure Paired (Agrees : Nat → Object → Entry → Prop) (objects : List Object)
    (entries : List Entry) : Prop where
  length : entries.length = objects.length
  agrees : ∀ (name : Nat) (object : Object) (entry : Entry),
    objects[name]? = some object → entries[name]? = some entry → Agrees name object entry

namespace Paired

variable {Agrees After : Nat → Object → Entry → Prop} {objects : List Object}
  {entries : List Entry}

theorem nil : Paired Agrees [] [] where
  length := rfl
  agrees := by
    intro name object entry found
    cases found

theorem mono (paired : Paired Agrees objects entries)
    (kept : ∀ name object entry, objects[name]? = some object →
      Agrees name object entry → After name object entry) :
    Paired After objects entries where
  length := paired.length
  agrees := by
    intro name object entry found recorded
    exact kept name object entry found (paired.agrees name object entry found recorded)

theorem concat (paired : Paired Agrees objects entries) {object : Object} {entry : Entry}
    (kept : ∀ name object entry, name < objects.length → Agrees name object entry →
      After name object entry)
    (new : After objects.length object entry) :
    Paired After (objects ++ [object]) (entries ++ [entry]) where
  length := by
    rw [List.length_append, List.length_append, paired.length]
    rfl
  agrees := by
    intro name other record found recorded
    rcases Nat.lt_or_ge name objects.length with old | last
    · rw [List.getElem?_append_left old] at found
      rw [List.getElem?_append_left (Nat.lt_of_lt_of_eq old paired.length.symm)] at recorded
      exact kept name other record old (paired.agrees name other record found recorded)
    · have bounded := (List.getElem?_eq_some_iff.mp found).1
      rw [List.length_append, List.length_singleton] at bounded
      obtain rfl : name = objects.length := by omega
      rw [List.getElem?_concat_length] at found
      rw [← paired.length, List.getElem?_concat_length] at recorded
      cases found
      cases recorded
      exact new

/-- One object changes with its entry, and the others stay in agreement. -/
theorem modify (paired : Paired Agrees objects entries) (changed : Nat)
    {change : Object → Object} {record : Entry → Entry}
    (others : ∀ name object entry, name ≠ changed → objects[name]? = some object →
      Agrees name object entry → After name object entry)
    (here : ∀ object entry, objects[changed]? = some object →
      Agrees changed object entry → After changed (change object) (record entry)) :
    Paired After (objects.modify changed change) (entries.modify changed record) where
  length := by
    rw [List.length_modify, List.length_modify, paired.length]
  agrees := by
    intro name object entry found recorded
    by_cases same : name = changed
    · subst same
      rw [List.getElem?_modify_eq] at found recorded
      obtain ⟨before, wasFound, rfl⟩ := Option.map_eq_some_iff.mp found
      obtain ⟨old, wasRecorded, rfl⟩ := Option.map_eq_some_iff.mp recorded
      exact here before old wasFound (paired.agrees name before old wasFound wasRecorded)
    · rw [List.getElem?_modify_ne _ _ (Ne.symm same)] at found recorded
      exact others name object entry same found
        (paired.agrees name object entry found recorded)

theorem modify_entry (paired : Paired Agrees objects entries) (changed : Nat)
    {record : Entry → Entry}
    (others : ∀ name object entry, name ≠ changed → objects[name]? = some object →
      Agrees name object entry → After name object entry)
    (here : ∀ object entry, objects[changed]? = some object →
      Agrees changed object entry → After changed object (record entry)) :
    Paired After objects (entries.modify changed record) := by
  have both := @modify _ _ _ After _ _ paired changed id record others here
  rwa [List.modify_id] at both

theorem modify_object (paired : Paired Agrees objects entries) (changed : Nat)
    {change : Object → Object}
    (others : ∀ name object entry, name ≠ changed → objects[name]? = some object →
      Agrees name object entry → After name object entry)
    (here : ∀ object entry, objects[changed]? = some object →
      Agrees changed object entry → After changed (change object) entry) :
    Paired After (objects.modify changed change) entries := by
  have both := @modify _ _ _ After _ _ paired changed change id others here
  rwa [List.modify_id] at both

end Paired

end GdRpc.Library
