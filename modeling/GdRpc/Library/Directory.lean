import Mathlib.Data.List.Basic
import Mathlib.Data.List.Nodup
import Mathlib.Logic.Function.Basic

/-!
# Files written one after another

Opening a file empties it, whoever has written it before. What is written goes
to the file opened last.
-/

namespace GdRpc.Library

universe u v

/-- What the files hold, and the names in the order in which they were opened. -/
structure Directory (Name : Type u) (Byte : Type v) where
  disk : Name → List Byte
  opened : List Name

namespace Directory

variable {Name : Type u} {Byte : Type v} [DecidableEq Name]

def openFile (directory : Directory Name Byte) (name : Name) : Directory Name Byte where
  disk := Function.update directory.disk name []
  opened := directory.opened ++ [name]

def write (directory : Directory Name Byte) (bytes : List Byte) : Directory Name Byte :=
  match directory.opened.getLast? with
  | none => directory
  | some name =>
      { directory with
        disk := Function.update directory.disk name (directory.disk name ++ bytes) }

/-- What the files hold that have been opened, in that order. -/
def contents (directory : Directory Name Byte) : List (List Byte) :=
  directory.opened.map directory.disk

variable {directory : Directory Name Byte}

@[simp]
theorem write_opened (bytes : List Byte) :
    (directory.write bytes).opened = directory.opened := by
  unfold write
  split <;> rfl

theorem contents_openFile {name : Name} (fresh : name ∉ directory.opened) :
    (directory.openFile name).contents = directory.contents ++ [[]] := by
  unfold contents openFile
  simp only [List.map_append, List.map_singleton, Function.update_self]
  congr 1
  apply List.map_congr_left
  intro earlier membership
  apply Function.update_of_ne
  rintro rfl
  exact fresh membership

/-- Where no name has been used twice, only the last file changes. -/
theorem contents_write {closed : List (List Byte)} {text : List Byte}
    (distinct : directory.opened.Nodup) (split : directory.contents = closed ++ [text])
    (bytes : List Byte) :
    (directory.write bytes).contents = closed ++ [text ++ bytes] := by
  obtain ⟨earlier, last, opened, rfl, lastText⟩ := List.map_eq_append_iff.mp split
  obtain ⟨name, rfl, rfl⟩ := List.map_eq_singleton_iff.mp lastText
  rw [opened, List.nodup_append_comm] at distinct
  obtain ⟨fresh, _⟩ := List.nodup_cons.mp distinct
  unfold contents write
  simp only [opened, List.getLast?_concat, List.map_append, List.map_singleton,
    Function.update_self]
  congr 1
  apply List.map_congr_left
  intro other membership
  apply Function.update_of_ne
  rintro rfl
  exact fresh membership

end Directory

end GdRpc.Library
