import Mathlib.Data.List.Basic

/-!
# Texts made of lines

A line ends in its newline and has no other. A text holds a line if the line
begins at the beginning or after a newline.
-/

namespace GdRpc.Library

universe u

variable {Alpha : Type u} {newline : Alpha}

def IsLine (newline : Alpha) (line : List Alpha) : Prop :=
  ∃ text, newline ∉ text ∧ line = text ++ [newline]

def HoldsLine (newline : Alpha) (text line : List Alpha) : Prop :=
  ∃ front back, text = front ++ line ++ back ∧
    (front = [] ∨ front.getLast? = some newline)

theorem first_newline_inj {text text' rest rest' : List Alpha} (clean : newline ∉ text)
    (clean' : newline ∉ text') (same : text ++ newline :: rest = text' ++ newline :: rest') :
    text = text' ∧ rest = rest' := by
  induction text generalizing text' with
  | nil =>
      cases text' with
      | nil => simpa using same
      | cons letter text' =>
          simp only [List.nil_append, List.cons_append, List.cons.injEq] at same
          exact absurd (by simp [same.1]) clean'
  | cons letter text inductionHypothesis =>
      cases text' with
      | nil =>
          simp only [List.nil_append, List.cons_append, List.cons.injEq] at same
          exact absurd (by simp [same.1]) clean
      | cons letter' text' =>
          simp only [List.cons_append, List.cons.injEq] at same
          have tails := inductionHypothesis
            (fun member => clean (List.mem_cons_of_mem _ member))
            (fun member => clean' (List.mem_cons_of_mem _ member)) same.2
          exact ⟨by rw [same.1, tails.1], tails.2⟩

theorem IsLine.append_inj {first second rest rest' : List Alpha}
    (firstLine : IsLine newline first) (secondLine : IsLine newline second)
    (same : first ++ rest = second ++ rest') : first = second ∧ rest = rest' := by
  obtain ⟨text, clean, rfl⟩ := firstLine
  obtain ⟨text', clean', rfl⟩ := secondLine
  simp only [List.append_assoc, List.singleton_append] at same
  obtain ⟨texts, rests⟩ := first_newline_inj clean clean' same
  exact ⟨by rw [texts], rests⟩

theorem exists_first_line {text : List Alpha} (ends : text.getLast? = some newline) :
    ∃ line rest, IsLine newline line ∧ text = line ++ rest ∧
      (rest = [] ∨ rest.getLast? = some newline) := by
  have membership : newline ∈ text := List.mem_of_getLast? ends
  obtain ⟨clean, rest, rfl, free⟩ := List.eq_append_cons_of_mem membership
  refine ⟨clean ++ [newline], rest, ⟨clean, free, rfl⟩, by simp, ?_⟩
  cases rest with
  | nil => exact .inl rfl
  | cons first rest => exact .inr (by simpa [List.getLast?_append] using ends)

theorem getLast?_flatten {lines : List (List Alpha)} (nonempty : lines ≠ [])
    (each : ∀ line ∈ lines, IsLine newline line) :
    lines.flatten.getLast? = some newline := by
  obtain ⟨front, last, rfl⟩ := (List.eq_nil_or_concat' lines).resolve_left nonempty
  obtain ⟨text, _, rfl⟩ := each last (by simp)
  simp

theorem holdsLine_flatten_iff {lines : List (List Alpha)} {line : List Alpha}
    (each : ∀ line ∈ lines, IsLine newline line) (isLine : IsLine newline line) :
    HoldsLine newline lines.flatten line ↔ line ∈ lines := by
  constructor
  · rintro ⟨front, back, split, starts⟩
    induction lines generalizing front with
    | nil =>
        obtain ⟨text, _, rfl⟩ := isLine
        simp at split
    | cons first lines inductionHypothesis =>
        have firstLine := each first List.mem_cons_self
        have others : ∀ other ∈ lines, IsLine newline other := fun other membership =>
          each other (List.mem_cons_of_mem _ membership)
        rw [List.flatten_cons] at split
        rcases starts with rfl | ends
        · rw [List.nil_append] at split
          rw [(firstLine.append_inj isLine split).1]
          exact List.mem_cons_self
        · -- the first line of `front` is the first line of the text
          obtain ⟨begin, rest, beginLine, rfl, later⟩ := exists_first_line ends
          rw [List.append_assoc, List.append_assoc] at split
          have same := (firstLine.append_inj beginLine split).2
          rw [← List.append_assoc] at same
          exact List.mem_cons_of_mem _ (inductionHypothesis others rest same later)
  · intro membership
    obtain ⟨front, back, rfl⟩ := List.append_of_mem membership
    refine ⟨front.flatten, back.flatten, by simp, ?_⟩
    cases front with
    | nil => exact .inl rfl
    | cons first front =>
        exact .inr (getLast?_flatten (by simp) fun other inFront =>
          each other (List.mem_append_left _ inFront))

end GdRpc.Library
