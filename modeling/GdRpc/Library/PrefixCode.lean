import Mathlib.Data.List.Infix

/-!
# Streams of codewords

A codeword says where it ends, so that a stream of codewords is read from the
front in one way only, also when it breaks off inside of one.
-/

namespace GdRpc.Library

universe u v w

variable {Item : Type u} {Symbol : Type v} {Content : Type w}

/-- The codewords of valid items, read up to their `content`. -/
structure PrefixCode (encode : Item → List Symbol) (content : Item → Content)
    (Valid : Item → Prop) : Prop where
  nonempty : ∀ item, Valid item → encode item ≠ []
  separates : ∀ first second rest rest', Valid first → Valid second →
    encode first ++ rest = encode second ++ rest' →
      content first = content second ∧ rest = rest'

/-- A codeword that has not come to its end. -/
def Unfinished (encode : Item → List Symbol) (Valid : Item → Prop)
    (rest : List Symbol) : Prop :=
  rest = [] ∨ ∃ next, Valid next ∧ rest <+: encode next ∧ rest ≠ encode next

theorem Unfinished.mono {encode : Item → List Symbol} {Valid Weaker : Item → Prop}
    (weaker : ∀ item, Valid item → Weaker item) {rest : List Symbol}
    (unfinished : Unfinished encode Valid rest) : Unfinished encode Weaker rest := by
  rcases unfinished with none | ⟨next, valid, inside⟩
  · exact .inl none
  · exact .inr ⟨next, weaker next valid, inside⟩

/-- A stream that may break off anywhere consists of whole codewords and one
that is unfinished. -/
theorem exists_whole {encode : Item → List Symbol} {Valid : Item → Prop}
    {items : List Item} (valid : ∀ item ∈ items, Valid item) {stream : List Symbol}
    (begins : stream <+: (items.map encode).flatten) :
    ∃ whole rest, whole <+: items ∧ stream = (whole.map encode).flatten ++ rest ∧
      Unfinished encode Valid rest := by
  induction items generalizing stream with
  | nil => exact ⟨[], [], List.nil_prefix, List.prefix_nil.mp begins, .inl rfl⟩
  | cons item items inductionHypothesis =>
      obtain ⟨isValid, later⟩ := List.forall_mem_cons.mp valid
      rw [List.map_cons, List.flatten_cons] at begins
      by_cases reached : encode item <+: stream
      · obtain ⟨tail, rfl⟩ := reached
        rw [List.prefix_append_right_inj] at begins
        obtain ⟨whole, rest, isPrefix, split, unfinished⟩ := inductionHypothesis later begins
        refine ⟨item :: whole, rest, ?_, ?_, unfinished⟩
        · exact (List.prefix_cons_inj item).mpr isPrefix
        · rw [split, List.map_cons, List.flatten_cons, List.append_assoc]
      · have inside : stream <+: encode item := by
          rcases List.prefix_or_prefix_of_prefix begins (List.prefix_append _ _) with short | long
          · exact short
          · exact absurd long reached
        refine ⟨[], stream, List.nil_prefix, rfl, .inr ⟨item, isValid, inside, ?_⟩⟩
        rintro rfl
        exact reached (List.prefix_refl _)

namespace PrefixCode

variable {encode : Item → List Symbol} {content : Item → Content} {Valid : Item → Prop}

/-- Whoever reads whole codewords from the front of a stream reads the first
ones that are in it. -/
theorem contents_of_read (code : PrefixCode encode content Valid)
    {whole received : List Item} (wholeValid : ∀ item ∈ whole, Valid item)
    (receivedValid : ∀ item ∈ received, Valid item) {rest : List Symbol}
    (unfinished : Unfinished encode Valid rest)
    (read : (received.map encode).flatten <+: (whole.map encode).flatten ++ rest) :
    received.map content <+: whole.map content := by
  induction received generalizing whole with
  | nil => exact List.nil_prefix
  | cons item received inductionHypothesis =>
      obtain ⟨itemValid, receivedValid⟩ := List.forall_mem_cons.mp receivedValid
      obtain ⟨unread, read⟩ := read
      rw [List.map_cons, List.flatten_cons, List.append_assoc] at read
      cases whole with
      | nil =>
          rw [List.map_nil, List.flatten_nil, List.nil_append] at read
          rcases unfinished with rfl | ⟨next, nextValid, ⟨missing, goesOn⟩, partly⟩
          · exact absurd (List.append_eq_nil_iff.mp read).1 (code.nonempty item itemValid)
          · -- the codeword read is the one that is unfinished
            have same : encode item ++ ((received.map encode).flatten ++ unread ++ missing) =
                encode next ++ [] := by
              rw [List.append_nil, ← goesOn, ← read]
              simp only [List.append_assoc]
            obtain ⟨contents, ends⟩ := code.separates _ _ _ _ itemValid nextValid same
            have nothing : missing = [] := (List.append_eq_nil_iff.mp ends).2
            rw [nothing, List.append_nil] at goesOn
            exact absurd goesOn partly
      | cons here whole =>
          obtain ⟨hereValid, wholeValid⟩ := List.forall_mem_cons.mp wholeValid
          rw [List.map_cons, List.flatten_cons, List.append_assoc] at read
          obtain ⟨contents, tails⟩ := code.separates _ _ _ _ itemValid hereValid read
          rw [List.map_cons, List.map_cons, contents, List.prefix_cons_inj]
          exact inductionHypothesis wholeValid receivedValid ⟨unread, tails⟩

end PrefixCode

end GdRpc.Library
