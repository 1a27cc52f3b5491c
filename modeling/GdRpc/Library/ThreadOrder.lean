import Mathlib.Data.List.Basic
import Mathlib.Logic.Function.Basic

/-!
# The order of one thread among others

Items are tagged with the thread they come from. A selection of them keeps the
order of every thread when each thread's items appear in it, some perhaps left
out, in the order in which the thread produced them; how different threads are
interleaved does not matter.
-/

namespace GdRpc.Library

universe u v w

variable {Thread : Type u} {Item : Type v} [DecidableEq Thread]

def KeepsThreadOrder (part whole : List (Thread × Item)) : Prop :=
  ∀ thread, (part.filter fun entry => entry.1 = thread).Sublist
    (whole.filter fun entry => entry.1 = thread)

namespace KeepsThreadOrder

variable {part whole front middle back : List (Thread × Item)}

theorem nil (whole : List (Thread × Item)) : KeepsThreadOrder [] whole :=
  fun _ => List.nil_sublist _

theorem extend (keeps : KeepsThreadOrder part whole) (entry : Thread × Item) :
    KeepsThreadOrder part (whole ++ [entry]) := by
  intro thread
  rw [List.filter_append]
  exact (keeps thread).trans (List.sublist_append_left _ _)

theorem snoc (keeps : KeepsThreadOrder part whole) (entry : Thread × Item) :
    KeepsThreadOrder (part ++ [entry]) (whole ++ [entry]) := by
  intro thread
  rw [List.filter_append, List.filter_append]
  exact (keeps thread).append (List.Sublist.refl _)

theorem sublist {fewer : List (Thread × Item)} (keeps : KeepsThreadOrder part whole)
    (selected : fewer.Sublist part) : KeepsThreadOrder fewer whole :=
  fun thread => (selected.filter _).trans (keeps thread)

/-- The items of one thread overtake items of other threads. -/
theorem overtake {own : List (Thread × Item)} {thread : Thread}
    (keeps : KeepsThreadOrder (front ++ middle ++ own ++ back) whole)
    (same : ∀ entry ∈ own, entry.1 = thread)
    (others : ∀ other ∈ middle, other.1 ≠ thread) :
    KeepsThreadOrder (front ++ own ++ middle ++ back) whole := by
  intro thread'
  have kept := keeps thread'
  simp only [List.filter_append] at kept ⊢
  by_cases mine : thread = thread'
  · have none : middle.filter (fun other => other.1 = thread') = [] := by
      rw [List.filter_eq_nil_iff]
      intro other membership
      simpa [← mine] using others other membership
    simpa [none] using kept
  · have none : own.filter (fun entry => entry.1 = thread') = [] := by
      rw [List.filter_eq_nil_iff]
      intro entry membership
      simpa [same entry membership] using mine
    simpa [none] using kept

variable {Image : Type w} {image : Item → Image}

theorem exists_merge {part : List (Thread × Image)} {own : Thread → List (Thread × Item)}
    (threads : ∀ thread, ∀ entry ∈ own thread, entry.1 = thread)
    (images : ∀ thread, (own thread).map (Prod.map id image) =
      part.filter fun entry => entry.1 = thread) :
    ∃ items : List (Thread × Item), items.map (Prod.map id image) = part ∧
      ∀ thread, (items.filter fun entry => entry.1 = thread) = own thread := by
  induction part generalizing own with
  | nil =>
      refine ⟨[], rfl, ?_⟩
      intro thread
      exact (List.map_eq_nil_iff.mp (images thread)).symm
  | cons entry part inductionHypothesis =>
      have here := images entry.1
      rw [List.filter_cons_of_pos (by simp)] at here
      obtain ⟨item, rest, chosen, isImage, others⟩ := List.map_eq_cons_iff.mp here
      have thread : item.1 = entry.1 := threads entry.1 item (chosen ▸ List.mem_cons_self)
      have laterThreads : ∀ thread', ∀ other ∈ Function.update own entry.1 rest thread',
          other.1 = thread' := by
        intro thread' other membership
        by_cases same : thread' = entry.1
        · subst same
          rw [Function.update_self] at membership
          exact threads entry.1 other (chosen ▸ List.mem_cons_of_mem _ membership)
        · rw [Function.update_of_ne same] at membership
          exact threads thread' other membership
      have laterImages : ∀ thread',
          (Function.update own entry.1 rest thread').map (Prod.map id image) =
            part.filter fun entry => entry.1 = thread' := by
        intro thread'
        by_cases same : thread' = entry.1
        · subst same
          rw [Function.update_self, others]
        · rw [Function.update_of_ne same, images thread',
            List.filter_cons_of_neg (by simpa using Ne.symm same)]
      obtain ⟨items, merged, filters⟩ := inductionHypothesis laterThreads laterImages
      refine ⟨item :: items, by rw [List.map_cons, isImage, merged], ?_⟩
      intro thread'
      by_cases same : thread' = entry.1
      · subst same
        rw [List.filter_cons_of_pos (by simpa using thread), filters, Function.update_self,
          chosen]
      · rw [List.filter_cons_of_neg (by simpa [thread] using Ne.symm same), filters,
          Function.update_of_ne same]

theorem exists_map {part : List (Thread × Image)}
    (keeps : KeepsThreadOrder part (whole.map (Prod.map id image))) :
    ∃ items, KeepsThreadOrder items whole ∧ items.map (Prod.map id image) = part := by
  have chosen : ∀ thread, ∃ own : List (Thread × Item),
      own.Sublist (whole.filter fun entry => entry.1 = thread) ∧
        (part.filter fun entry => entry.1 = thread) = own.map (Prod.map id image) := by
    intro thread
    have selected := keeps thread
    rw [List.filter_map] at selected
    exact List.sublist_map_iff.mp selected
  choose own selected images using chosen
  have threads : ∀ thread, ∀ entry ∈ own thread, entry.1 = thread := by
    intro thread entry membership
    have inWhole := (selected thread).subset membership
    simpa using (List.mem_filter.mp inWhole).2
  obtain ⟨items, merged, filters⟩ := exists_merge threads fun thread => (images thread).symm
  refine ⟨items, ?_, merged⟩
  intro thread
  rw [filters thread]
  exact selected thread

end KeepsThreadOrder

end GdRpc.Library
