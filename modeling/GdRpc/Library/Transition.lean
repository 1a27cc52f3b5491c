import Mathlib.Logic.Relation
import Mathlib.Data.List.Basic

/-!
# Labelled transition systems

A run is recorded with the labels it took, oldest first, so that an invariant
may speak about the whole history and not only about the state reached.
Invariants and simulations are proved once per step and lifted to runs here.
-/

namespace GdRpc.Library

universe u v w

/-- A transition system: where it may start and what one step may do. -/
structure System (State : Type u) (Label : Type v) where
  initial : State → Prop
  step : State → Label → State → Prop

namespace System

variable {State : Type u} {Label : Type v}

/-- `system.Run start labels finish`: the steps `labels`, in this order, lead
from `start` to `finish`. -/
inductive Run (system : System State Label) (start : State) :
    List Label → State → Prop where
  | nil : Run system start [] start
  | snoc {labels middle label finish} :
      Run system start labels middle →
      system.step middle label finish →
      Run system start (labels ++ [label]) finish

/-- A run from one of the initial states. -/
def Execution (system : System State Label) (labels : List Label)
    (finish : State) : Prop :=
  ∃ start, system.initial start ∧ system.Run start labels finish

theorem Run.single (system : System State Label) (start : State) (label : Label)
    {finish : State} (step : system.step start label finish) :
    system.Run start [label] finish := by
  simpa using Run.snoc Run.nil step

theorem Run.extend {system : System State Label} {start middle finish : State}
    {labels : List Label} (run : system.Run start labels middle) (label : Label)
    (step : system.step middle label finish) :
    system.Run start (labels ++ [label]) finish :=
  run.snoc step

theorem Run.append {system : System State Label} {start middle finish : State}
    {first second : List Label} (left : system.Run start first middle)
    (right : system.Run middle second finish) :
    system.Run start (first ++ second) finish := by
  induction right with
  | nil => simpa using left
  | snoc _ step inductionHypothesis =>
      rw [← List.append_assoc]
      exact .snoc inductionHypothesis step

/-- Every label is allowed where a step function takes it. -/
def Allowed (guard : State → Label → Prop) (next : State → Label → State) :
    State → List Label → Prop
  | _, [] => True
  | state, label :: labels =>
      guard state label ∧ Allowed guard next (next state label) labels

instance decidableAllowed (guard : State → Label → Prop)
    (next : State → Label → State) [∀ state label, Decidable (guard state label)] :
    ∀ state labels, Decidable (Allowed guard next state labels)
  | _, [] => isTrue trivial
  | state, label :: labels =>
      have := decidableAllowed guard next (next state label) labels
      inferInstanceAs (Decidable (guard state label ∧ _))

theorem allowed_append (guard : State → Label → Prop) (next : State → Label → State)
    (state : State) (labels : List Label) (label : Label) :
    Allowed guard next state (labels ++ [label]) ↔
      Allowed guard next state labels ∧ guard (labels.foldl next state) label := by
  induction labels generalizing state with
  | nil => simp [Allowed]
  | cons first labels inductionHypothesis =>
      simp only [List.cons_append, Allowed, List.foldl_cons, inductionHypothesis, and_assoc]

theorem Allowed.of_prefix {guard : State → Label → Prop} {next : State → Label → State}
    {state : State} {past labels : List Label} {label : Label}
    (allowed : Allowed guard next state labels) (isPrefix : past ++ [label] <+: labels) :
    Allowed guard next state past ∧ guard (past.foldl next state) label := by
  obtain ⟨rest, rfl⟩ := isPrefix
  induction past generalizing state with
  | nil => exact ⟨trivial, allowed.1⟩
  | cons first past inductionHypothesis =>
      obtain ⟨now, later⟩ := allowed
      obtain ⟨before, permitted⟩ := inductionHypothesis later
      exact ⟨⟨now, before⟩, permitted⟩

/-- Where each step on the way leads from a good state to a good state exactly
if its guard allows it, the states are all good exactly if every label is
allowed. -/
theorem forall_prefix_iff_allowed (Good : State → Prop) (guard : State → Label → Prop)
    (next : State → Label → State) (state : State) (labels : List Label) (start : Good state)
    (step : ∀ past label, past ++ [label] <+: labels → Good (past.foldl next state) →
      (Good (next (past.foldl next state) label) ↔ guard (past.foldl next state) label)) :
    (∀ past, past <+: labels → Good (past.foldl next state)) ↔
      Allowed guard next state labels := by
  induction labels generalizing state with
  | nil =>
      apply iff_of_true _ trivial
      intro past isPrefix
      rw [List.prefix_nil.mp isPrefix]
      exact start
  | cons label labels inductionHypothesis =>
      have later : Good (next state label) →
          ((∀ past, past <+: labels → Good (past.foldl next (next state label))) ↔
            Allowed guard next (next state label) labels) := by
        intro first
        apply inductionHypothesis (next state label) first
        intro past following isPrefix
        exact step (label :: past) following (List.cons_prefix_cons.mpr ⟨rfl, isPrefix⟩)
      have head := step [] label ⟨labels, rfl⟩ start
      constructor
      · intro good
        have first : Good (next state label) := good [label] ⟨labels, rfl⟩
        apply And.intro (head.mp first)
        apply (later first).mp
        intro past isPrefix
        exact good (label :: past) (List.cons_prefix_cons.mpr ⟨rfl, isPrefix⟩)
      · rintro ⟨permitted, rest⟩ past isPrefix
        rcases List.prefix_cons_iff.mp isPrefix with rfl | ⟨tail, rfl, tailPrefix⟩
        · exact start
        · exact (later (head.mpr permitted)).mpr rest tail tailPrefix

theorem Run.eq_foldl {system : System State Label} {start finish : State}
    {labels : List Label} (run : system.Run start labels finish)
    (next : State → Label → State)
    (step : ∀ state label after, system.step state label after → after = next state label) :
    finish = labels.foldl next start := by
  induction run with
  | nil => rfl
  | snoc _ taken inductionHypothesis =>
      rw [step _ _ _ taken, inductionHypothesis, List.foldl_append]
      rfl

theorem Run.foldl (system : System State Label) (guard : State → Label → Prop)
    {next : State → Label → State}
    (step : ∀ state label, guard state label →
      system.step state label (next state label))
    {start : State} {labels : List Label} (allowed : Allowed guard next start labels) :
    system.Run start labels (labels.foldl next start) := by
  induction labels generalizing start with
  | nil => exact .nil
  | cons label labels inductionHypothesis =>
      obtain ⟨now, later⟩ := allowed
      have first := Run.single system start label (step start label now)
      exact first.append (inductionHypothesis later)

theorem Execution.foldl (system : System State Label) (guard : State → Label → Prop)
    {next : State → Label → State}
    (step : ∀ state label, guard state label →
      system.step state label (next state label))
    {start : State} (initial : system.initial start) {labels : List Label}
    (allowed : Allowed guard next start labels) :
    system.Execution labels (labels.foldl next start) :=
  ⟨start, initial, Run.foldl system guard step allowed⟩

theorem Run.foldl_getD (system : System State Label) (guard : State → Label → Prop)
    {next : State → Label → Option State}
    (step : ∀ state label after, guard state label → next state label = some after →
      system.step state label after)
    {start : State} {labels : List Label}
    (allowed : Allowed (fun state label => guard state label ∧ (next state label).isSome)
      (fun state label => (next state label).getD state) start labels) :
    system.Run start labels
      (labels.foldl (fun state label => (next state label).getD state) start) := by
  refine Run.foldl system _ ?_ allowed
  rintro state label ⟨permitted, defined⟩
  obtain ⟨after, taken⟩ := Option.isSome_iff_exists.mp defined
  rw [taken]
  exact step state label after permitted taken

theorem Execution.foldl_getD (system : System State Label) (guard : State → Label → Prop)
    {next : State → Label → Option State}
    (step : ∀ state label after, guard state label → next state label = some after →
      system.step state label after)
    {start : State} (initial : system.initial start) {labels : List Label}
    (allowed : Allowed (fun state label => guard state label ∧ (next state label).isSome)
      (fun state label => (next state label).getD state) start labels) :
    system.Execution labels
      (labels.foldl (fun state label => (next state label).getD state) start) :=
  ⟨start, initial, Run.foldl_getD system guard step allowed⟩

/-- The history rule: an invariant of the labels taken and the state reached
holds after every run when each step keeps it. -/
theorem Run.history {system : System State Label} {start finish : State}
    {labels : List Label} (run : system.Run start labels finish)
    (Invariant : List Label → State → Prop)
    (base : Invariant [] start)
    (preserved : ∀ past middle label next, Invariant past middle →
      system.step middle label next → Invariant (past ++ [label]) next) :
    Invariant labels finish := by
  induction run with
  | nil => exact base
  | snoc _ step inductionHypothesis =>
      exact preserved _ _ _ _ inductionHypothesis step

/-- The invariant rule. -/
theorem Run.invariant {system : System State Label} {start finish : State}
    {labels : List Label} (run : system.Run start labels finish)
    (Invariant : State → Prop) (base : Invariant start)
    (preserved : ∀ state label next, Invariant state →
      system.step state label next → Invariant next) :
    Invariant finish :=
  run.history (fun _ state => Invariant state) base
    fun _ => preserved

theorem Execution.history {system : System State Label} {finish : State}
    {labels : List Label} (execution : system.Execution labels finish)
    (Invariant : List Label → State → Prop)
    (base : ∀ start, system.initial start → Invariant [] start)
    (preserved : ∀ past middle label next, Invariant past middle →
      system.step middle label next → Invariant (past ++ [label]) next) :
    Invariant labels finish := by
  obtain ⟨start, isInitial, run⟩ := execution
  exact run.history Invariant (base start isInitial) preserved

theorem Execution.invariant {system : System State Label} {finish : State}
    {labels : List Label} (execution : system.Execution labels finish)
    (Invariant : State → Prop)
    (base : ∀ start, system.initial start → Invariant start)
    (preserved : ∀ state label next, Invariant state →
      system.step state label next → Invariant next) :
    Invariant finish := by
  obtain ⟨start, isInitial, run⟩ := execution
  exact run.invariant Invariant (base start isInitial) preserved

end System

/-- A forward simulation: every concrete step is the abstract step of the
same label, up to the relation between their states. -/
structure Simulation {State : Type u} {Abstract : Type v} {Label : Type w}
    (concrete : System State Label) (abstract : System Abstract Label) where
  Related : State → Abstract → Prop
  initial : ∀ state, concrete.initial state →
    ∃ model, abstract.initial model ∧ Related state model
  step : ∀ state model label next, Related state model →
    concrete.step state label next →
    ∃ after, abstract.step model label after ∧ Related next after

namespace Simulation

variable {State : Type u} {Abstract : Type v} {Label : Type w}
  {concrete : System State Label} {abstract : System Abstract Label}

theorem run (simulation : Simulation concrete abstract) {start finish : State}
    {labels : List Label} {model : Abstract}
    (taken : concrete.Run start labels finish)
    (related : simulation.Related start model) :
    ∃ after, abstract.Run model labels after ∧
      simulation.Related finish after := by
  induction taken with
  | nil => exact ⟨model, .nil, related⟩
  | snoc _ step inductionHypothesis =>
      obtain ⟨middle, reached, relatedMiddle⟩ := inductionHypothesis
      obtain ⟨after, abstractStep, relatedAfter⟩ :=
        simulation.step _ _ _ _ relatedMiddle step
      exact ⟨after, .snoc reached abstractStep, relatedAfter⟩

/-- Every execution of the concrete system is one of the abstract system. -/
theorem execution (simulation : Simulation concrete abstract) {finish : State}
    {labels : List Label} (taken : concrete.Execution labels finish) :
    ∃ after, abstract.Execution labels after ∧
      simulation.Related finish after := by
  obtain ⟨start, isInitial, run⟩ := taken
  obtain ⟨model, modelInitial, related⟩ := simulation.initial start isInitial
  obtain ⟨after, reached, relatedAfter⟩ := simulation.run run related
  exact ⟨after, ⟨model, modelInitial, reached⟩, relatedAfter⟩

end Simulation

/-- A simulation with stuttering, observed through `observe` on either side:
a concrete step is matched by an abstract step with the same observation, or
by none at all if nothing is observed. -/
structure StutteringSimulation {State Abstract Label Action : Type*}
    {Observation : Type w}
    (concrete : System State Label) (observe : Label → Option Observation)
    (abstract : System Abstract Action)
    (observeAction : Action → Option Observation) where
  Related : State → Abstract → Prop
  initial : ∀ state, concrete.initial state →
    ∃ model, abstract.initial model ∧ Related state model
  step : ∀ state model label next, Related state model →
    concrete.step state label next →
    (observe label = none ∧ Related next model) ∨
    ∃ action after, observeAction action = observe label ∧
      abstract.step model action after ∧ Related next after

theorem StutteringSimulation.execution {State Abstract Label Action : Type*}
    {Observation : Type w} {concrete : System State Label}
    {observe : Label → Option Observation} {abstract : System Abstract Action}
    {observeAction : Action → Option Observation}
    (simulation : StutteringSimulation concrete observe abstract observeAction)
    {finish : State} {labels : List Label}
    (taken : concrete.Execution labels finish) :
    ∃ actions after, abstract.Execution actions after ∧
      actions.filterMap observeAction = labels.filterMap observe ∧
      simulation.Related finish after := by
  refine taken.history (fun past reached =>
    ∃ actions after, abstract.Execution actions after ∧
      actions.filterMap observeAction = past.filterMap observe ∧
      simulation.Related reached after) ?_ ?_
  · intro start isInitial
    obtain ⟨model, modelInitial, related⟩ := simulation.initial start isInitial
    exact ⟨[], model, ⟨model, modelInitial, .nil⟩, rfl, related⟩
  · rintro past middle label next ⟨actions, model, ⟨start, isInitial, run⟩,
      same, related⟩ step
    rcases simulation.step _ _ _ _ related step with
      ⟨silent, relatedNext⟩ | ⟨action, after, observed, abstractStep, relatedNext⟩
    · refine ⟨actions, model, ⟨start, isInitial, run⟩, ?_, relatedNext⟩
      simp [same, silent]
    · refine ⟨actions ++ [action], after,
        ⟨start, isInitial, run.snoc abstractStep⟩, ?_, relatedNext⟩
      simp [same, observed, List.filterMap_cons]

end GdRpc.Library
