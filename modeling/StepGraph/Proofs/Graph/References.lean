import Mathlib.Order.WellFoundedSet
import StepGraph.Proofs.Graph.Nesting

/-!
# References between steps

A step refers to another one when some path of it starts from the name of that step. Where no step
refers to itself through others, one may argue by induction along the references. What a text
refers to does not depend on the order of the steps.
-/
namespace StepGraph

/-- Some path of the step starts from the name of the other one. -/
def Step.RefersTo (step other : Step) : Prop :=
  ∃ path ∈ step.paths, Path.head path = other.name

instance (step other : Step) : Decidable (step.RefersTo other) :=
  inferInstanceAs (Decidable (∃ path ∈ step.paths, Path.head path = other.name))

namespace Graph

/-- The second of two steps of a graph refers to the first. -/
def Refers (graph : Graph) (other step : Step) : Prop :=
  other ∈ graph ∧ step ∈ graph ∧ step.RefersTo other

instance (graph : Graph) (other step : Step) : Decidable (graph.Refers other step) :=
  inferInstanceAs (Decidable (_ ∧ _ ∧ _))

/-- No step refers to itself, not even through others. -/
def IsAcyclic (graph : Graph) : Prop := ∀ step, ¬Relation.TransGen graph.Refers step step

/-- Without cycles the references of a graph are well-founded. -/
theorem IsAcyclic.wellFounded {graph : Graph} (acyclic : graph.IsAcyclic) :
    WellFounded graph.Refers := by
  have order : IsStrictOrder Step (Relation.TransGen graph.Refers) :=
    { irrefl := acyclic, trans := fun _ _ _ => Relation.TransGen.trans }
  have inside : {step | step ∈ graph}.WellFoundedOn (Relation.TransGen graph.Refers) :=
    (List.finite_toSet graph).wellFoundedOn
  refine Subrelation.wf (fun {other step} refers => ?_) (Set.wellFoundedOn_iff.mp inside)
  exact ⟨.single refers, refers.1, refers.2.1⟩

/-- Steps that can be ranked along their references have no cycle. -/
theorem isAcyclic_of_rank {graph : Graph} (rank : Step → Nat)
    (falls : ∀ step ∈ graph, ∀ other ∈ graph, step.RefersTo other → rank other < rank step) :
    graph.IsAcyclic := by
  have descends {other step : Step} (refers : Relation.TransGen graph.Refers other step) :
      rank other < rank step := by
    induction refers with
    | single refers => exact falls _ refers.2.1 _ refers.1 refers.2.2
    | tail _ refers ih => exact Nat.lt_trans ih (falls _ refers.2.1 _ refers.1 refers.2.2)
  exact fun step cycle => Nat.lt_irrefl _ (descends cycle)

/-- A graph whose steps are run for their own results alone: they define no templates, run no bodies
that read from where they are run, and refer to each other by name without cycles. -/
structure IsOrderless (graph : Graph) : Prop where
  /-- Steps that do something have names of their own. -/
  apart : ∀ step ∈ graph, ∀ other ∈ graph, step.isComment = false → other.isComment = false →
    step.name = other.name → step = other
  /-- No step defines a template, not even inside of bodies. -/
  defines : graph.Everywhere fun step => step.definesTemplate = false
  /-- No body may read from the context of its step. -/
  detached : ∀ step ∈ graph, step.isNamespaced = false
  /-- No step takes the place of the inputs. -/
  clear : ∀ step ∈ graph, step.name ≠ inputsKey
  /-- References do not lead back. -/
  acyclic : graph.IsAcyclic

/-- Graphs of the same steps have the same references. -/
theorem refers_of_mem_iff {graph other : Graph} (same : ∀ step, step ∈ other ↔ step ∈ graph) :
    other.Refers = graph.Refers := by
  funext target step
  rw [Refers, Refers, same target, same step]

namespace IsOrderless

variable {graph : Graph} {step : Step}

/-- Without bodies that read from their surroundings, a step publishes under its name. -/
theorem publishKey (orderless : graph.IsOrderless) (member : step ∈ graph) :
    step.publishKey = step.name := by
  have detached := orderless.detached step member
  unfold Step.publishKey
  split
  · rename_i key mode
    rw [Step.isNamespaced, mode] at detached
    cases detached
  · rfl

/-- A text refers to the step of that name. -/
theorem findStep?_eq_some_iff (orderless : graph.IsOrderless) {name : String} :
    findStep? graph name = some step ↔
      step ∈ graph ∧ step.isComment = false ∧ step.name = name := by
  constructor
  · intro found
    obtain ⟨member, acts, answers⟩ := Graph.findStep?_eq_some found
    rw [Step.keys, orderless.publishKey member] at answers
    simp only [List.mem_cons, List.not_mem_nil, or_false, or_self] at answers
    exact ⟨member, acts, answers.symm⟩
  · rintro ⟨member, acts, rfl⟩
    have answers : step.answersTo step.name = true := by
      simp only [Step.answersTo, acts, Bool.not_false, beq_self_eq_true, Bool.true_or,
        Bool.and_self]
    cases found : findStep? graph step.name with
    | none => exact absurd answers (List.find?_eq_none.mp found step member)
    | some other =>
      obtain ⟨other_member, other_acts, keys⟩ := Graph.findStep?_eq_some found
      rw [Step.keys, orderless.publishKey other_member] at keys
      simp only [List.mem_cons, List.not_mem_nil, or_false, or_self] at keys
      rw [orderless.apart step member other other_member acts other_acts keys]

/-- Graphs of the same steps are orderless together. -/
theorem of_mem_iff (orderless : graph.IsOrderless) {other : Graph}
    (same : ∀ step, step ∈ other ↔ step ∈ graph) : other.IsOrderless where
  apart := fun left left_mem right right_mem =>
    orderless.apart left ((same left).mp left_mem) right ((same right).mp right_mem)
  defines := by
    intro inner inside
    have either : inner = other ∨ graph.Includes inner := by
      induction inside with
      | self => exact .inl rfl
      | body around member ih =>
        rcases ih with rfl | deeper
        · exact .inr (.body .self ((same _).mp member))
        · exact .inr (.body deeper member)
    rcases either with rfl | deeper
    · exact fun step member => orderless.defines graph .self step ((same step).mp member)
    · exact orderless.defines inner deeper
  detached := fun step member => orderless.detached step ((same step).mp member)
  clear := fun step member => orderless.clear step ((same step).mp member)
  acyclic := by
    intro step
    rw [refers_of_mem_iff same]
    exact orderless.acyclic step

/-- A text refers to the same step in graphs of the same steps. -/
theorem findStep?_of_mem_iff (orderless : graph.IsOrderless) {other : Graph}
    (same : ∀ step, step ∈ other ↔ step ∈ graph) : findStep? other = findStep? graph := by
  funext name
  refine Option.ext fun step => ?_
  rw [orderless.findStep?_eq_some_iff, (orderless.of_mem_iff same).findStep?_eq_some_iff,
    same step]

end IsOrderless

/-- A valid graph is orderless when its steps are run for their own results alone. -/
theorem IsValid.isOrderless {graph : Graph} (valid : graph.IsValid)
    (defines : graph.Everywhere fun step => step.definesTemplate = false)
    (detached : ∀ step ∈ graph, step.isNamespaced = false)
    (clear : ∀ step ∈ graph, step.name ≠ inputsKey) (acyclic : graph.IsAcyclic) :
    graph.IsOrderless where
  apart := fun _ member _ other_member acts other_acts names =>
    valid.eq_of_key member other_member acts other_acts (Step.name_mem_keys _)
      (names ▸ Step.name_mem_keys _)
  defines := defines
  detached := detached
  clear := clear
  acyclic := acyclic

end Graph

end StepGraph
