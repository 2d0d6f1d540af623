import Mathlib.Data.List.Perm.Basic
import StepGraph.Proofs.Distinctness
import StepGraph.Proofs.Graph.Chain
import StepGraph.Proofs.Graph.Matching

/-!
# Reordered graphs

The same steps may be declared in another order, in a graph and in those inside it. Sites are made
up of names, and a text refers to matching steps in every order as long as the graph is valid. So
the bodies that can be inside each other, and that there are no templates, do not depend on the
order.
-/
namespace StepGraph

/-- Graphs with the same steps in another order, in themselves and in the bodies inside. -/
inductive Graph.Reordered : Graph → Graph → Prop where
  /-- The steps of the first are brought into another order, with their bodies reordered. -/
  | intro {left middle right : Graph}
    (matching : List.Forall₂ (Step.Matches Reordered) left middle) (permutes : middle.Perm right) :
    Reordered left right

namespace Step.Matches

variable {graphs : Graph → Graph → Prop} {step step' : Step}

/-- Steps that match have the same paths. -/
theorem paths (matching : step.Matches graphs step') : step'.paths = step.paths := by
  cases matching <;> rfl

/-- The bodies of steps that match may both read from their contexts, or neither may. -/
theorem isNamespaced (matching : step.Matches graphs step') :
    step'.isNamespaced = step.isNamespaced := by
  rw [Step.isNamespaced, Step.isNamespaced, matching.mode?]

/-- Steps that match both need no template, or neither does without. -/
theorem isSelfContained (matching : step.Matches graphs step') :
    step'.isSelfContained = step.isSelfContained := by
  cases matching with
  | action header work => rfl
  | graph header invocation bodies =>
    simp only [Step.isSelfContained, Invocation.definesTemplate, bodies.isInline]

end Step.Matches

namespace Graph

/-- Steps that match some that are apart are apart. -/
theorem pairwise_apart_of_matches {graphs : Graph → Graph → Prop} {left right : Graph}
    (matching : List.Forall₂ (Step.Matches graphs) left right) (apart : left.Pairwise Apart) :
    right.Pairwise Apart := by
  induction matching with
  | nil => exact .nil
  | @cons step step' rest rest' both others ih =>
    obtain ⟨first, later⟩ := List.pairwise_cons.mp apart
    refine List.pairwise_cons.mpr ⟨fun other' member' acts acts' => ?_, ih later⟩
    obtain ⟨other, member, same⟩ := exists_of_forall₂ others.flip member'
    rw [both.keys, same.keys]
    exact first other member (both.isComment.symm.trans acts) (same.isComment.symm.trans acts')

namespace Reordered

variable {left right : Graph} (reordered : left.Reordered right)

/-- The steps of a graph may be brought into another order by themselves. -/
theorem of_perm {left right : Graph} (permutes : left.Perm right) : left.Reordered right := by
  refine .intro (List.forall₂_same.mpr fun step member => ?_) permutes
  refine .refl fun header invocation steps same => ?_
  subst same
  have smaller := Step.size_le_sizeOfAll member
  rw [Step.size] at smaller
  exact of_perm (.refl steps)
termination_by Step.sizeOfAll left

include reordered

/-- Each step of a graph has a partner once it is reordered. -/
theorem exists_right {step : Step} (member : step ∈ left) :
    ∃ step' ∈ right, step.Matches Reordered step' := by
  obtain ⟨matching, permutes⟩ := reordered
  obtain ⟨step', there, both⟩ := exists_of_forall₂ matching member
  exact ⟨step', permutes.mem_iff.mp there, both⟩

/-- Each step of a reordered graph had a partner before. -/
theorem exists_left {step' : Step} (member : step' ∈ right) :
    ∃ step ∈ left, step.Matches Reordered step' := by
  obtain ⟨matching, permutes⟩ := reordered
  obtain ⟨step, there, both⟩ := exists_of_forall₂ matching.flip (permutes.mem_iff.mpr member)
  exact ⟨step, there, both⟩

/-- Whatever a reordered graph holds at a site, it held there before, in another order. -/
theorem exists_holds {site : Site} {inner : Graph} (held : right.Holds site inner) :
    ∃ before, left.Holds site before ∧ before.Reordered inner := by
  induction held with
  | self => exact ⟨left, .self, reordered⟩
  | body around member ih =>
    obtain ⟨before, there, same⟩ := ih
    obtain ⟨step, step_mem, both⟩ := same.exists_left member
    cases both with
    | graph header invocation bodies =>
      cases bodies with
      | inline inner => exact ⟨_, there.body step_mem, inner⟩

/-- Whatever is inside a reordered graph was there before, in another order. -/
theorem exists_includes {inner : Graph} (inside : right.Includes inner) :
    ∃ before, left.Includes before ∧ before.Reordered inner := by
  obtain ⟨site, held⟩ := inside.exists_holds
  obtain ⟨before, there, same⟩ := reordered.exists_holds held
  exact ⟨before, there.includes, same⟩

/-- A reordered graph needs no template if it needed none before. -/
theorem isSelfContained (contained : left.IsSelfContained) : right.IsSelfContained := by
  intro inner inside step' member'
  obtain ⟨before, there, same⟩ := reordered.exists_includes inside
  obtain ⟨step, member, both⟩ := same.exists_left member'
  exact both.isSelfContained.trans (contained before there step member)

/-- A valid graph is still valid in another order. -/
theorem isValid (valid : left.IsValid) : right.IsValid := by
  rw [isValid_iff_apart] at valid ⊢
  intro inner inside
  obtain ⟨before, there, ⟨matching, permutes⟩⟩ := reordered.exists_includes inside
  have symmetric {one other : Step} (apart : Apart one other) : Apart other one :=
    fun acts acts' key key_mem key_mem' => apart acts' acts key key_mem' key_mem
  have apart := pairwise_apart_of_matches matching (valid before there)
  exact (permutes.pairwise_iff symmetric).mp apart

section Chains

variable (valid : left.IsValid)

include valid

/-- A text refers to matching steps in a valid graph and in another order of it. -/
theorem findStep?_rel (text : String) :
    Option.Rel (Step.Matches Reordered) (Graph.findStep? left text)
      (Graph.findStep? right text) := by
  refine valid.findStep?_rel (reordered.isValid valid) Step.Matches.keys ?_ ?_ text
  · intro step member acts
    obtain ⟨step', there, both⟩ := reordered.exists_right member
    exact ⟨step', there, both.isComment.trans acts, both⟩
  · intro step' member acts
    obtain ⟨step, there, both⟩ := reordered.exists_left member
    exact ⟨step, there, both.isComment.symm.trans acts, both⟩

/-- The step that a text refers to in another order has a partner that the text referred to
before. -/
theorem exists_findStep? {text : String} {step' : Step}
    (found' : Graph.findStep? right text = some step') :
    ∃ step, Graph.findStep? left text = some step ∧ step.Matches Reordered step' := by
  have related := reordered.findStep?_rel valid text
  rw [found'] at related
  cases found : Graph.findStep? left text with
  | none =>
    rw [found] at related
    cases related
  | some step =>
    rw [found] at related
    cases related with
    | some both => exact ⟨step, rfl, both⟩

omit valid in
/-- A step that has begun has begun in every order. -/
theorem hasBegun {chain : List Site} {site : Site} {step step' : Step}
    (both : step.Matches Reordered step') (begun : left.HasBegun chain site step) :
    right.HasBegun chain site step' := by
  rcases begun with waits | ⟨waiting, member, waits, path, path_mem, other, key⟩
  · left
    rwa [both.name]
  · right
    obtain ⟨waiting', there, same⟩ := reordered.exists_right member
    rw [← same.name] at waits
    rw [← same.paths] at path_mem
    rw [← both.keys] at key
    exact ⟨waiting', there, waits, path, path_mem, other, key⟩

/-- A step of a valid graph gives its body the same inputs in every order of the body. -/
theorem gives (header : Header) (invocation : Invocation) (path : String) :
    Step.gives (.graph header invocation (.inline left)) path =
      Step.gives (.graph header invocation (.inline right)) path := by
  have related := reordered.findStep?_rel valid inputsKey
  have same : (Graph.findStep? left inputsKey).isNone =
      (Graph.findStep? right inputsKey).isNone := by
    generalize Graph.findStep? left inputsKey = found at related ⊢
    generalize Graph.findStep? right inputsKey = found' at related ⊢
    cases related <;> rfl
  simp only [Step.gives, same]

/-- What a path demands in another order of a valid graph it demanded before. -/
theorem demands {chain : List Site} {site target : Site} {path : String}
    (demands : right.Demands chain site path target) : left.Demands chain site path target := by
  induction demands with
  | body held found fresh =>
    obtain ⟨before, there, same⟩ := reordered.exists_holds held
    have inner := valid.of_includes there.includes
    obtain ⟨step, found', both⟩ := same.exists_findStep? inner found
    have fresh' := mt (same.hasBegun both) fresh
    cases both with
    | graph header invocation bodies =>
      cases bodies with
      | inline _ => exact .body there found' fresh'
  | through held found fresh member _ ih =>
    obtain ⟨before, there, same⟩ := reordered.exists_holds held
    have inner := valid.of_includes there.includes
    obtain ⟨step, found', both⟩ := same.exists_findStep? inner found
    rw [both.paths] at member
    exact .through there found' (mt (same.hasBegun both) fresh) member ih
  | caller held member namespaced missing inside _ ih =>
    obtain ⟨before, there, same⟩ := reordered.exists_holds held
    obtain ⟨step, step_mem, both⟩ := same.exists_left member
    have still := both.isNamespaced
    cases both with
    | graph header invocation bodies =>
      cases bodies with
      | inline bodies =>
        have body := (valid.of_includes there.includes).body step_mem
        rw [← bodies.gives body] at missing
        exact .caller there step_mem (still.symm.trans namespaced) missing inside ih

/-- The chains of a valid graph are the same in every order. -/
theorem chain {chain : List Site} (chained : right.Chain chain) : left.Chain chain := by
  induction chained with
  | self => exact .self
  | own _ last held member fresh ih =>
    obtain ⟨before, there, same⟩ := reordered.exists_holds held
    obtain ⟨step, step_mem, both⟩ := same.exists_left member
    cases both with
    | graph header invocation bodies =>
      cases bodies with
      | inline _ => exact .own ih last there step_mem fresh
  | demanded _ last held member path_mem demands ih =>
    obtain ⟨before, there, same⟩ := reordered.exists_holds held
    obtain ⟨step, step_mem, both⟩ := same.exists_left member
    rw [both.paths] at path_mem
    exact .demanded ih last there step_mem path_mem (reordered.demands valid demands)

end Chains

end Reordered

end Graph

end StepGraph
