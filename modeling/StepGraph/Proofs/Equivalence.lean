import StepGraph.Proofs.Running.Mirror

/-!
# Equivalence of graphs

A run tries the definitions of templates before all other steps, and passes comments over. So two
graphs are equivalent when their definitions match in declared order, and so do their other steps
apart from comments; inline bodies need only be equivalent in turn. Where in its list a definition
stands does not matter, nor does a comment, except for the search for the step that a text refers to,
which goes through the list as it was declared. In valid graphs at most one step answers to a text,
and there the search finds steps that match.
-/
namespace StepGraph

variable {σ : Type}

/-- Graphs whose definitions of templates match in declared order, and whose other steps that do
something match in declared order, where inline bodies need only be equivalent. -/
inductive Graph.Equivalent : Graph → Graph → Prop where
  /-- The definitions match, and the other steps do. -/
  | intro {left right : Graph}
    (definitions : List.Forall₂ (Step.Matches Equivalent) (left.filter Step.definesTemplate)
      (right.filter Step.definesTemplate))
    (others : List.Forall₂ (Step.Matches Equivalent) (left.filter Step.publishes)
      (right.filter Step.publishes)) : Equivalent left right

namespace Equivalence

/-- Equivalent graphs that are both valid. -/
def Admitted (left right : Graph) : Prop :=
  left.IsValid ∧ right.IsValid ∧ left.Equivalent right

/-- Steps of admitted graphs that match. -/
def Partners (step step' : Step) : Prop :=
  step.isComment = false ∧ step.Matches Admitted step'

variable {left right : Graph}

/-- The steps of admitted graphs are partners in the order in which they are tried. -/
theorem Admitted.partners (admitted : Admitted left right) :
    List.Forall₂ Partners (Graph.acting (Graph.hoisted left))
      (Graph.acting (Graph.hoisted right)) := by
  obtain ⟨valid, valid', ⟨definitions, others⟩⟩ := admitted
  have matching : List.Forall₂ (Step.Matches Graph.Equivalent)
      (Graph.acting (Graph.hoisted left)) (Graph.acting (Graph.hoisted right)) := by
    rw [Graph.acting_hoisted, Graph.acting_hoisted]
    exact List.rel_append definitions others
  refine forall₂_of_mem matching fun step member step' member' matches' => ?_
  obtain ⟨there, acts⟩ := Graph.mem_acting.mp member
  obtain ⟨there', -⟩ := Graph.mem_acting.mp member'
  refine ⟨acts, matches'.imp fun header invocation steps steps' same same' equivalent => ?_⟩
  exact ⟨valid.body (same ▸ Graph.mem_hoisted.mp there),
    valid'.body (same' ▸ Graph.mem_hoisted.mp there'), equivalent⟩

/-- A text refers to partners in admitted graphs. -/
theorem Admitted.findStep? (admitted : Admitted left right) (text : String) :
    Option.Rel Partners (Graph.findStep? left text) (Graph.findStep? right text) := by
  have partners := admitted.partners
  have among (graph : Graph) (step : Step) :
      step ∈ Graph.acting (Graph.hoisted graph) ↔ step ∈ graph ∧ step.isComment = false := by
    rw [Graph.mem_acting, Graph.mem_hoisted]
  refine admitted.1.findStep?_rel admitted.2.1 (fun both => both.2.keys) ?_ ?_ text
  · intro step member acts
    obtain ⟨step', member', both⟩ :=
      exists_of_forall₂ partners ((among left step).mpr ⟨member, acts⟩)
    obtain ⟨there', acts'⟩ := (among right step').mp member'
    exact ⟨step', there', acts', both⟩
  · intro step' member' acts'
    obtain ⟨step, member, both⟩ :=
      exists_of_forall₂ partners.flip ((among right step').mpr ⟨member', acts'⟩)
    obtain ⟨there, acts⟩ := (among left step).mp member
    exact ⟨step, there, acts, both⟩

/-- Admitted graphs and steps of theirs that match may take each other's place. -/
def pairing : Pairing where
  graphs := Admitted
  steps := fun _ => Partners
  met := fun _ => True
  acts := fun partners => partners.1
  matching := fun {_ step _} partners =>
    ⟨step.isHidden, step.withHidden_isHidden_self.symm ▸ partners.2⟩
  hoisted := Admitted.partners
  lookups := fun _ _ => trivial
  head := fun _ => trivial
  rest := fun _ _ => trivial

/-- Runs of admitted graphs mirror each other with everything else the same. -/
def mirror (settings : Settings σ) : Mirror settings settings pairing where
  stands := Admitted
  outputs := fun _ => Eq
  hosts := Eq
  logs := Eq
  settings := .refl settings
  warns := fun _ => congrArg _
  traces := fun _ _ => congrArg _
  reports := by
    rintro graph step step' log _ value partners rfl
    rw [partners.2.isHidden]
  stand := id
  finds := fun text admitted => admitted.findStep? text
  starts := fun _ => rfl
  publishes := by
    rintro context context' step step' value partners outputs
    simp only [Context.publish, partners.2.isHidden, outputs]
  hands := fun _ outputs => outputs

/-- Runs of two valid graphs that are equivalent have the same output or the same failure, with the
same events, and leave the functions in the same state. -/
theorem graph_agrees_of_equivalent (valid : left.IsValid) (valid' : right.IsValid)
    (equivalent : left.Equivalent right) (settings : Settings σ) (inputs : Value)
    (state : State σ) :
    Outcome.Agrees False
      (fun first second => first.events = second.events ∧ first.host = second.host)
      (fun _ first second => first.events = second.events ∧ first.host = second.host)
      (Run.graph settings left inputs state) (Run.graph settings right inputs state) := by
  have agree := (mirror settings).graph_agrees ⟨valid, valid', equivalent⟩ inputs
    (show (mirror settings).Surroundings state state from ⟨rfl, rfl⟩)
  have same {first second : State σ} (surroundings : (mirror settings).Surroundings first second) :
      first.events = second.events ∧ first.host = second.host :=
    ⟨congrArg List.reverse surroundings.2, surroundings.1⟩
  exact agree.mono (fun _ _ _ => same) fun _ _ => same

/-- A template, called because a path refers to it, and a remark, at the top and in the body. -/
def remarked : Graph :=
  [.graph ⟨"work", false, none⟩ {}
      (.inline [.action ⟨"note", false, none⟩ .comment,
        .action ⟨"v", false, none⟩ (.static (.bool true))]),
    .action ⟨"x", false, none⟩ (.alias "work.v"), .action ⟨"x", false, none⟩ .comment]

/-- The template defined last, without a remark. -/
def unremarked : Graph :=
  [.action ⟨"x", false, none⟩ (.alias "work.v"),
    .graph ⟨"work", false, none⟩ {}
      (.inline [.action ⟨"v", false, none⟩ (.static (.bool true))])]

/-- The two graphs are run alike. -/
theorem remarked_agrees :
    remarked.IsValid ∧ unremarked.IsValid ∧ remarked.Equivalent unremarked ∧
      ∀ inputs, Outcome.Agrees False
        (fun first second => first.events = second.events ∧ first.host = second.host)
        (fun _ first second => first.events = second.events ∧ first.host = second.host)
        (Run.graph ⟨Registry.empty, {}⟩ remarked inputs (State.start ()))
        (Run.graph ⟨Registry.empty, {}⟩ unremarked inputs (State.start ())) := by
  have valid : remarked.IsValid := by decide
  have valid' : unremarked.IsValid := by decide
  have bodies : Graph.Equivalent
      [.action ⟨"note", false, none⟩ .comment, .action ⟨"v", false, none⟩ (.static (.bool true))]
      [.action ⟨"v", false, none⟩ (.static (.bool true))] :=
    .intro .nil (.cons (.action _ _) .nil)
  have equivalent : remarked.Equivalent unremarked :=
    .intro (.cons (.graph _ _ (.inline bodies)) .nil) (.cons (.action _ _) .nil)
  exact ⟨valid, valid', equivalent, fun inputs =>
    graph_agrees_of_equivalent valid valid' equivalent ⟨Registry.empty, {}⟩ inputs (State.start ())⟩

end Equivalence

end StepGraph
