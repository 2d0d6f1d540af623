import Mathlib.Data.List.Forall2
import StepGraph.Proofs.Graph.Nesting

/-!
# Matching steps

Steps match when they are equal except for their inline bodies, which need only be related. They
answer to the same texts, look up the same texts, publish under the same key and run their bodies in
the same way, whatever relates the bodies. The same holds of a step that is shown and of the same
step hidden.

A pairing says which graphs may be activated, and which of their steps run, in the place of which
others. Comments do nothing and have no partner.
-/
namespace StepGraph

section Lists

variable {α β : Type}

/-- What relates two lists item by item may be weakened to what follows from it for their items. -/
theorem forall₂_of_mem {relation weaker : α → β → Prop} {items : List α}
    {items' : List β} (related : List.Forall₂ relation items items')
    (weakens : ∀ item ∈ items, ∀ item' ∈ items', relation item item' → weaker item item') :
    List.Forall₂ weaker items items' := by
  induction related with
  | nil => exact .nil
  | cons first rest ih =>
    refine .cons (weakens _ List.mem_cons_self _ List.mem_cons_self first) (ih ?_)
    exact fun item member item' member' =>
      weakens item (List.mem_cons_of_mem _ member) item' (List.mem_cons_of_mem _ member')

/-- Each item of the first of two related lists has a partner in the second. -/
theorem exists_of_forall₂ {relation : α → β → Prop} {items : List α}
    {items' : List β} (related : List.Forall₂ relation items items') {item : α}
    (member : item ∈ items) : ∃ item' ∈ items', relation item item' := by
  induction related with
  | nil => cases member
  | cons first rest ih =>
    rcases List.mem_cons.mp member with rfl | later
    · exact ⟨_, List.mem_cons_self, first⟩
    · obtain ⟨partner, there, same⟩ := ih later
      exact ⟨partner, List.mem_cons_of_mem _ there, same⟩

/-- In related lists the same search finds related items. -/
theorem find?_of_forall₂ {relation : α → β → Prop} {items : List α} {items' : List β}
    (related : List.Forall₂ relation items items') {test : α → Bool} {test' : β → Bool}
    (same : ∀ item item', relation item item' → test item = test' item') :
    Option.Rel relation (items.find? test) (items'.find? test') := by
  induction related with
  | nil => exact .none
  | @cons item item' rest rest' first others ih =>
    rw [List.find?_cons, List.find?_cons, ← same item item' first]
    split
    · exact .some first
    · exact ih

end Lists

/-- The same template by its name, or inline bodies that are related. -/
inductive Body.Matches (graphs : Graph → Graph → Prop) : Body Step → Body Step → Prop where
  /-- Inline bodies that are related. -/
  | inline {steps steps' : Graph} (related : graphs steps steps') :
    Matches graphs (.inline steps) (.inline steps')
  /-- The same template. -/
  | named (name : String) : Matches graphs (.template name) (.template name)

/-- Bodies that match are both given in place, or neither is. -/
theorem Body.Matches.isInline {graphs : Graph → Graph → Prop} {body body' : Body Step}
    (matching : body.Matches graphs body') : body'.isInline = body.isInline := by
  cases matching <;> rfl

namespace Step

/-- Steps that are equal except for their inline bodies, which are related. -/
inductive Matches (graphs : Graph → Graph → Prop) : Step → Step → Prop where
  /-- The same action. -/
  | action (header : Header) (work : Action) :
    Matches graphs (.action header work) (.action header work)
  /-- The same invocation of bodies that match. -/
  | graph (header : Header) (invocation : Invocation) {body body' : Body Step}
    (bodies : body.Matches graphs body') :
    Matches graphs (.graph header invocation body) (.graph header invocation body')

namespace Matches

variable {graphs graphs' : Graph → Graph → Prop} {step step' : Step}

/-- A step matches itself if its inline body is related to itself. -/
theorem refl {step : Step} (inlined : ∀ header invocation steps,
    step = .graph header invocation (.inline steps) → graphs steps steps) :
    step.Matches graphs step := by
  match step with
  | .action header work => exact .action header work
  | .graph header invocation (.inline steps) =>
    exact .graph header invocation (.inline (inlined header invocation steps rfl))
  | .graph header invocation (.template name) => exact .graph header invocation (.named name)

/-- Matching steps match in another sense in which their inline bodies are related. -/
theorem imp (matching : step.Matches graphs step') (bodies : ∀ header invocation steps steps',
    step = .graph header invocation (.inline steps) →
    step' = .graph header invocation (.inline steps') → graphs steps steps' →
    graphs' steps steps') :
    step.Matches graphs' step' := by
  cases matching with
  | action header work => exact .action header work
  | graph header invocation matching =>
    cases matching with
    | inline related =>
      exact .graph header invocation (.inline (bodies header invocation _ _ rfl rfl related))
    | named name => exact .graph header invocation (.named name)

/-- Matching steps carry the same. -/
theorem header (matching : step.Matches graphs step') : step'.header = step.header := by
  cases matching <;> rfl

/-- Matching steps have the same name. -/
theorem name (matching : step.Matches graphs step') : step'.name = step.name :=
  congrArg Header.name matching.header

/-- Matching steps are both hidden, or neither is. -/
theorem isHidden (matching : step.Matches graphs step') : step'.isHidden = step.isHidden :=
  congrArg Header.isHidden matching.header

/-- Matching steps both do nothing, or neither does. -/
theorem isComment (matching : step.Matches graphs step') :
    step'.isComment = step.isComment := by
  cases matching <;> rfl

/-- Matching steps both define a template, or neither does. -/
theorem definesTemplate (matching : step.Matches graphs step') :
    step'.definesTemplate = step.definesTemplate := by
  cases matching with
  | action header work => rfl
  | graph header invocation bodies =>
    simp only [Step.definesTemplate, Invocation.definesTemplate, bodies.isInline]

/-- Matching steps run their bodies in the same way. -/
theorem mode? (matching : step.Matches graphs step') : step'.mode? = step.mode? := by
  have defines := matching.definesTemplate
  cases matching with
  | action header work => rfl
  | graph header invocation bodies =>
    simp only [Step.definesTemplate] at defines
    simp only [Step.mode?, Invocation.mode?, defines]

/-- Matching steps publish under the same key. -/
theorem publishKey (matching : step.Matches graphs step') :
    step'.publishKey = step.publishKey := by
  rw [Step.publishKey, Step.publishKey, matching.mode?, matching.name]

/-- Matching steps have the same keys. -/
theorem keys (matching : step.Matches graphs step') : step'.keys = step.keys := by
  rw [Step.keys, Step.keys, matching.name, matching.publishKey]

end Matches

section Hiding

variable (hidden : Bool)

/-- The step with its result hidden, or shown. -/
def withHidden : Step → Step
  | .action header work => .action { header with isHidden := hidden } work
  | .graph header invocation body => .graph { header with isHidden := hidden } invocation body

variable (step : Step)

@[simp] theorem withHidden_name : (step.withHidden hidden).name = step.name := by
  cases step <;> rfl

@[simp] theorem withHidden_isHidden : (step.withHidden hidden).isHidden = hidden := by
  cases step <;> rfl

@[simp] theorem withHidden_isComment : (step.withHidden hidden).isComment = step.isComment := by
  cases step with
  | action header work => cases work <;> rfl
  | graph header invocation body => rfl

@[simp] theorem withHidden_definesTemplate :
    (step.withHidden hidden).definesTemplate = step.definesTemplate := by
  cases step <;> rfl

@[simp] theorem withHidden_mode? : (step.withHidden hidden).mode? = step.mode? := by
  cases step <;> rfl

@[simp] theorem withHidden_publishKey : (step.withHidden hidden).publishKey = step.publishKey := by
  simp only [publishKey, withHidden_mode?, withHidden_name]

@[simp] theorem withHidden_paths : (step.withHidden hidden).paths = step.paths := by
  cases step <;> rfl

@[simp] theorem withHidden_size : (step.withHidden hidden).size = step.size := by
  cases step with
  | action header work => rfl
  | graph header invocation body =>
    cases body with
    | inline steps => simp only [withHidden, size]
    | template name => rfl

@[simp] theorem withHidden_answersTo (text : String) :
    (step.withHidden hidden).answersTo text = step.answersTo text := by
  simp only [answersTo, withHidden_isComment, withHidden_name, withHidden_publishKey]

@[simp] theorem withHidden_withHidden (before : Bool) :
    (step.withHidden before).withHidden hidden = step.withHidden hidden := by
  cases step <;> rfl

/-- A step as it is hidden already stays as it is. -/
theorem withHidden_isHidden_self : step.withHidden step.isHidden = step := by
  cases step <;> rfl

end Hiding

end Step

namespace Graph

/-- The steps that do something. -/
def acting (steps : List Step) : List Step := steps.filter fun step => !step.isComment

/-- A step that does something is one of those that do. -/
theorem mem_acting {steps : List Step} {step : Step} :
    step ∈ acting steps ↔ step ∈ steps ∧ step.isComment = false := by
  rw [acting, List.mem_filter, Bool.not_eq_true']

end Graph

/-- What may be activated and run in the place of what in another run. -/
structure Pairing where
  /-- Graphs that may be activated in each other's place. -/
  graphs : Graph → Graph → Prop
  /-- Steps that may be run in each other's place, in a context that runs a graph. -/
  steps : Graph → Step → Step → Prop
  /-- The texts that may be looked up. -/
  met : String → Prop
  /-- Paired steps do something. -/
  acts : ∀ {graph step step'}, steps graph step step' → step.isComment = false
  /-- Paired steps match once they are hidden alike. -/
  matching : ∀ {graph step step'}, steps graph step step' →
    ∃ hidden, (step.withHidden hidden).Matches graphs step'
  /-- The steps of paired graphs are paired in the order in which they are tried. -/
  hoisted : ∀ {graph graph'}, graphs graph graph' →
    List.Forall₂ (steps graph) (Graph.acting (Graph.hoisted graph))
      (Graph.acting (Graph.hoisted graph'))
  /-- What paired steps look up is met. -/
  lookups : ∀ {graph step step' text}, steps graph step step' → text ∈ step.lookups → met text
  /-- The name that a path starts from is met. -/
  head : ∀ {path}, met path → met (Path.head path)
  /-- What is left of a path inside the inputs is met. -/
  rest : ∀ {path rest}, met path → insideInputs? path = some rest → met rest

namespace Pairing

variable {pairing : Pairing} {graph : Graph} {step step' : Step}

/-- Paired steps have the same name. -/
theorem name (paired : pairing.steps graph step step') : step'.name = step.name := by
  obtain ⟨hidden, matching⟩ := pairing.matching paired
  rw [matching.name, Step.withHidden_name]

/-- Paired steps publish under the same key. -/
theorem publishKey (paired : pairing.steps graph step step') :
    step'.publishKey = step.publishKey := by
  obtain ⟨hidden, matching⟩ := pairing.matching paired
  rw [matching.publishKey, Step.withHidden_publishKey]

/-- Both of paired steps do something. -/
theorem acts_right (paired : pairing.steps graph step step') : step'.isComment = false := by
  obtain ⟨hidden, matching⟩ := pairing.matching paired
  rw [matching.isComment, Step.withHidden_isComment, pairing.acts paired]

/-- Known graphs and their steps, each in its own place. -/
def same (scope : Scope) : Pairing where
  graphs := fun graph graph' => graph = graph' ∧ scope.known graph
  steps := fun graph step step' =>
    step = step' ∧ scope.known graph ∧ step ∈ graph ∧ step.isComment = false
  met := scope.met
  acts := fun paired => paired.2.2.2
  matching := by
    rintro graph step _ ⟨rfl, known, member, -⟩
    refine ⟨step.isHidden, ?_⟩
    rw [Step.withHidden_isHidden_self]
    exact .refl fun _ _ _ same => ⟨rfl, scope.body known (same ▸ member)⟩
  hoisted := by
    rintro graph _ ⟨rfl, known⟩
    refine List.forall₂_same.mpr fun step member => ?_
    obtain ⟨there, acts⟩ := Graph.mem_acting.mp member
    exact ⟨rfl, known, Graph.mem_hoisted.mp there, acts⟩
  lookups := fun paired => scope.lookups paired.2.1 paired.2.2.1
  head := scope.head
  rest := scope.rest

end Pairing

end StepGraph
