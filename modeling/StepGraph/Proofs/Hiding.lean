import StepGraph.Proofs.Running.Mirror

/-!
# Hiding a step

Whether a step of a graph is hidden decides whether its result goes to the output, and nothing else:
no path is looked for in an output, and what a context hands to its caller is what its graph says.
So a graph runs with a step hidden as it does with the step shown, and has the same output without
the key of that step. A comment publishes nothing, and the key that it would have may be the one of
another step, so that hiding a comment changes nothing at all.

The two graphs differ at the top alone. What is activated inside is smaller than either and the same
in both, so that the two runs mirror each other with outputs that differ in their first contexts.
-/
namespace StepGraph

variable {σ : Type}

/-- Outcomes of which the second is the first with its output projected, or the same failure. The
functions are left in the same state. -/
inductive Outcome.Projects (project : Object → Object) :
    Outcome σ Object → Outcome σ Object → Prop where
  /-- The output is projected. -/
  | done (output : Object) {left right : State σ} (hosts : left.host = right.host) :
    Projects project (.done output left) (.done (project output) right)
  /-- Both have the same failure. -/
  | failed (failure : Failure) {left right : State σ} (hosts : left.host = right.host) :
    Projects project (.failed failure left) (.failed failure right)

namespace Hiding

/-- What hiding a step leaves of an output. -/
def project (step : Step) (output : Object) : Object :=
  if step.isComment then output else Dictionary.erase output step.publishKey

section Flipping

variable (front back : List Step) (step : Step)

/-- The graph with the step shown. -/
def shown : Graph := front ++ step.withHidden false :: back

/-- The graph with the step hidden. -/
def hidden : Graph := front ++ step.withHidden true :: back

/-- The key that is missing once the step is hidden. -/
def missing? : Option String := if step.isComment then none else some step.publishKey

/-- A step of the graph in its own place, or the step that is shown and hidden. -/
def Counterparts (one other : Step) : Prop :=
  (one = other ∧ (one.isComment = false → missing? step ≠ some one.publishKey)) ∨
    (one = step.withHidden false ∧ other = step.withHidden true)

variable {front back step}

/-- What is missing from the output is the key of no other step. -/
theorem missing?_ne {other : Step} (apart : Graph.Apart other step)
    (acts : other.isComment = false) : missing? step ≠ some other.publishKey := by
  unfold missing?
  split
  · exact nofun
  · rename_i acts'
    intro same
    exact apart acts (Bool.eq_false_iff.mpr acts') _ other.publishKey_mem_keys
      (Option.some.inj same ▸ step.publishKey_mem_keys)

/-- Counterparts answer to the same texts. -/
theorem Counterparts.answersTo {one other : Step} (both : Counterparts step one other)
    (text : String) : one.answersTo text = other.answersTo text := by
  rcases both with ⟨rfl, -⟩ | ⟨rfl, rfl⟩
  · rfl
  · rw [Step.withHidden_answersTo, Step.withHidden_answersTo]

/-- Counterparts both define a template, or neither does. -/
theorem Counterparts.definesTemplate {one other : Step} (both : Counterparts step one other) :
    one.definesTemplate = other.definesTemplate := by
  rcases both with ⟨rfl, -⟩ | ⟨rfl, rfl⟩
  · rfl
  · rw [Step.withHidden_definesTemplate, Step.withHidden_definesTemplate]

/-- Counterparts both do nothing, or neither does. -/
theorem Counterparts.isComment {one other : Step} (both : Counterparts step one other) :
    one.isComment = other.isComment := by
  rcases both with ⟨rfl, -⟩ | ⟨rfl, rfl⟩
  · rfl
  · rw [Step.withHidden_isComment, Step.withHidden_isComment]

/-- Counterparts both publish a result, or neither does. -/
theorem Counterparts.publishes {one other : Step} (both : Counterparts step one other) :
    one.publishes = other.publishes := by
  rw [Step.publishes, Step.publishes, both.isComment, both.definesTemplate]

/-- The steps of the two graphs are counterparts. -/
theorem forall₂_counterparts (valid : Graph.IsValid (front ++ step :: back)) :
    List.Forall₂ (Counterparts step) (shown front back step) (hidden front back step) := by
  -- The steps before and after are apart from the step, so that none of them has its key.
  obtain ⟨-, later, across⟩ := List.pairwise_append.mp (Graph.pairwise_apart_of_clashAmong? valid)
  have before : List.Forall₂ (Counterparts step) front front :=
    List.forall₂_same.mpr fun other member =>
      .inl ⟨rfl, missing?_ne (across other member step List.mem_cons_self)⟩
  have after : List.Forall₂ (Counterparts step) back back :=
    List.forall₂_same.mpr fun other member =>
      .inl ⟨rfl, missing?_ne fun acts acts' key key_mem clash =>
        (List.pairwise_cons.mp later).1 other member acts' acts key clash key_mem⟩
  exact List.rel_append before (.cons (.inr ⟨rfl, rfl⟩) after)

end Flipping

section Outputs

variable {step : Step}

/-- Two outputs of which the second has what the first has, except for what is missing once the step
is hidden. -/
structure Lacks (step : Step) (output output' : Object) : Prop where
  /-- The first is sorted. -/
  sorted : Dictionary.Sorted output
  /-- The second is sorted. -/
  sorted' : Dictionary.Sorted output'
  /-- The same is found, except for what is missing. -/
  finds : ∀ key, Dictionary.find? output' key =
    if missing? step = some key then none else Dictionary.find? output key

variable {output output' : Object} {key : String}

/-- From empty outputs nothing is missing. -/
theorem Lacks.nil (step : Step) : Lacks step [] [] :=
  ⟨.nil, .nil, fun _ => (ite_self _).symm⟩

/-- What is not missing may be stored in both. -/
theorem Lacks.insert (lacks : Lacks step output output') (there : missing? step ≠ some key)
    (value : Value) :
    Lacks step (Dictionary.insert output key value) (Dictionary.insert output' key value) where
  sorted := Dictionary.sorted_insert lacks.sorted key value
  sorted' := Dictionary.sorted_insert lacks.sorted' key value
  finds := by
    intro other
    by_cases same : other = key
    · rw [same, Dictionary.find?_insert_self, Dictionary.find?_insert_self, if_neg there]
    · rw [Dictionary.find?_insert_of_ne _ _ same, Dictionary.find?_insert_of_ne _ _ same]
      exact lacks.finds other

/-- What is missing may be stored in the first alone. -/
theorem Lacks.insert_left (lacks : Lacks step output output') (missing : missing? step = some key)
    (value : Value) : Lacks step (Dictionary.insert output key value) output' where
  sorted := Dictionary.sorted_insert lacks.sorted key value
  sorted' := lacks.sorted'
  finds := by
    intro other
    rw [lacks.finds other]
    split
    · rfl
    · rename_i there
      have different : other ≠ key := fun same => there (same ▸ missing)
      rw [Dictionary.find?_insert_of_ne _ _ different]

/-- What lacks the step is what hiding it leaves. -/
theorem Lacks.eq_project (lacks : Lacks step output output') : output' = project step output := by
  have finds := lacks.finds
  unfold missing? at finds
  unfold project
  split
  · rename_i comment
    refine Dictionary.eq_of_find?_eq lacks.sorted' lacks.sorted fun key => ?_
    rw [finds, comment]
    rfl
  · rename_i acts
    refine Dictionary.eq_of_find?_eq lacks.sorted' (Dictionary.sorted_erase lacks.sorted _)
      fun key => ?_
    rw [finds, if_neg acts]
    by_cases same : key = step.publishKey
    · rw [same, if_pos rfl, Dictionary.find?_erase_self]
    · rw [if_neg fun other => same (Option.some.inj other).symm,
        Dictionary.find?_erase_of_ne _ same]

/-- The results of counterparts leave outputs that lack the step. -/
theorem Lacks.publish {context context' : Context}
    (lacks : Lacks step context.output context'.output) {one other : Step}
    (acts : one.isComment = false) (both : Counterparts step one other) (value : Value) :
    Lacks step (context.publish one.publishKey value one.isHidden).output
      (context'.publish one.publishKey value other.isHidden).output := by
  simp only [Context.publish]
  rcases both with ⟨rfl, there⟩ | ⟨rfl, rfl⟩
  · split
    · exact lacks
    · exact lacks.insert (there acts) value
  · -- The step itself publishes into the first output alone.
    rw [Step.withHidden_isComment] at acts
    rw [Step.withHidden_publishKey, Step.withHidden_isHidden, Step.withHidden_isHidden,
      Bool.true_or, if_pos rfl]
    split
    · exact lacks
    · exact lacks.insert_left (by rw [missing?, acts]; rfl) value

end Outputs

section Mirroring

variable (front back : List Step) (step : Step)

/-- A graph that is smaller than the one with the step, in its own place. -/
def Inner (graph graph' : Graph) : Prop :=
  graph = graph' ∧ Step.sizeOfAll graph < Step.sizeOfAll (shown front back step)

/-- Counterparts in the graph with the step, and steps in their own place in all others. -/
def Partners (graph : Graph) (one other : Step) : Prop :=
  one.isComment = false ∧ one.size ≤ Step.sizeOfAll (shown front back step) ∧
    ((graph ≠ shown front back step ∧ one = other) ∨
      (graph = shown front back step ∧ Counterparts step one other))

variable {front back step}

/-- A smaller graph is not the one with the step. -/
theorem Inner.ne {graph graph' : Graph} (inner : Inner front back step graph graph') :
    graph ≠ shown front back step :=
  fun same => Nat.lt_irrefl _ (same ▸ inner.2)

/-- Steps of a smaller graph are partners of themselves. -/
theorem Inner.partners {graph graph' : Graph} (inner : Inner front back step graph graph')
    {one : Step} (member : one ∈ graph) (acts : one.isComment = false) :
    Partners front back step graph one one :=
  ⟨acts, Nat.le_trans (Step.size_le_sizeOfAll member) (Nat.le_of_lt inner.2), .inl ⟨inner.ne, rfl⟩⟩

/-- A step that is no larger than the graph has a smaller body, and so matches itself. -/
theorem matches_of_size_le {one : Step} (small : one.size ≤ Step.sizeOfAll (shown front back step)) :
    one.Matches (Inner front back step) one := by
  refine .refl ?_
  rintro header invocation steps rfl
  rw [Step.size] at small
  exact ⟨rfl, small⟩

/-- Partners match once they are hidden alike. -/
theorem Partners.matches {graph : Graph} {one other : Step}
    (partners : Partners front back step graph one other) :
    ∃ hidden, (one.withHidden hidden).Matches (Inner front back step) other := by
  obtain ⟨-, small, places⟩ := partners
  have itself : ∃ hidden, (one.withHidden hidden).Matches (Inner front back step) one :=
    ⟨one.isHidden, one.withHidden_isHidden_self.symm ▸ matches_of_size_le small⟩
  rcases places with ⟨-, rfl⟩ | ⟨-, ⟨rfl, -⟩ | ⟨rfl, rfl⟩⟩
  · exact itself
  · exact itself
  · refine ⟨true, ?_⟩
    rw [Step.withHidden_size] at small
    rw [Step.withHidden_withHidden]
    exact matches_of_size_le (by rwa [Step.withHidden_size])

/-- Counterparts in the graph with the step that do something are partners. -/
theorem partners_of_counterparts {one other : Step} (both : Counterparts step one other)
    (member : one ∈ shown front back step) (acts : one.isComment = false) :
    Partners front back step (shown front back step) one other :=
  ⟨acts, Step.size_le_sizeOfAll member, .inr ⟨rfl, both⟩⟩

variable (front back step)

/-- Smaller graphs are activated in their own place. -/
def pairing : Pairing where
  graphs := Inner front back step
  steps := Partners front back step
  met := fun _ => True
  acts := fun partners => partners.1
  matching := Partners.matches
  hoisted := by
    rintro graph _ inner
    obtain rfl := inner.1
    refine List.forall₂_same.mpr fun one member => ?_
    obtain ⟨there, acts⟩ := Graph.mem_acting.mp member
    exact inner.partners (Graph.mem_hoisted.mp there) acts
  lookups := fun _ _ => trivial
  head := fun _ => trivial
  rest := fun _ _ => trivial

variable {front back step}

/-- The two graphs try partners in the same order. -/
theorem forall₂_partners (valid : Graph.IsValid (front ++ step :: back)) :
    List.Forall₂ (Partners front back step (shown front back step))
      (Graph.acting (Graph.hoisted (shown front back step)))
      (Graph.acting (Graph.hoisted (hidden front back step))) := by
  have counterparts := forall₂_counterparts valid
  have definitions : List.Forall₂ (Counterparts step)
      ((shown front back step).filter Step.definesTemplate)
      ((hidden front back step).filter Step.definesTemplate) :=
    List.rel_filter (fun _ _ both => Bool.eq_iff_iff.mp both.definesTemplate) counterparts
  have others : List.Forall₂ (Counterparts step)
      ((shown front back step).filter Step.publishes)
      ((hidden front back step).filter Step.publishes) :=
    List.rel_filter (fun _ _ both => Bool.eq_iff_iff.mp both.publishes) counterparts
  have counterparts : List.Forall₂ (Counterparts step)
      (Graph.acting (Graph.hoisted (shown front back step)))
      (Graph.acting (Graph.hoisted (hidden front back step))) := by
    rw [Graph.acting_hoisted, Graph.acting_hoisted]
    exact List.rel_append definitions others
  refine forall₂_of_mem counterparts fun one member other _ both => ?_
  obtain ⟨there, acts⟩ := Graph.mem_acting.mp member
  exact partners_of_counterparts both (Graph.mem_hoisted.mp there) acts

/-- A text refers to the same step of a smaller graph. -/
theorem Inner.findStep? {graph : Graph} (inner : Inner front back step graph graph)
    (text : String) :
    Option.Rel (Partners front back step graph) (Graph.findStep? graph text)
      (Graph.findStep? graph text) := by
  cases found : Graph.findStep? graph text with
  | none => exact .none
  | some one =>
    obtain ⟨member, acts, -⟩ := Graph.findStep?_eq_some found
    exact .some (inner.partners member acts)

/-- A text refers to partners in the two graphs. -/
theorem findStep?_shown (valid : Graph.IsValid (front ++ step :: back)) (text : String) :
    Option.Rel (Partners front back step (shown front back step))
      (Graph.findStep? (shown front back step) text)
      (Graph.findStep? (hidden front back step) text) := by
  have found : Option.Rel (Counterparts step) (Graph.findStep? (shown front back step) text)
      (Graph.findStep? (hidden front back step) text) :=
    find?_of_forall₂ (forall₂_counterparts valid) fun _ _ both => both.answersTo text
  have held {one : Step} (there : Graph.findStep? (shown front back step) text = some one) :=
    Graph.findStep?_eq_some there
  generalize Graph.findStep? (shown front back step) text = first at found held ⊢
  generalize Graph.findStep? (hidden front back step) text = second at found ⊢
  cases found with
  | none => exact .none
  | some both =>
    obtain ⟨member, acts, -⟩ := held rfl
    exact .some (partners_of_counterparts both member acts)

/-- Runs of the two graphs mirror each other, except for the outputs of their first contexts. -/
def mirror (settings : Settings σ) (valid : Graph.IsValid (front ++ step :: back)) :
    Mirror settings settings (pairing front back step) where
  stands := fun graph graph' => Inner front back step graph graph' ∨
    graph = shown front back step ∧ graph' = hidden front back step
  -- The first context alone runs the graph with the step: all others run smaller graphs.
  outputs := fun graph output output' =>
    (graph ≠ shown front back step → output = output') ∧
      (graph = shown front back step → Lacks step output output')
  hosts := Eq
  logs := fun _ _ => True
  settings := .refl settings
  warns := fun _ _ => trivial
  traces := fun _ _ _ => trivial
  reports := fun _ _ _ => trivial
  stand := .inl
  finds := by
    rintro graph _ text (inner | ⟨rfl, rfl⟩)
    · obtain rfl := inner.1
      exact inner.findStep? text
    · exact findStep?_shown valid text
  starts := fun inner => ⟨fun _ => rfl, fun same => absurd same inner.ne⟩
  publishes := by
    rintro context context' one other value ⟨acts, -, places⟩ ⟨equal, lacks⟩
    rcases places with ⟨inside, rfl⟩ | ⟨top, both⟩
    · refine ⟨fun _ => ?_, fun top => absurd top inside⟩
      simp only [Context.publish, equal inside]
    · exact ⟨fun inside => absurd top inside, fun _ => (lacks top).publish acts both value⟩
  hands := fun inner outputs => outputs.1 inner.ne

open Interpreter

/-- The first contexts of the two runs face each other. -/
theorem faces_start (settings : Settings σ) (valid : Graph.IsValid (front ++ step :: back))
    (inputs : Value) :
    (mirror settings valid).Faces (Context.start (shown front back step) (some inputs) none)
      (Context.start (hidden front back step) (some inputs) none) where
  graphs := .inr ⟨rfl, rfl⟩
  values := rfl
  executed := rfl
  parent := rfl
  outputs := ⟨fun inside => absurd rfl inside, fun _ => .nil step⟩

/-- The steps of the two graphs keep their runs mirrored. -/
theorem agrees_executeAll (settings : Settings σ) (valid : Graph.IsValid (front ++ step :: back))
    (n : Nat) (inputs : Value) (state : State σ) :
    Outcome.Agrees True (mirror settings valid).Surroundings
      (fun _ => (mirror settings valid).Relates [shown front back step])
      (executeAll (level settings n) 0 (Graph.hoisted (shown front back step))
        (state.reset.enter (Context.start (shown front back step) (some inputs) none)))
      (executeAll (level settings n) 0 (Graph.hoisted (hidden front back step))
        (state.reset.enter (Context.start (hidden front back step) (some inputs) none))) := by
  have surroundings : (mirror settings valid).Surroundings state state := ⟨rfl, trivial⟩
  have begun : (mirror settings valid).Relates (Frame.mk [] []).graphs state.reset state.reset :=
    .reset surroundings
  exact (mirror settings valid).simulation.preserve_executeAll
    ((mirror settings valid).simulates_level (Nat.le_refl n)) begun (forall₂_partners valid) _ _
    (begun.enter (faces_start settings valid inputs))

/-- Runs that are mirrored in their first contexts have outputs of which the second is projected. -/
theorem projects_inside {settings : Settings σ} {valid : Graph.IsValid (front ++ step :: back)}
    {context context' : Context} {run run' : Run σ Unit} {state : State σ}
    (agree : Outcome.Agrees True (mirror settings valid).Surroundings
      (fun _ => (mirror settings valid).Relates [shown front back step])
      (run (state.enter context)) (run' (state.enter context')))
    (ends : (Run.inside context run state).HasEnd) :
    Outcome.Projects (project step) (Run.inside context run state)
      (Run.inside context' run' state) := by
  rw [Run.inside_apply] at ends ⊢
  rw [Run.inside_apply]
  generalize run (state.enter context) = outcome at agree ends ⊢
  generalize run' (state.enter context') = other at agree ⊢
  cases agree with
  | @done first second _ related =>
    have facing : first.Facing (mirror settings valid).Faces ([] ++ [shown front back step])
        second := related.facing
    obtain ⟨last, last', top, faces, output, output'⟩ := facing.latestOutput
    have lacks := faces.outputs.2 top
    dsimp only
    rw [output, output', lacks.eq_project]
    exact .done _ related.surroundings.1
  | failed failure surroundings => exact .failed failure surroundings.1
  | stuck reason _ _ => exact ends.elim

/-- Hiding a step of a valid graph takes its result out of the output and changes nothing else. -/
theorem graph_projects (valid : Graph.IsValid (front ++ step :: back)) (settings : Settings σ)
    (inputs : Value) (state : State σ) :
    Outcome.Projects (project step) (Run.graph settings (shown front back step) inputs state)
      (Run.graph settings (hidden front back step) inputs state) := by
  obtain ⟨n, levels⟩ := Run.exists_level settings settings (shown front back step)
    (hidden front back step) inputs inputs state state
  obtain ⟨one, two⟩ := levels (n + 1) (Nat.le_succ n)
  have activated (graph : Graph) : (level settings (n + 1)).activate rootName graph (some inputs)
      none state.reset = nested settings (level settings n) rootName graph (some inputs) none
        state.reset := rfl
  have ends := Run.graph_hasEnd settings (shown front back step) inputs state
  rw [← one, activated, nested_apply] at ends ⊢
  rw [← two, activated, nested_apply]
  by_cases forbidden : settings.config.maxDepth ≤ state.reset.depth
  · rw [if_pos forbidden, if_pos forbidden]
    exact .failed _ rfl
  · rw [if_neg forbidden] at ends ⊢
    rw [if_neg forbidden]
    exact projects_inside (agrees_executeAll settings valid n inputs state) ends

end Mirroring

/-- The output of a graph without functions and inputs. -/
def outputOf (graph : Graph) : Option Object :=
  match Run.graph ⟨Registry.empty, {}⟩ graph (.object []) (State.start ()) with
  | .done output _ => some output
  | _ => none

/-- A step that another one refers to. -/
def secret : Step := .action ⟨"secret", false, none⟩ (.static (.bool true))

/-- A step that refers to it. -/
def reader : Step := .action ⟨"reader", false, none⟩ (.alias "secret")

/-- A step that refers to a hidden one still has its result. -/
theorem reader_projects :
    Graph.IsValid ([reader] ++ secret :: []) ∧
      Outcome.Projects (project secret)
        (Run.graph ⟨Registry.empty, {}⟩ (shown [reader] [] secret) (.object []) (State.start ()))
        (Run.graph ⟨Registry.empty, {}⟩ (hidden [reader] [] secret) (.object []) (State.start ())) ∧
      outputOf (shown [reader] [] secret) =
        some [("reader", .bool true), ("secret", .bool true)] ∧
      outputOf (hidden [reader] [] secret) = some [("reader", .bool true)] := by
  have valid : Graph.IsValid ([reader] ++ secret :: []) := by decide
  exact ⟨valid, graph_projects valid ⟨Registry.empty, {}⟩ (.object []) (State.start ()),
    by decide +kernel, by decide +kernel⟩

/-- A remark. -/
def remark : Step := .action ⟨"a", false, none⟩ .comment

/-- A step of the same name. -/
def remarked : Step := .action ⟨"a", false, none⟩ (.static (.bool true))

/-- Hiding a remark does not take the result of the step of the same name out of the output. -/
theorem remark_unprojected :
    Graph.IsValid ([] ++ remark :: [remarked]) ∧
      outputOf (shown [] [remarked] remark) = some [("a", .bool true)] ∧
      outputOf (hidden [] [remarked] remark) ≠
        (outputOf (shown [] [remarked] remark)).map fun output =>
          Dictionary.erase output remark.publishKey :=
  ⟨by decide, by decide +kernel, by decide +kernel⟩

end Hiding

end StepGraph
