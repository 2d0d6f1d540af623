import StepGraph.Proofs.Purity
import StepGraph.Proofs.Running.Facing
import StepGraph.Proofs.Running.Lockstep

/-!
# Resemblance within a scope

Two states resemble each other within a scope when a run that stays within the scope cannot tell
them apart: as deep, with contexts in the same places that cannot be told apart, with the same
templates under the names that may be met, and with functions that answer alike. What they hold
outside of the scope may differ, the graphs that their contexts run included. Runs of the same
operations from such states stay in lockstep, so that they have the same results.
-/
namespace StepGraph

variable {σ : Type}

namespace Context

/-- What a path waits for once a name is marked. -/
theorem awaited?_mark (context : Context) (name path : String) :
    (context.mark name).awaited? path =
      (context.awaited? path).filter fun step => !(step.name == name) := by
  unfold awaited?
  rw [mark_graph, Option.filter_filter]
  congr 1
  funext step
  rw [hasExecuted_mark, Bool.not_or, Bool.and_comm]

namespace Alike

variable {scope : Scope} {left right : Context}

/-- Contexts that cannot be told apart remain so once the same name is marked in both. -/
theorem mark (alike : left.Alike scope right) (name : String) :
    (left.mark name).Alike scope (right.mark name) where
  values := by rw [mark_values, mark_values, alike.values]
  parent := by rw [mark_parent, mark_parent, alike.parent]
  awaits := fun met => by rw [awaited?_mark, awaited?_mark, alike.awaits met]
  known := by
    intro path step met awaited
    rw [awaited?_mark] at awaited
    rw [mark_graph]
    exact alike.known met (Option.filter_eq_some_iff.mp awaited).1
  runs := by
    rw [mark_graph]
    intro known step member
    rw [hasExecuted_mark, hasExecuted_mark, alike.runs known step member]
  calls := fun met => by rw [hasExecuted_mark, hasExecuted_mark, alike.calls met]

/-- Contexts that cannot be told apart remain so once the same is published in both. -/
theorem publish (alike : left.Alike scope right) (key : String) (value : Value) (hidden : Bool) :
    (left.publish key value hidden).Alike scope (right.publish key value hidden) where
  values := by rw [publish_values, publish_values, alike.values]
  parent := alike.parent
  awaits := alike.awaits
  known := alike.known
  runs := alike.runs
  calls := alike.calls

end Alike

end Context

/-- Two states that a run within a scope cannot tell apart, and that have the same for the callers
of their contexts. -/
structure Resembling (registry : Registry σ) (scope : Scope) (graphs : List Graph)
    (first second : State σ) : Prop where
  /-- Activations are nested equally deep. -/
  depths : first.depth = second.depth
  /-- The contexts of the first state run these graphs. -/
  shape : first.contexts.map Context.graph = graphs
  /-- As many contexts are alive. -/
  lengths : second.contexts.length = first.contexts.length
  /-- Contexts in the same place cannot be told apart, and have the same output. -/
  alike : ∀ {id : ContextId} {context context'}, first.contexts[id]? = some context →
    second.contexts[id]? = some context' →
    context.Alike scope context' ∧ context.output = context'.output
  /-- The same templates are found. -/
  templates : ∀ {name}, scope.met name →
    Dictionary.find? first.templates name = Dictionary.find? second.templates name
  /-- Every template that is found is known. -/
  knows : ∀ {name graph}, scope.met name → Dictionary.find? first.templates name = some graph →
    scope.known graph
  /-- Functions answer alike. -/
  hosts : registry.AnswersAlike first.host second.host

namespace Resembling

variable {registry : Registry σ} {scope : Scope} {graphs : List Graph}
  {first second first' second' : State σ} {id : ContextId} {context context' : Context}

/-- The contexts of resembling states face each other. -/
theorem facing (resembling : Resembling registry scope graphs first second) :
    first.Facing (fun context context' =>
      context.Alike scope context' ∧ context.output = context'.output) graphs second :=
  ⟨resembling.depths, resembling.shape, resembling.lengths, resembling.alike⟩

/-- States resemble each other when their contexts face each other and the rest is as it should
be. -/
theorem of_facing (facing : first.Facing (fun context context' =>
      context.Alike scope context' ∧ context.output = context'.output) graphs second)
    (templates : ∀ {name}, scope.met name →
      Dictionary.find? first.templates name = Dictionary.find? second.templates name)
    (knows : ∀ {name graph}, scope.met name →
      Dictionary.find? first.templates name = some graph → scope.known graph)
    (hosts : registry.AnswersAlike first.host second.host) :
    Resembling registry scope graphs first second :=
  ⟨facing.depths, facing.shape, facing.lengths, facing.faces, templates, knows, hosts⟩

/-- The log does not matter, nor does the state of functions that answer alike. -/
theorem of_unmoved (resembling : Resembling registry scope graphs first second)
    (one : first.Unmoved first') (two : second.Unmoved second')
    (hosts : registry.AnswersAlike first'.host second'.host) :
    Resembling registry scope graphs first' second' := by
  refine .of_facing (resembling.facing.of_unmoved one two) ?_ ?_ hosts
  · rw [one.templates, two.templates]
    exact resembling.templates
  · rw [one.templates]
    exact resembling.knows

/-- A context may be changed in both states, as long as the changed contexts run the graphs from
before and cannot be told apart. -/
theorem setContext (resembling : Resembling registry scope graphs first second)
    (alive : first.contexts[id]? = some context) {new new' : Context}
    (graph : new.graph = context.graph) (alike : new.Alike scope new')
    (output : new.output = new'.output) :
    Resembling registry scope graphs (first.setContext id new) (second.setContext id new') :=
  .of_facing (resembling.facing.setContext alive graph ⟨alike, output⟩) resembling.templates
    resembling.knows resembling.hosts

/-- A known graph may be defined as a template in both states. -/
theorem define (resembling : Resembling registry scope graphs first second) (name : String)
    {graph : Graph} (known : scope.known graph) :
    Resembling registry scope graphs (first.define name graph) (second.define name graph) where
  depths := resembling.depths
  shape := resembling.shape
  lengths := resembling.lengths
  alike := resembling.alike
  templates := by
    intro other met
    rw [State.define_templates, State.define_templates]
    by_cases same : other = name
    · rw [same, Dictionary.find?_insert_self, Dictionary.find?_insert_self]
    · rw [Dictionary.find?_insert_of_ne _ _ same, Dictionary.find?_insert_of_ne _ _ same]
      exact resembling.templates met
  knows := by
    intro other found met there
    rw [State.define_templates] at there
    by_cases same : other = name
    · subst same
      rw [Dictionary.find?_insert_self] at there
      exact Option.some.inj there ▸ known
    · rw [Dictionary.find?_insert_of_ne _ _ same] at there
      exact resembling.knows met there
  hosts := resembling.hosts

/-- The same activation of a known graph may be entered in both states. -/
theorem enter (resembling : Resembling registry scope graphs first second) {graph : Graph}
    (known : scope.known graph) (inputs : Option Value) (caller : Option ContextId) :
    Resembling registry scope (graphs ++ [graph]) (first.enter (Context.start graph inputs caller))
      (second.enter (Context.start graph inputs caller)) := by
  have alike : (Context.start graph inputs caller).Alike scope
      (Context.start graph inputs caller) := .refl known
  exact .of_facing (resembling.facing.enter ⟨alike, rfl⟩) resembling.templates resembling.knows
    resembling.hosts

/-- The latest activation may be left in both states, with the same for the caller. -/
theorem leave {graph : Graph}
    (resembling : Resembling registry scope (graphs ++ [graph]) first second) :
    first.latestOutput = second.latestOutput ∧
      Resembling registry scope graphs first.leave second.leave := by
  obtain ⟨context, context', -, ⟨-, same⟩, one, two⟩ := resembling.facing.latestOutput
  refine ⟨?_, .of_facing resembling.facing.leave resembling.templates resembling.knows
    resembling.hosts⟩
  rw [one, two, same]

/-- The same may be published in a context of both states. -/
theorem publish (resembling : Resembling registry scope graphs first second)
    (alive : first.contexts[id]? = some context) (alive' : second.contexts[id]? = some context')
    (key : String) (value : Value) (hidden : Bool) :
    Resembling registry scope graphs (first.setContext id (context.publish key value hidden))
      (second.setContext id (context'.publish key value hidden)) := by
  obtain ⟨alike, output⟩ := resembling.alike alive alive'
  refine resembling.setContext alive rfl (alike.publish key value hidden) ?_
  simp only [Context.publish, output]

/-- The same name may be marked in a context of both states. -/
theorem mark (resembling : Resembling registry scope graphs first second)
    (alive : first.contexts[id]? = some context) (alive' : second.contexts[id]? = some context')
    (name : String) :
    Resembling registry scope graphs (first.setContext id (context.mark name))
      (second.setContext id (context'.mark name)) := by
  obtain ⟨alike, output⟩ := resembling.alike alive alive'
  refine resembling.setContext alive (context.mark_graph name) (alike.mark name) ?_
  rw [Context.mark_output, Context.mark_output, output]

end Resembling

namespace Interpreter

variable {scope : Scope}

/-- Outside of contexts, runs from resembling states agree. -/
theorem basis_resembling (settings : Settings σ) (graphs : List Graph) :
    Basis True (fun _ _ => True) (Resembling settings.registry scope graphs) scope settings
      settings :=
  .of_unmoved rfl (fun _ _ _ => trivial) (fun resembling => resembling.hosts)
    (fun resembling one two hosts => resembling.of_unmoved one two hosts)
    (fun _ _ resembling _ met => resembling.templates met)
    fun _ _ resembling _ _ met => resembling.knows met

/-- Publishing a result in resembling states agrees. -/
theorem preserve_publish_resembling (settings : Settings σ) {graphs : List Graph}
    (id : ContextId) (key : String) (value : Value) (hidden : Bool) :
    Run.Preserve True (fun _ _ => True) (Resembling settings.registry scope graphs)
      (Run.publish settings id key value hidden) (Run.publish settings id key value hidden) := by
  intro first second resembling
  cases alive : first.contexts[id]? with
  | none =>
    rw [Run.publish_apply_of_none _ _ _ alive]
    exact .stuck _ _ trivial
  | some context =>
    obtain ⟨context', alive', -⟩ := resembling.facing.exists_alive alive
    rw [Run.publish_apply _ _ _ alive, Run.publish_apply _ _ _ alive']
    have traced := resembling.of_unmoved
      (first.unmoved_traced settings (.executed key hidden value))
      (second.unmoved_traced settings (.executed key hidden value))
      (by rw [State.traced_host, State.traced_host]; exact resembling.hosts)
    exact .done _ (traced.publish (by rwa [State.traced_contexts])
      (by rwa [State.traced_contexts]) key value hidden)

/-- Runs from resembling states stay in lockstep. -/
theorem lockstep_resembling (settings : Settings σ) (scope : Scope) :
    Lockstep (fun _ _ _ => True) settings settings .silent .silent (fun _ _ => True) scope
      (fun frame => Resembling settings.registry scope frame.graphs) where
  basis := fun frame => basis_resembling settings frame.graphs
  maxDepth := rfl
  shape := fun resembling =>
    ⟨resembling.depths, resembling.facing.length,
      resembling.lengths.trans resembling.facing.length⟩
  latest := by
    intro frame _ _ first second graph _ resembling
    exact ⟨trivial, resembling.facing.exists_latest⟩
  context := by
    intro frame first second id context resembling _ alive
    obtain ⟨context', alive', alike, -⟩ := resembling.facing.exists_alive alive
    exact ⟨⟨context', alive', alike⟩, fun _ _ => trivial⟩
  resolveBegins := fun resembling _ => resembling
  resolveEnds := fun resembling _ => resembling
  stepBegins := fun resembling _ alive alive' _ _ _ _ => resembling.mark alive alive' _
  stepEnds := fun _ _ fits => preserve_commit (basis_resembling settings _) fits
    (fun value => preserve_publish_resembling settings _ _ value _)
    fun _ known _ _ resembling => .done _ (resembling.define _ known)
  callBegins := fun resembling _ alive alive' _ _ _ => resembling.mark alive alive' _
  callEnds := fun _ => preserve_publish_resembling settings _ _ _ _
  activateBegins := fun _ _ resembling _ _ => resembling
  enters := fun _ inputs known _ resembling _ => resembling.enter known inputs _
  leaves := fun _ _ _ _ _ resembling => resembling.leave
  abandons := fun _ _ => trivial

end Interpreter

end StepGraph
