import StepGraph.Proofs.Running.Facing
import StepGraph.Proofs.Running.Simulation
import StepGraph.Proofs.Running.Termination

/-!
# Mirrored runs

Two runs mirror each other when they run paired graphs with the same values in them, whatever their
outputs, their logs and the states of their functions have to do with each other. A `Mirror` says
what that is, and that each single event, call and publication keeps it; mirrored runs then have the
same end, or the same failure, and what is said of logs and functions holds of the states that they
leave. What a context hands to its caller has to be the same in both.
-/
namespace StepGraph

variable {σ τ : Type}

/-- The log once an event is logged, if runs are traced. -/
def Settings.logged (settings : Settings σ) (event : Event) (log : List Event) : List Event :=
  if settings.config.trace then event :: log else log

@[simp] theorem State.traced_log (state : State σ) (settings : Settings σ) (event : Event) :
    (state.traced settings event).log = settings.logged event state.log := by
  unfold State.traced Settings.logged
  split <;> rfl

/-- Two settings mirror each other when they allow the same depth, and the same functions give the
same answers in states that correspond. -/
structure Settings.Mirrored (left : Settings σ) (right : Settings τ) (hosts : σ → τ → Prop) :
    Prop where
  /-- Both runs may nest equally deep. -/
  maxDepth : left.config.maxDepth = right.config.maxDepth
  /-- The same functions are registered. -/
  contains : ∀ name, left.registry.contains name = right.registry.contains name
  /-- Functions give the same answers with the same warnings. -/
  calls : ∀ {host host'} (function : String) (params : Value), hosts host host' →
    (left.registry.call function params host).result =
        (right.registry.call function params host').result ∧
      (left.registry.call function params host).warnings =
        (right.registry.call function params host').warnings ∧
      hosts (left.registry.call function params host).host
        (right.registry.call function params host').host

/-- Settings mirror themselves. -/
theorem Settings.Mirrored.refl (settings : Settings σ) : settings.Mirrored settings Eq where
  maxDepth := rfl
  contains := fun _ => rfl
  calls := by
    rintro host _ function params rfl
    exact ⟨rfl, rfl, rfl⟩

/-- What two runs that mirror each other have to do with each other. -/
structure Mirror (left : Settings σ) (right : Settings τ) (pairing : Pairing) where
  /-- Graphs whose contexts may stand in each other's place. -/
  stands : Graph → Graph → Prop
  /-- What the outputs of two contexts have to do with each other, where the first runs a graph. -/
  outputs : Graph → Object → Object → Prop
  /-- What the states of the functions have to do with each other. -/
  hosts : σ → τ → Prop
  /-- What the logs have to do with each other. -/
  logs : List Event → List Event → Prop
  /-- The settings of both runs allow the same. -/
  settings : left.Mirrored right hosts
  /-- Warnings may be logged. -/
  warns : ∀ {log log'} (warning : Warning), logs log log' →
    logs (.warning warning :: log) (.warning warning :: log')
  /-- Other events may be logged. -/
  traces : ∀ {log log'} (event : Event), event.isWarning = false → logs log log' →
    logs (left.logged event log) (right.logged event log')
  /-- The results of paired steps may be logged. -/
  reports : ∀ {graph step step' log log'} (value : Value), pairing.steps graph step step' →
    logs log log' → logs (left.logged (.executed step.publishKey step.isHidden value) log)
      (right.logged (.executed step.publishKey step'.isHidden value) log')
  /-- Contexts of graphs that are activated in each other's place stand in each other's place. -/
  stand : ∀ {graph graph'}, pairing.graphs graph graph' → stands graph graph'
  /-- A text refers to paired steps. -/
  finds : ∀ {graph graph'} (text : String), stands graph graph' →
    Option.Rel (pairing.steps graph) (Graph.findStep? graph text) (Graph.findStep? graph' text)
  /-- Contexts begin with outputs as they may be. -/
  starts : ∀ {graph graph'}, pairing.graphs graph graph' → outputs graph [] []
  /-- The results of paired steps may be published. -/
  publishes : ∀ {context context' : Context} {step step'} (value : Value),
    pairing.steps context.graph step step' →
    outputs context.graph context.output context'.output →
    outputs context.graph (context.publish step.publishKey value step.isHidden).output
      (context'.publish step.publishKey value step'.isHidden).output
  /-- Contexts of graphs that are activated in each other's place hand on the same. -/
  hands : ∀ {graph graph' output output'}, pairing.graphs graph graph' →
    outputs graph output output' → output = output'

namespace Mirror

variable {left : Settings σ} {right : Settings τ} {pairing : Pairing}
  (mirror : Mirror left right pairing)

/-- Two contexts that face each other hold the same, except for what goes to their callers. -/
structure Faces (context context' : Context) : Prop where
  /-- Their graphs may stand in each other's place. -/
  graphs : mirror.stands context.graph context'.graph
  /-- The same is published. -/
  values : context.values = context'.values
  /-- The same has been run. -/
  executed : context.executed = context'.executed
  /-- The caller is the same. -/
  parent : context.parent = context'.parent
  /-- Their outputs have to do with each other what they should. -/
  outputs : mirror.outputs context.graph context.output context'.output

/-- What the states of the functions and the logs of two states have to do with each other. -/
def Surroundings (first : State σ) (second : State τ) : Prop :=
  mirror.hosts first.host second.host ∧ mirror.logs first.log second.log

/-- Two states that mirror each other. -/
structure Relates (graphs : List Graph) (first : State σ) (second : State τ) : Prop where
  /-- Their contexts face each other. -/
  facing : first.Facing mirror.Faces graphs second
  /-- Paired graphs are found as templates. -/
  templates : ∀ name, Option.Rel pairing.graphs (Dictionary.find? first.templates name)
    (Dictionary.find? second.templates name)
  /-- Functions and logs are as they should be. -/
  surroundings : mirror.Surroundings first second

variable {mirror}

namespace Faces

variable {context context' : Context}

/-- Of the same name both or neither have been run. -/
theorem hasExecuted (faces : mirror.Faces context context') (name : String) :
    context.hasExecuted name = context'.hasExecuted name := by
  rw [Context.hasExecuted, Context.hasExecuted, faces.executed]

/-- Contexts that face each other cannot be told apart. -/
theorem paired (faces : mirror.Faces context context') : context.Paired pairing context' where
  values := faces.values
  parent := faces.parent
  awaits := by
    intro path _
    have found := mirror.finds (Path.head path) faces.graphs
    unfold Context.awaited?
    generalize Graph.findStep? context.graph (Path.head path) = one at found ⊢
    generalize Graph.findStep? context'.graph (Path.head path) = two at found ⊢
    cases found with
    | none => exact .none
    | @some step step' paired =>
      rw [Option.filter_some, Option.filter_some, Pairing.name paired,
        ← faces.hasExecuted step.name]
      split
      · exact .some paired
      · exact .none
  runs := fun {step step'} _ => faces.hasExecuted step.name
  calls := fun {name} _ => faces.hasExecuted (implicitCallMark ++ name)

/-- The same name may be marked in both. -/
theorem mark (faces : mirror.Faces context context') (name : String) :
    mirror.Faces (context.mark name) (context'.mark name) where
  graphs := by
    rw [Context.mark_graph, Context.mark_graph]
    exact faces.graphs
  values := by rw [Context.mark_values, Context.mark_values, faces.values]
  executed := by
    unfold Context.mark
    rw [← faces.hasExecuted name]
    split
    · exact faces.executed
    · exact congrArg (name :: ·) faces.executed
  parent := by rw [Context.mark_parent, Context.mark_parent, faces.parent]
  outputs := by
    rw [Context.mark_graph, Context.mark_output, Context.mark_output]
    exact faces.outputs

/-- The same value may be published in both, where the outputs remain as they should be. -/
theorem publish (faces : mirror.Faces context context') {key : String} {value : Value}
    {hidden hidden' : Bool}
    (outputs : mirror.outputs context.graph (context.publish key value hidden).output
      (context'.publish key value hidden').output) :
    mirror.Faces (context.publish key value hidden) (context'.publish key value hidden') where
  graphs := faces.graphs
  values := by rw [Context.publish_values, Context.publish_values, faces.values]
  executed := faces.executed
  parent := faces.parent
  outputs := outputs

/-- New contexts of graphs that are activated in each other's place face each other. -/
theorem start {graph graph' : Graph} (paired : pairing.graphs graph graph')
    (inputs : Option Value) (caller : Option ContextId) :
    mirror.Faces (Context.start graph inputs caller) (Context.start graph' inputs caller) :=
  ⟨mirror.stand paired, rfl, rfl, rfl, mirror.starts paired⟩

end Faces

namespace Relates

variable {graphs : List Graph} {first first' : State σ} {second second' : State τ}
  {id : ContextId} {context context' : Context}

/-- Only functions and logs may have changed. -/
theorem of_unmoved (related : mirror.Relates graphs first second) (one : first.Unmoved first')
    (two : second.Unmoved second') (surroundings : mirror.Surroundings first' second') :
    mirror.Relates graphs first' second' where
  facing := related.facing.of_unmoved one two
  templates := by
    rw [one.templates, two.templates]
    exact related.templates
  surroundings := surroundings

/-- An event may be logged, where the logs remain as they should be. -/
theorem traced (related : mirror.Relates graphs first second) {event event' : Event}
    (logs : mirror.logs (left.logged event first.log) (right.logged event' second.log)) :
    mirror.Relates graphs (first.traced left event) (second.traced right event') := by
  refine related.of_unmoved (first.unmoved_traced left event)
    (second.unmoved_traced right event') ⟨?_, ?_⟩
  · rw [State.traced_host, State.traced_host]
    exact related.surroundings.1
  · rw [State.traced_log, State.traced_log]
    exact logs

/-- A context may be changed in both states, as long as the changed contexts face each other. -/
theorem setContext (related : mirror.Relates graphs first second)
    (alive : first.contexts[id]? = some context) {new new' : Context}
    (graph : new.graph = context.graph) (faces : mirror.Faces new new') :
    mirror.Relates graphs (first.setContext id new) (second.setContext id new') :=
  ⟨related.facing.setContext alive graph faces, related.templates, related.surroundings⟩

/-- The same name may be marked in a context of both states. -/
theorem mark (related : mirror.Relates graphs first second)
    (alive : first.contexts[id]? = some context) (alive' : second.contexts[id]? = some context')
    (name : String) :
    mirror.Relates graphs (first.setContext id (context.mark name))
      (second.setContext id (context'.mark name)) :=
  related.setContext alive (context.mark_graph name) ((related.facing.faces alive alive').mark name)

/-- Paired graphs may be defined as templates in both states. -/
theorem define (related : mirror.Relates graphs first second) (name : String)
    {graph graph' : Graph} (paired : pairing.graphs graph graph') :
    mirror.Relates graphs (first.define name graph) (second.define name graph') where
  facing := ⟨related.facing.depths, related.facing.shape, related.facing.lengths,
    related.facing.faces⟩
  templates := by
    intro other
    rw [State.define_templates, State.define_templates]
    by_cases same : other = name
    · rw [same, Dictionary.find?_insert_self, Dictionary.find?_insert_self]
      exact .some paired
    · rw [Dictionary.find?_insert_of_ne _ _ same, Dictionary.find?_insert_of_ne _ _ same]
      exact related.templates other
  surroundings := related.surroundings

/-- Contexts that face each other may be entered in both states. -/
theorem enter (related : mirror.Relates graphs first second) {new new' : Context}
    (faces : mirror.Faces new new') :
    mirror.Relates (graphs ++ [new.graph]) (first.enter new) (second.enter new') :=
  ⟨related.facing.enter faces, related.templates, related.surroundings⟩

/-- The latest activation may be left in both states. -/
theorem leave {graph : Graph} (related : mirror.Relates (graphs ++ [graph]) first second) :
    mirror.Relates graphs first.leave second.leave :=
  ⟨related.facing.leave, related.templates, related.surroundings⟩

/-- States in which runs begin mirror each other when their functions and logs do. -/
theorem reset (surroundings : mirror.Surroundings first second) :
    mirror.Relates [] first.reset second.reset :=
  ⟨.reset first second, fun _ => .none, surroundings⟩

end Relates

open Interpreter

/-- A context in a place runs a graph, if there is one. -/
def Runs (graphs : List Graph) (id : ContextId) (graph : Graph) : Prop :=
  ∀ other, graphs[id]? = some other → other = graph

/-- What is in a place is run there. -/
theorem runs_of_getElem? {graphs : List Graph} {id : ContextId} {graph : Graph}
    (there : graphs[id]? = some graph) : Runs graphs id graph :=
  fun _ found => Option.some.inj (found.symm.trans there)

/-- In every place there is a graph that a context there would run. -/
theorem exists_runs (graphs : List Graph) (id : ContextId) : ∃ graph, Runs graphs id graph := by
  cases there : graphs[id]? with
  | none => exact ⟨[], fun _ found => nomatch there.symm.trans found⟩
  | some graph => exact ⟨graph, runs_of_getElem? there⟩

variable (mirror)

/-- Replies to the same call are logged alike. -/
theorem logs_replied {reply : Reply σ Value} {reply' : Reply τ Value}
    (same : reply.warnings = reply'.warnings) {first : State σ} {second : State τ}
    (logs : mirror.logs first.log second.log) :
    mirror.logs (first.replied reply).log (second.replied reply').log := by
  unfold State.replied
  rw [← same]
  dsimp only
  generalize reply.warnings = warnings
  induction warnings generalizing first second with
  | nil => exact logs
  | cons warning rest ih => exact ih (mirror.warns warning logs)

/-- Outside of contexts, mirrored runs agree. -/
theorem congruence (graphs : List Graph) :
    Congruence left right (Run.Preserve True mirror.Surroundings (mirror.Relates graphs)) where
  done := Run.preserve_pure
  fails := fun failure _ => Run.agrees_fail failure fun _ _ related => related.surroundings
  bind := Run.agrees_bind
  contains := mirror.settings.contains
  calls := by
    intro function params first second related
    obtain ⟨hosts, logs⟩ := related.surroundings
    obtain ⟨answers, warnings, later⟩ := mirror.settings.calls function params hosts
    rw [Run.call_apply, Run.call_apply, answers]
    exact .done _ (related.of_unmoved (first.unmoved_replied _) (second.unmoved_replied _)
      ⟨later, mirror.logs_replied warnings logs⟩)
  traces := by
    intro event other first second related
    rw [Run.trace_apply, Run.trace_apply]
    exact .done _ (related.traced (mirror.traces event other related.surroundings.2))
  warns := by
    intro warning first second related
    exact .done _ (related.of_unmoved ⟨rfl, rfl, rfl⟩ ⟨rfl, rfl, rfl⟩
      ⟨related.surroundings.1, mirror.warns warning related.surroundings.2⟩)

/-- Publishing agrees, where logs and outputs remain as they should be. -/
theorem preserve_publish {graphs : List Graph} (id : ContextId) (key : String) (value : Value)
    {hidden hidden' : Bool}
    (logs : ∀ {log log'}, mirror.logs log log' →
      mirror.logs (left.logged (.executed key hidden value) log)
        (right.logged (.executed key hidden' value) log'))
    (outputs : ∀ {context context' : Context}, graphs[id]? = some context.graph →
      mirror.outputs context.graph context.output context'.output →
      mirror.outputs context.graph (context.publish key value hidden).output
        (context'.publish key value hidden').output) :
    Run.Preserve True mirror.Surroundings (mirror.Relates graphs)
      (Run.publish left id key value hidden) (Run.publish right id key value hidden') := by
  intro first second related
  cases alive : first.contexts[id]? with
  | none =>
    rw [Run.publish_apply_of_none _ _ _ alive]
    exact .stuck _ _ trivial
  | some context =>
    obtain ⟨context', alive', faces⟩ := related.facing.exists_alive alive
    rw [Run.publish_apply _ _ _ alive, Run.publish_apply _ _ _ alive']
    have traced := related.traced (logs related.surroundings.2)
    have there : (first.traced left (.executed key hidden value)).contexts[id]? = some context := by
      rwa [State.traced_contexts]
    refine .done _ (traced.setContext there rfl (faces.publish ?_))
    exact outputs (related.facing.graph alive) faces.outputs

/-- Committing the effects of paired steps agrees. -/
theorem preserve_commit {graphs : List Graph} {id : ContextId} {graph : Graph} {step step' : Step}
    {effect effect' : Effect} (runs : Runs graphs id graph)
    (paired : pairing.steps graph step step')
    (effects : effect.Paired pairing.graphs step effect') :
    Run.Preserve True mirror.Surroundings (mirror.Relates graphs) (commit left id step effect)
      (commit right id step' effect') := by
  cases effects with
  | publish value publishes =>
    have published : Run.Preserve True mirror.Surroundings (mirror.Relates graphs)
        (Run.publish left id step.publishKey value step.isHidden)
        (Run.publish right id step'.publishKey value step'.isHidden) := by
      rw [Pairing.publishKey paired]
      refine mirror.preserve_publish id _ value (mirror.reports value paired) ?_
      intro context context' there outputs
      obtain rfl := runs _ there
      exact mirror.publishes value paired outputs
    refine Run.agrees_bind published fun _ => ?_
    obtain ⟨hidden, matching⟩ := pairing.matching paired
    -- After its result a graph reports that it has run; an action does not.
    cases step with
    | action header work =>
      cases matching
      exact Run.preserve_pure _
    | graph header invocation body =>
      cases matching
      exact (mirror.congruence graphs).traces _ rfl
  | define defines related =>
    intro first second states
    rw [commit, commit, Pairing.name paired]
    exact .done _ (states.define step.name related)
  | nothing comment => exact Run.preserve_pure _

/-- Mirrored runs simulate each other. -/
theorem simulation :
    Simulation (fun _ => mirror.Surroundings) left right .silent .silent Runs pairing
      (fun frame => mirror.Relates frame.graphs) where
  congruence := fun frame => mirror.congruence frame.graphs
  aborts := fun _ _ _ related => related.surroundings
  templates := fun related _ => related.templates _
  maxDepth := mirror.settings.maxDepth
  shape := fun related =>
    ⟨related.facing.depths, related.facing.length,
      related.facing.lengths.trans related.facing.length⟩
  latest := by
    intro frame before before' first second graph _ related
    exact ⟨runs_of_getElem? List.getElem?_concat_length, related.facing.exists_latest⟩
  context := by
    intro frame first second id graph context related _ alive
    obtain ⟨context', alive', faces⟩ := related.facing.exists_alive alive
    exact ⟨runs_of_getElem? (related.facing.graph alive), ⟨context', alive', faces.paired⟩,
      fun caller _ => exists_runs frame.graphs caller⟩
  resolveBegins := fun related _ => related
  resolveEnds := fun related _ => related
  stepBegins := fun related _ alive alive' _ _ => related.mark alive alive' _
  stepEnds := fun runs paired effects => mirror.preserve_commit runs paired effects
  callBegins := fun related _ alive alive' _ _ _ => related.mark alive alive' _
  callEnds := by
    intro frame id graph name output _
    exact mirror.preserve_publish id name output (mirror.traces _ rfl) fun _ outputs => outputs
  activateBegins := fun _ _ related _ _ => related
  enters := fun _ inputs paired _ related _ => related.enter (.start paired inputs _)
  leaves := by
    intro frame before before' first second graph graph' name inputs caller paired _ _ related
    obtain ⟨context, context', rfl, faces, one, two⟩ := related.facing.latestOutput
    rw [one, two]
    exact ⟨mirror.hands paired faces.outputs, related.leave⟩
  abandons := fun _ surroundings => surroundings

/-- Operations on paired graphs at a level agree with those at any level from there on. -/
theorem simulates_level {n m : Nat} (enough : n ≤ m) :
    Simulates (fun _ => mirror.Surroundings) .silent .silent Runs pairing
      (fun frame => mirror.Relates frame.graphs) (level left n) (level right m) := by
  have simulates := mirror.simulation.level n m enough
  rwa [observed_silent, observed_silent] at simulates

/-- Runs of paired graphs end in the same way, and leave functions and logs as they should be. -/
theorem graph_agrees {graph graph' : Graph} (paired : pairing.graphs graph graph') (inputs : Value)
    {state : State σ} {state' : State τ} (surroundings : mirror.Surroundings state state') :
    Outcome.Agrees False mirror.Surroundings (fun _ => mirror.Surroundings)
      (Run.graph left graph inputs state) (Run.graph right graph' inputs state') := by
  obtain ⟨n, levels⟩ := Run.exists_level left right graph graph' inputs inputs state state'
  obtain ⟨one, two⟩ := levels n (Nat.le_refl n)
  have callers : ∀ id, none = some id → ∃ graph, Runs (Frame.mk [] []).graphs id graph := nofun
  have agree : Outcome.Agrees True mirror.Surroundings (fun _ => mirror.Relates [])
      ((level left n).activate rootName graph (some inputs) none state.reset)
      ((level right n).activate rootName graph' (some inputs) none state'.reset) :=
    (mirror.simulates_level (Nat.le_refl n)).activate paired callers _ _ (.reset surroundings)
  rw [one, two] at agree
  exact (agree.mono (fun _ _ _ related => related.surroundings) fun _ _ => id).strict
    (Run.graph_hasEnd left graph inputs state)

end Mirror

/-- Runs of the same graphs mirror each other when functions and logs do. -/
def Mirror.same {left : Settings σ} {right : Settings τ} (hosts : σ → τ → Prop)
    (logs : List Event → List Event → Prop) (settings : left.Mirrored right hosts)
    (warns : ∀ {log log'} (warning : Warning), logs log log' →
      logs (.warning warning :: log) (.warning warning :: log'))
    (traces : ∀ {log log'} (event : Event), event.isWarning = false → logs log log' →
      logs (left.logged event log) (right.logged event log')) :
    Mirror left right (.same .whole) where
  stands := Eq
  outputs := fun _ => Eq
  hosts := hosts
  logs := logs
  settings := settings
  warns := warns
  traces := traces
  reports := by
    rintro graph step _ log log' value ⟨rfl, -, -, -⟩ related
    exact traces _ rfl related
  stand := fun paired => paired.1
  finds := by
    rintro graph _ text rfl
    cases found : Graph.findStep? graph text with
    | none => exact .none
    | some step =>
      obtain ⟨member, acts, -⟩ := Graph.findStep?_eq_some found
      exact .some ⟨rfl, trivial, member, acts⟩
  starts := fun _ => rfl
  publishes := by
    rintro context context' step _ value ⟨rfl, -, -, -⟩ outputs
    simp only [Context.publish, outputs]
  hands := fun _ outputs => outputs

/-- Runs of the same document end in the same way, and leave functions and logs as they should be. -/
theorem Mirror.document_agrees {left : Settings σ} {right : Settings τ}
    (mirror : Mirror left right (.same .whole)) (stored inputs : Value) {state : State σ}
    {state' : State τ} (surroundings : mirror.Surroundings state state') :
    Outcome.Agrees False mirror.Surroundings (fun _ => mirror.Surroundings)
      (Run.document left stored inputs state) (Run.document right stored inputs state') := by
  cases loads : Document.load stored with
  | error cause =>
    rw [Run.document_apply_of_error left loads, Run.document_apply_of_error right loads]
    exact .failed _ surroundings
  | ok document =>
    rw [Run.document_apply left loads, Run.document_apply right loads]
    refine mirror.graph_agrees ⟨rfl, trivial⟩ inputs ⟨?_, ?_⟩
    · rw [State.traced_host, State.traced_host]
      exact surroundings.1
    · rw [State.traced_log, State.traced_log]
      exact mirror.traces _ rfl surroundings.2

end StepGraph
