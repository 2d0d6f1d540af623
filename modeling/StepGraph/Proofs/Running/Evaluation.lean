import StepGraph.Proofs.Graph.Matching
import StepGraph.Proofs.Purity
import StepGraph.Proofs.Running.Primitives

/-!
# Evaluating and committing

Running a step first evaluates it, which reads the context and runs whatever it refers to, and
then commits the one effect it comes to: a value published under the key of the step, or a
template defined under its name. `dispatch_eq` splits the interpreter there. Evaluation goes
through the interpreter only by resolving the paths of the step and by activating bodies, so two
evaluations are related as soon as these operations are, by any relation of runs that is a
`Congruence`. Agreement of runs is one, where they have a `Basis` to agree on.
-/
namespace StepGraph

/-- What a step comes to before anything of it is visible. -/
inductive Effect where
  /-- A value to publish. -/
  | publish (value : Value)
  /-- A graph to define as a template. -/
  | define (graph : Graph)
  /-- Nothing. -/
  | nothing

/-- Whether the failure is that activations would nest deeper than allowed. All other failures come
from a step, whatever runs around it. -/
def Failure.isCyclic : Failure → Bool
  | .cyclicReference _ _ => true
  | _ => false

/-- Whether the step publishes a result when it is run. -/
def Step.publishes (step : Step) : Bool := !step.isComment && !step.definesTemplate

/-- A step that publishes a result does something. -/
theorem Step.acts_of_publishes {step : Step} (publishes : step.publishes = true) :
    step.isComment = false := by
  simp only [Step.publishes, Bool.and_eq_true, Bool.not_eq_eq_eq_not, Bool.not_true] at publishes
  exact publishes.1

/-- A definition does something. -/
theorem Step.acts_of_definesTemplate {step : Step} (defines : step.definesTemplate = true) :
    step.isComment = false := by
  cases step with
  | action header work => cases defines
  | graph header invocation body => rfl

/-- The steps that do something, in the order in which they are tried, are the definitions and the
steps that publish. -/
theorem Graph.acting_hoisted (graph : Graph) :
    Graph.acting (Graph.hoisted graph) =
      graph.filter Step.definesTemplate ++ graph.filter Step.publishes := by
  unfold Graph.acting Graph.hoisted Graph.hoistBy
  rw [List.filter_append, List.filter_filter, List.filter_filter]
  congr 1
  refine List.filter_congr fun step _ => ?_
  cases defines : step.definesTemplate with
  | false => exact Bool.and_false _
  | true =>
    rw [Step.acts_of_definesTemplate defines]
    rfl

/-- An effect that a step can come to, when the graphs it can meet have a property. -/
def Effect.Fits (known : Graph → Prop) (step : Step) : Effect → Prop
  | .publish _ => step.publishes = true
  | .define graph => step.definesTemplate = true ∧ known graph
  | .nothing => step.isComment = true

/-- Effects of steps that are run in each other's place: the same value, or the definitions of
templates that are related. -/
inductive Effect.Paired (graphs : Graph → Graph → Prop) (step : Step) : Effect → Effect → Prop where
  /-- The same value is published. -/
  | publish (value : Value) (publishes : step.publishes = true) :
    Paired graphs step (.publish value) (.publish value)
  /-- Graphs that are related are defined. -/
  | define {graph graph' : Graph} (defines : step.definesTemplate = true)
    (related : graphs graph graph') : Paired graphs step (.define graph) (.define graph')
  /-- Nothing happens. -/
  | nothing (comment : step.isComment = true) : Paired graphs step .nothing .nothing

/-- Whether a step is hidden does not matter for its effects. -/
theorem Effect.Paired.of_withHidden {graphs : Graph → Graph → Prop} {step : Step}
    {effect effect' : Effect} (hidden : Bool)
    (paired : effect.Paired graphs (step.withHidden hidden) effect') :
    effect.Paired graphs step effect' := by
  cases paired with
  | publish value publishes =>
    exact .publish value (by simpa [Step.publishes] using publishes)
  | define defines related => exact .define (by simpa using defines) related
  | nothing comment => exact .nothing (by simpa using comment)

/-- Effects of known steps in each other's place are the same and fit the step. -/
theorem Effect.Paired.fits {scope : Scope} {step : Step} {effect effect' : Effect}
    (paired : effect.Paired (Pairing.same scope).graphs step effect') :
    effect = effect' ∧ effect.Fits scope.known step := by
  cases paired with
  | publish value publishes => exact ⟨rfl, publishes⟩
  | define defines related => exact ⟨congrArg Effect.define related.1, defines, related.2⟩
  | nothing comment => exact ⟨rfl, comment⟩

/-- A step about a graph that runs nothing defines a template. -/
theorem Invocation.definesTemplate_of_mode?_eq_none {invocation : Invocation} {body : Body Step}
    (runs : invocation.mode? body = none) : invocation.definesTemplate body = true := by
  cases defines : invocation.definesTemplate body with
  | true => rfl
  | false =>
    simp only [Invocation.mode?, defines, Bool.false_eq_true, ↓reduceIte] at runs
    split at runs <;> cases runs

/-- A step that defines a template runs nothing. -/
theorem Invocation.mode?_eq_none {invocation : Invocation} {body : Body Step}
    (defines : invocation.definesTemplate body = true) : invocation.mode? body = none := by
  rw [Invocation.mode?, if_pos defines]

/-- A step that runs a body defines no template. -/
theorem Invocation.definesTemplate_of_mode?_eq_some {invocation : Invocation} {body : Body Step}
    {mode : Mode} (runs : invocation.mode? body = some mode) :
    invocation.definesTemplate body = false := by
  cases defines : invocation.definesTemplate body with
  | false => rfl
  | true => simp [Invocation.mode?, defines] at runs

namespace Interpreter

variable {σ τ : Type}

section Splitting

variable (settings : Settings σ) (inner : Interpreter σ) (id : ContextId)

/-- The value of a body that is run in a mode. -/
def bodyValue (header : Header) (inputs : Option Value) (graph : Graph) : Mode → Run σ Value
  | .plain => do
    let inputs ← resolveInputs inner id header.name inputs
    let output ← inner.activate header.name graph (some (.object inputs)) none
    pure (.object output)
  | .map => do
    let inputs ← resolveInputs inner id header.name inputs
    match Dictionary.find? inputs collectionInput with
    | some (.array elements) => do
      let outputs ← Run.collect (runElement inner header.name graph inputs) elements
      pure (.array outputs)
    | other => Run.fail (.typeMismatch header.name (.collection (other.map Value.kind)))
  | .namespaced _ => do
    let inputs ←
      match inputs with
      | none => pure none
      | some inputs => do
        pure (some (Value.object (← resolveInputs inner id header.name (some inputs))))
    let output ← inner.activate header.name graph inputs (some id)
    pure (.object output)

/-- The effect of a step, before it takes place. -/
def evaluate (step : Step) : Run σ Effect :=
  match step with
  | .action header action => do
    match ← runAction settings inner id header.name action with
    | some value => pure (.publish value)
    | none => pure .nothing
  | .graph header invocation body => do
    let graph ← bodyGraph header.name body
    match invocation.mode? body with
    | none => do
      Run.trace settings (.templateDefined header.name)
      pure (.define graph)
    | some mode => do
      Run.trace settings (.subgraphStarted header.name mode)
      let value ← bodyValue inner id header invocation.inputs graph mode
      pure (.publish value)

/-- Let the effect of a step take place. -/
def commit (step : Step) (effect : Effect) : Run σ Unit :=
  match effect with
  | .publish value => do
    Run.publish settings id step.publishKey value step.isHidden
    match step with
    | .action _ _ => pure ()
    | .graph header _ _ => Run.trace settings (.subgraphEnded header.name)
  | .define graph => Run.define step.name graph
  | .nothing => pure ()

/-- Running a body is publishing its value under the key of the step. -/
theorem runBody_eq (header : Header) (invocation : Invocation) (body : Body Step) (graph : Graph)
    {mode : Mode} (runs : invocation.mode? body = some mode) :
    runBody settings inner id header invocation.inputs graph mode =
      (do
        let value ← bodyValue inner id header invocation.inputs graph mode
        Run.publish settings id (Step.graph header invocation body).publishKey value
          header.isHidden) := by
  cases mode with
  | plain =>
    simp only [runBody, runPlain, bodyValue, Step.publishKey, Step.mode?, runs, bind_assoc,
      pure_bind]
    rfl
  | map =>
    simp only [runBody, runMap, bodyValue, Step.publishKey, Step.mode?, runs, bind_assoc]
    congr 1
    funext inputs
    cases Dictionary.find? inputs collectionInput with
    | none => rfl
    | some collection =>
      cases collection with
      | array elements =>
        simp only [bind_assoc, pure_bind]
        rfl
      | _ => rfl
  | namespaced key =>
    simp only [runBody, runNamespaced, bodyValue, Step.publishKey, Step.mode?, runs]
    cases invocation.inputs with
    | none => simp only [bind_assoc, pure_bind]
    | some inputs => simp only [bind_assoc, pure_bind]

/-- Running a step evaluates it and commits its effect. -/
theorem dispatch_eq (step : Step) :
    dispatch settings inner id step =
      (do
        let effect ← evaluate settings inner id step
        commit settings id step effect) := by
  cases step with
  | action header action =>
    simp only [dispatch, evaluate, bind_assoc]
    congr 1
    funext result
    cases result with
    | none => rfl
    | some value =>
      simp only [pure_bind, commit, bind_pure_unit]
      rfl
  | graph header invocation body =>
    simp only [dispatch, runGraph, evaluate, bind_assoc]
    congr 1
    funext graph
    cases runs : invocation.mode? body with
    | none =>
      simp only [bind_assoc, pure_bind]
      rfl
    | some mode =>
      simp only [runBody_eq settings inner id header invocation body graph runs, bind_assoc,
        pure_bind]
      rfl

end Splitting

section Committing

variable (settings : Settings σ) {state : State σ} {id : ContextId} {context : Context}

/-- The state once the result of a step is logged. -/
def reported (step : Step) (value : Value) (state : State σ) : State σ :=
  let logged := state.traced settings (.executed step.publishKey step.isHidden value)
  match step with
  | .action _ _ => logged
  | .graph header _ _ => logged.traced settings (.subgraphEnded header.name)

@[simp] theorem reported_contexts (step : Step) (value : Value) :
    (reported settings step value state).contexts = state.contexts := by
  cases step <;> simp [reported]

@[simp] theorem reported_templates (step : Step) (value : Value) :
    (reported settings step value state).templates = state.templates := by
  cases step <;> simp [reported]

@[simp] theorem reported_depth (step : Step) (value : Value) :
    (reported settings step value state).depth = state.depth := by
  cases step <;> simp [reported]

@[simp] theorem reported_host (step : Step) (value : Value) :
    (reported settings step value state).host = state.host := by
  cases step <;> simp [reported]

/-- Logging the result of a step leaves all but the log as it was. -/
theorem unmoved_reported (state : State σ) (step : Step) (value : Value) :
    state.Unmoved (reported settings step value state) :=
  ⟨reported_contexts settings step value, reported_templates settings step value,
    reported_depth settings step value⟩

/-- Committing a result logs it and publishes it under the key of the step. -/
theorem commit_publish_apply (step : Step) (value : Value)
    (alive : state.contexts[id]? = some context) :
    commit settings id step (.publish value) state =
      .done () ((reported settings step value state).setContext id
        (context.publish step.publishKey value step.isHidden)) := by
  simp only [commit]
  rw [Run.bind_apply_of_done (Run.publish_apply _ _ _ alive)]
  cases step with
  | action header work => rfl
  | graph header invocation body =>
    dsimp only
    rw [Run.trace_apply]
    unfold reported State.traced State.setContext
    split <;> rfl

/-- Nothing can be published in a context that is not alive. -/
theorem commit_publish_apply_of_none (step : Step) (value : Value)
    (lost : state.contexts[id]? = none) :
    commit settings id step (.publish value) state = .stuck (.lostContext id) := by
  simp only [commit]
  rw [Run.bind_apply_of_stuck (Run.publish_apply_of_none _ _ _ lost)]

end Committing

section Executing

variable {step : Step} {state : State σ} {id : ContextId} {context : Context}

/-- A comment is passed over. -/
theorem execute_of_comment (inner : Interpreter σ) (comment : step.isComment = true)
    (id : ContextId) (state : State σ) : execute inner id step state = .done () state := by
  simp only [execute, comment, ↓reduceIte]
  rfl

/-- A step that has been run is passed over. -/
theorem execute_of_executed (inner : Interpreter σ) (acts : step.isComment = false)
    (alive : state.contexts[id]? = some context) (run : context.hasExecuted step.name = true) :
    execute inner id step state = .done () state := by
  simp only [execute, acts, Bool.false_eq_true, ↓reduceIte]
  rw [Run.bind_apply_of_done (Run.mark_apply_of_executed alive run)]
  rfl

/-- A step that has not been run is marked and run. -/
theorem execute_of_fresh (inner : Interpreter σ) (acts : step.isComment = false)
    (alive : state.contexts[id]? = some context)
    (fresh : context.hasExecuted step.name = false) :
    execute inner id step state =
      inner.perform id step (state.setContext id (context.mark step.name)) := by
  simp only [execute, acts, Bool.false_eq_true, ↓reduceIte]
  rw [Run.bind_apply_of_done (Run.mark_apply alive fresh)]
  rfl

end Executing

/-- A step that finds no entry fails by itself. -/
theorem isCyclic_of_entryAt {step : String} {holder key : Value} {failure : Failure}
    (missing : entryAt step holder key = .error failure) : failure.isCyclic = false := by
  unfold entryAt at missing
  split at missing
  case h_5 =>
    cases missing
    rfl
  all_goals cases missing

/-- A relation of runs that is kept by the ways in which runs are put together, by calls of
registered functions and by the log. -/
structure Congruence (left : Settings σ) (right : Settings τ)
    (rel : {α : Type} → Run σ α → Run τ α → Prop) : Prop where
  /-- The same value is related to itself. -/
  done : ∀ {α : Type} (value : α), rel (pure value) (pure value)
  /-- The same failure of a step is related to itself. -/
  fails : ∀ {α : Type} (failure : Failure), failure.isCyclic = false →
    rel (Run.fail failure : Run σ α) (Run.fail failure)
  /-- Related runs may be followed by related runs. -/
  bind : ∀ {α β : Type} {first : Run σ α} {second : Run τ α} {next : α → Run σ β}
    {next' : α → Run τ β}, rel first second → (∀ value, rel (next value) (next' value)) →
    rel (first >>= next) (second >>= next')
  /-- The same functions are registered. -/
  contains : ∀ name, left.registry.contains name = right.registry.contains name
  /-- Calls of functions are related. -/
  calls : ∀ function params, rel (Run.call left function params) (Run.call right function params)
  /-- Events other than warnings may be logged. -/
  traces : ∀ event, event.isWarning = false → rel (Run.trace left event) (Run.trace right event)
  /-- Warnings may be logged. -/
  warns : ∀ warning, rel (Run.warn warning) (Run.warn warning)

/-- What two runs have to agree on outside of contexts: the registered functions, the log and the
templates that they may look up, all of which are known graphs. -/
structure Basis (lenient : Prop) (fail keep : State σ → State τ → Prop) (scope : Scope)
    (left : Settings σ) (right : Settings τ) : Prop where
  /-- A failure may come at any time. -/
  aborts : ∀ first second, keep first second → fail first second
  /-- The same functions are registered. -/
  contains : ∀ name, left.registry.contains name = right.registry.contains name
  /-- Functions give the same answers. -/
  calls : ∀ function params,
    Run.Preserve lenient fail keep (Run.call left function params) (Run.call right function params)
  /-- Events may be logged. -/
  traces : ∀ event, Run.Preserve lenient fail keep (Run.trace left event) (Run.trace right event)
  /-- Warnings may be logged. -/
  warns : ∀ warning, Run.Preserve lenient fail keep (Run.warn warning) (Run.warn warning)
  /-- The same templates are found. -/
  templates : ∀ first second, keep first second → ∀ name, scope.met name →
    Dictionary.find? first.templates name = Dictionary.find? second.templates name
  /-- Every template that is found is known. -/
  knows : ∀ first second, keep first second → ∀ name graph, scope.met name →
    Dictionary.find? first.templates name = some graph → scope.known graph

/-- Runs agree outside of contexts when the functions answer alike in related states, and states
stay related whatever happens to the log and to the functions. -/
theorem Basis.of_unmoved {lenient : Prop} {fail keep : State σ → State σ → Prop} {scope : Scope}
    {left right : Settings σ} (same : left.registry = right.registry)
    (aborts : ∀ first second, keep first second → fail first second)
    (hosts : ∀ {first second}, keep first second →
      left.registry.AnswersAlike first.host second.host)
    (unmoved : ∀ {first second first' second'}, keep first second → first.Unmoved first' →
      second.Unmoved second' → left.registry.AnswersAlike first'.host second'.host →
      keep first' second')
    (templates : ∀ first second, keep first second → ∀ name, scope.met name →
      Dictionary.find? first.templates name = Dictionary.find? second.templates name)
    (knows : ∀ first second, keep first second → ∀ name graph, scope.met name →
      Dictionary.find? first.templates name = some graph → scope.known graph) :
    Basis lenient fail keep scope left right where
  aborts := aborts
  contains := fun name => by rw [same]
  calls := by
    intro function params first second related
    obtain ⟨answers, later⟩ := (hosts related).call function params
    rw [Run.call_apply, Run.call_apply, ← same, answers]
    exact .done _ (unmoved related (first.unmoved_replied _) (second.unmoved_replied _) later)
  traces := by
    intro event first second related
    rw [Run.trace_apply, Run.trace_apply]
    refine .done _ (unmoved related (first.unmoved_traced left event)
      (second.unmoved_traced right event) ?_)
    rw [State.traced_host, State.traced_host]
    exact hosts related
  warns := by
    intro warning first second related
    have alike : left.registry.AnswersAlike first.host second.host := hosts related
    exact .done _ (unmoved related ⟨rfl, rfl, rfl⟩ ⟨rfl, rfl, rfl⟩ alike)
  templates := templates
  knows := knows

/-- Agreement of runs that have a basis is a congruence. -/
theorem Basis.congruence {lenient : Prop} {fail keep : State σ → State τ → Prop} {scope : Scope}
    {left : Settings σ} {right : Settings τ} (basis : Basis lenient fail keep scope left right) :
    Congruence left right (Run.Preserve lenient fail keep) where
  done := Run.preserve_pure
  fails := fun failure _ => Run.agrees_fail failure basis.aborts
  bind := Run.agrees_bind
  contains := basis.contains
  calls := basis.calls
  traces := fun event _ => basis.traces event
  warns := basis.warns

/-- The same known graphs are found as templates. -/
theorem Basis.templates_paired {lenient : Prop} {fail keep : State σ → State τ → Prop}
    {scope : Scope} {left : Settings σ} {right : Settings τ}
    (basis : Basis lenient fail keep scope left right) {first : State σ} {second : State τ}
    (related : keep first second) {name : String} (met : scope.met name) :
    Option.Rel (Pairing.same scope).graphs (Dictionary.find? first.templates name)
      (Dictionary.find? second.templates name) := by
  rw [← basis.templates _ _ related _ met]
  cases found : Dictionary.find? first.templates name with
  | none => exact .none
  | some graph => exact .some ⟨rfl, basis.knows _ _ related _ _ met found⟩

namespace Congruence

variable {left : Settings σ} {right : Settings τ} {rel : {α : Type} → Run σ α → Run τ α → Prop}
  {inner : Interpreter σ} {inner' : Interpreter τ} {id : ContextId}

/-- The results for each item of a list are related when those for one item are. -/
theorem collect (congruence : Congruence left right rel) {α β : Type} {action : α → Run σ β}
    {action' : α → Run τ β} {items : List α}
    (each : ∀ item ∈ items, rel (action item) (action' item)) :
    rel (Run.collect action items) (Run.collect action' items) := by
  induction items with
  | nil => exact congruence.done _
  | cons item rest ih =>
    refine congruence.bind (each item List.mem_cons_self) fun result => ?_
    refine congruence.bind (ih fun other member => each other (List.mem_cons_of_mem _ member))
      fun results => ?_
    exact congruence.done _

/-- Values of a path are related, with the fallback to its text, when looking for it is. -/
theorem resolvePath (congruence : Congruence left right rel) {path : String}
    (resolves : rel (inner.resolve id path) (inner'.resolve id path)) :
    rel (Interpreter.resolvePath inner id path) (Interpreter.resolvePath inner' id path) := by
  refine congruence.bind resolves fun found => ?_
  cases found with
  | some value => exact congruence.done value
  | none =>
    dsimp only
    split
    · exact congruence.fails _ rfl
    · exact congruence.bind (congruence.warns _) fun _ => congruence.done _

/-- Resolved values are related when looking for them as paths is. -/
theorem resolveValue (congruence : Congruence left right rel) {value : Value}
    (resolves : ∀ path, value.string? = some path →
      rel (inner.resolve id path) (inner'.resolve id path)) :
    rel (Interpreter.resolveValue inner id value) (Interpreter.resolveValue inner' id value) := by
  cases value with
  | string path => exact congruence.resolvePath (resolves path rfl)
  | _ => exact congruence.done _

/-- Resolved parameters are related when looking for their paths is. -/
theorem resolveParams (congruence : Congruence left right rel) {params : Value}
    (resolves : ∀ path ∈ Step.pathsOfParams params,
      rel (inner.resolve id path) (inner'.resolve id path)) :
    rel (Interpreter.resolveParams inner id params)
      (Interpreter.resolveParams inner' id params) := by
  cases params with
  | object entries =>
    refine congruence.bind (congruence.collect fun entry member => ?_)
      fun resolved => congruence.done _
    refine congruence.bind (congruence.resolveValue fun path text => ?_)
      fun value => congruence.done _
    exact resolves path (List.mem_filterMap.mpr ⟨entry, member, text⟩)
  | string path => exact congruence.resolvePath (resolves path List.mem_cons_self)
  | _ => exact congruence.done _

/-- Resolved inputs are related when looking for their paths is. -/
theorem resolveInputs (congruence : Congruence left right rel) {step : String}
    {inputs : Option Value}
    (resolves : ∀ path ∈ (inputs.map Step.pathsOfParams).getD [],
      rel (inner.resolve id path) (inner'.resolve id path)) :
    rel (Interpreter.resolveInputs inner id step inputs)
      (Interpreter.resolveInputs inner' id step inputs) := by
  cases inputs with
  | none => exact congruence.done _
  | some inputs =>
    refine congruence.bind (congruence.resolveParams resolves) fun resolved => ?_
    cases resolved with
    | object fields => exact congruence.done _
    | _ => exact congruence.fails _ rfl

/-- Results of a branch are related when looking for its paths is. -/
theorem runBranch (congruence : Congruence left right rel) {step test : String}
    {cases nodeNames : List Value}
    (resolves : ∀ path ∈ test :: nodeNames.filterMap Value.string?,
      rel (inner.resolve id path) (inner'.resolve id path)) :
    rel (Interpreter.runBranch inner id step test cases nodeNames)
      (Interpreter.runBranch inner' id step test cases nodeNames) := by
  refine congruence.bind (congruence.resolvePath (resolves test List.mem_cons_self))
    fun tested => ?_
  split
  · rename_i node selected
    refine congruence.resolveValue fun path text => resolves path (List.mem_cons_of_mem _ ?_)
    obtain ⟨position, _, placed⟩ := Option.bind_eq_some_iff.mp selected
    exact List.mem_filterMap.mpr ⟨node, List.mem_of_getElem? placed, text⟩
  · exact congruence.fails _ rfl

/-- Answers of a function are related when looking for the paths of its parameters is. -/
theorem runTransform (congruence : Congruence left right rel) {step function : String}
    {params : Value}
    (resolves : ∀ path ∈ Step.pathsOfParams params,
      rel (inner.resolve id path) (inner'.resolve id path)) :
    rel (Interpreter.runTransform left inner id step function params)
      (Interpreter.runTransform right inner' id step function params) := by
  unfold Interpreter.runTransform
  rw [congruence.contains function]
  split
  · refine congruence.bind (congruence.resolveParams resolves) fun params => ?_
    refine congruence.bind (congruence.traces _ rfl) fun _ => ?_
    refine congruence.bind (congruence.calls function params) fun answer => ?_
    cases answer with
    | ok value => exact congruence.done _
    | error cause => exact congruence.fails _ rfl
  · exact congruence.fails _ rfl

/-- Results of an action are related when looking for its paths is. -/
theorem runAction (congruence : Congruence left right rel) {step : String} {action : Action}
    (resolves : ∀ path ∈ Step.pathsOfAction action,
      rel (inner.resolve id path) (inner'.resolve id path)) :
    rel (Interpreter.runAction left inner id step action)
      (Interpreter.runAction right inner' id step action) := by
  cases action with
  | static value => exact congruence.done _
  | «alias» mirror =>
    exact congruence.bind (congruence.resolvePath (resolves mirror List.mem_cons_self))
      fun value => congruence.done _
  | dereference objectPath propNamePath =>
    refine congruence.bind
      (congruence.resolvePath (resolves objectPath List.mem_cons_self)) fun holder => ?_
    refine congruence.bind (congruence.resolvePath
      (resolves propNamePath (List.mem_cons_of_mem _ List.mem_cons_self))) fun key => ?_
    cases entry : entryAt step holder key with
    | ok value => exact congruence.done _
    | error failure => exact congruence.fails _ (isCyclic_of_entryAt entry)
  | branch test cases nodeNames =>
    exact congruence.bind (congruence.runBranch resolves) fun value => congruence.done _
  | transform function params =>
    exact congruence.bind (congruence.runTransform resolves) fun value => congruence.done _
  | comment => exact congruence.done _

/-- Values of two bodies that are run in the same mode are related when looking for the paths of
the inputs and activating the bodies are. -/
theorem bodyValue (congruence : Congruence left right rel) {header header' : Header}
    (names : header.name = header'.name) {inputs : Option Value} {graph graph' : Graph}
    {mode : Mode}
    (resolves : ∀ path ∈ (inputs.map Step.pathsOfParams).getD [],
      rel (inner.resolve id path) (inner'.resolve id path))
    (activates : ∀ given caller, (caller = none ∧ mode.isNamespaced = false) ∨
        (caller = some id ∧ mode.isNamespaced = true) →
      rel (inner.activate header.name graph given caller)
        (inner'.activate header.name graph' given caller)) :
    rel (Interpreter.bodyValue inner id header inputs graph mode)
      (Interpreter.bodyValue inner' id header' inputs graph' mode) := by
  cases mode with
  | plain =>
    simp only [Interpreter.bodyValue, ← names]
    refine congruence.bind (congruence.resolveInputs resolves) fun given => ?_
    exact congruence.bind (activates _ _ (.inl ⟨rfl, rfl⟩)) fun output => congruence.done _
  | map =>
    simp only [Interpreter.bodyValue, ← names]
    refine congruence.bind (congruence.resolveInputs resolves) fun given => ?_
    cases Dictionary.find? given collectionInput with
    | none => exact congruence.fails _ rfl
    | some collection =>
      cases collection with
      | array elements =>
        refine congruence.bind (congruence.collect fun element _ => ?_)
          fun outputs => congruence.done _
        exact congruence.bind (activates _ _ (.inl ⟨rfl, rfl⟩)) fun output => congruence.done _
      | _ => exact congruence.fails _ rfl
  | namespaced key =>
    cases inputs with
    | none =>
      simp only [Interpreter.bodyValue, ← names]
      refine congruence.bind (congruence.done _) fun given => ?_
      exact congruence.bind (activates _ _ (.inr ⟨rfl, rfl⟩)) fun output => congruence.done _
    | some inputs =>
      have resolved : rel (Interpreter.resolveInputs inner id header.name (some inputs))
          (Interpreter.resolveInputs inner' id header'.name (some inputs)) :=
        names ▸ congruence.resolveInputs resolves
      refine congruence.bind resolved fun fields => ?_
      refine congruence.bind (congruence.done _) fun given => ?_
      dsimp only
      rw [← names]
      exact congruence.bind (activates _ _ (.inr ⟨rfl, rfl⟩)) fun output => congruence.done _

end Congruence

section Lifting

variable {α : Type} {lenient : Prop} {fail keep : State σ → State τ → Prop}
  {post : α → State σ → State τ → Prop} {scope : Scope} {graphs : Graph → Graph → Prop}
  {left : Settings σ} {right : Settings τ} {inner : Interpreter σ} {inner' : Interpreter τ}
  {id : ContextId}

/-- Only a comment has no result. -/
theorem runAction_eq_done {step : String} {action : Action} {state final : State σ}
    {result : Option Value}
    (ends : runAction left inner id step action state = .done result final) :
    result = none ↔ action = .comment := by
  have some_of_bind {run : Run σ Value}
      (done : (run >>= fun value => pure (some value)) state = .done result final) :
      result ≠ none := by
    obtain ⟨value, middle, -, last⟩ := Run.exists_of_bind_eq_done done
    cases last
    exact nofun
  cases action with
  | static value =>
    cases ends
    simp
  | «alias» mirror => simpa using some_of_bind ends
  | dereference objectPath propNamePath =>
    obtain ⟨holder, middle, -, rest⟩ := Run.exists_of_bind_eq_done ends
    obtain ⟨key, last, -, rest⟩ := Run.exists_of_bind_eq_done rest
    cases entry : entryAt step holder key with
    | ok value =>
      rw [entry] at rest
      cases rest
      simp
    | error failure =>
      rw [entry] at rest
      cases rest
  | branch test cases nodeNames => simpa using some_of_bind ends
  | transform function params => simpa using some_of_bind ends
  | comment =>
    cases ends
    simp

/-- The result of an action agrees when looking for its paths does; only a comment has none. -/
theorem agrees_runAction (congruence : Congruence left right (Run.Preserve lenient fail keep))
    {step : String} {action : Action}
    (resolves : ∀ path ∈ Step.pathsOfAction action,
      Run.Preserve lenient fail keep (inner.resolve id path) (inner'.resolve id path)) :
    Run.Agrees lenient fail keep
      (fun result first second => keep first second ∧ (result = none ↔ action = .comment))
      (runAction left inner id step action) (runAction right inner' id step action) := by
  intro first second related
  have agrees : Run.Preserve lenient fail keep (runAction left inner id step action)
      (runAction right inner' id step action) := congruence.runAction resolves
  have agree := agrees first second related
  cases ends : runAction left inner id step action first with
  | done result final =>
    rw [ends] at agree
    obtain ⟨final', same, kept⟩ := agree.of_done
    rw [same]
    exact .done result ⟨kept, runAction_eq_done ends⟩
  | failed failure final =>
    rw [ends] at agree
    obtain ⟨final', same, kept⟩ := agree.of_failed
    rw [same]
    exact .failed failure kept
  | stuck reason =>
    rw [ends] at agree
    cases agree with
    | stuck _ _ passes => exact .stuck reason _ passes

/-- What follows on the graphs of matching bodies agrees, if it does for graphs that are related. -/
theorem agrees_bind_bodyGraph {step : String} {body body' : Body Step}
    (bodies : body.Matches graphs body')
    (aborts : ∀ first second, keep first second → fail first second)
    (templates : ∀ name, body = .template name → ∀ first second, keep first second →
      Option.Rel graphs (Dictionary.find? first.templates name)
        (Dictionary.find? second.templates name))
    {next : Graph → Run σ α} {next' : Graph → Run τ α}
    (onward : ∀ {graph graph'}, graphs graph graph' →
      Run.Agrees lenient fail keep post (next graph) (next' graph')) :
    Run.Agrees lenient fail keep post (bodyGraph step body >>= next)
      (bodyGraph step body' >>= next') := by
  intro first second related
  cases bodies with
  | inline same => exact onward same first second related
  | named name =>
    have found := templates name rfl first second related
    generalize held : Dictionary.find? first.templates name = one at found
    generalize held' : Dictionary.find? second.templates name = two at found
    cases found with
    | none =>
      rw [Run.bind_apply_of_failed (bodyGraph_of_none step held),
        Run.bind_apply_of_failed (bodyGraph_of_none step held')]
      exact .failed _ (aborts first second related)
    | some same =>
      rw [Run.bind_apply_of_done (bodyGraph_of_some step held),
        Run.bind_apply_of_done (bodyGraph_of_some step held')]
      exact onward same first second related

/-- What follows on the effects of matching steps agrees, if it does for effects of steps that are
run in each other's place, when looking for their paths and activating the bodies that they can have
do. -/
theorem agrees_bind_evaluate (congruence : Congruence left right (Run.Preserve lenient fail keep))
    (aborts : ∀ first second, keep first second → fail first second) {step step' : Step}
    (matching : step.Matches graphs step')
    (templates : ∀ header invocation name, step = .graph header invocation (.template name) →
      ∀ first second, keep first second → Option.Rel graphs
        (Dictionary.find? first.templates name) (Dictionary.find? second.templates name))
    (resolves : ∀ path ∈ step.paths,
      Run.Preserve lenient fail keep (inner.resolve id path) (inner'.resolve id path))
    (activates : ∀ graph graph' given caller, graphs graph graph' →
      caller = none ∨ (caller = some id ∧ step.isNamespaced = true) →
      Run.Preserve lenient fail keep (inner.activate step.name graph given caller)
        (inner'.activate step.name graph' given caller))
    {next : Effect → Run σ α} {next' : Effect → Run τ α}
    (onward : ∀ {effect effect'}, effect.Paired graphs step effect' →
      Run.Agrees lenient fail keep post (next effect) (next' effect')) :
    Run.Agrees lenient fail keep post (evaluate left inner id step >>= next)
      (evaluate right inner' id step' >>= next') := by
  cases matching with
  | action header action =>
    simp only [evaluate, bind_assoc]
    refine Run.agrees_bind (agrees_runAction congruence resolves) fun result => ?_
    rintro first second ⟨related, other⟩
    cases result with
    | none =>
      obtain rfl := other.mp rfl
      exact onward (.nothing rfl) first second related
    | some value =>
      refine onward (.publish value ?_) first second related
      have acts : action ≠ .comment := fun same => nomatch other.mpr same
      cases action <;> first | rfl | contradiction
  | @graph header invocation body body' bodies =>
    have modes : invocation.mode? body' = invocation.mode? body :=
      (Step.Matches.graph header invocation bodies).mode?
    simp only [evaluate, bind_assoc]
    refine agrees_bind_bodyGraph bodies aborts
      (fun name same => templates header invocation name (same ▸ rfl)) fun {graph graph'} same => ?_
    rw [modes]
    cases runs : invocation.mode? body with
    | none =>
      have defines := Invocation.definesTemplate_of_mode?_eq_none runs
      simp only [bind_assoc, pure_bind]
      refine Run.agrees_bind (congruence.traces _ rfl) fun _ => ?_
      exact onward (.define defines same)
    | some mode =>
      have runnable := Invocation.definesTemplate_of_mode?_eq_some runs
      simp only [bind_assoc, pure_bind]
      refine Run.agrees_bind (congruence.traces _ rfl) fun _ => ?_
      refine Run.agrees_bind (congruence.bodyValue rfl resolves fun given caller source =>
        activates graph graph' given caller same (source.imp And.left fun both => ⟨both.1, ?_⟩))
        fun value => onward (.publish value ?_)
      · rw [Step.isNamespaced, Step.mode?, runs]
        exact both.2
      · simp [Step.publishes, Step.isComment, Step.definesTemplate, runnable]

/-- Looking for a template that may be met agrees, and what is found is known. -/
theorem agrees_template? (basis : Basis lenient fail keep scope left right) {name : String}
    (met : scope.met name) :
    Run.Agrees lenient fail keep
      (fun found first second =>
        keep first second ∧ ∀ graph, found = some graph → scope.known graph)
      (Run.template? name) (Run.template? name) := by
  intro first second related
  rw [Run.template?_apply, Run.template?_apply, ← basis.templates _ _ related _ met]
  exact .done _ ⟨related, fun graph found => basis.knows _ _ related _ _ met found⟩

/-- The effect of a step agrees, and fits the step, when looking for its paths and activating the
bodies that it can have do. -/
theorem agrees_evaluate (basis : Basis lenient fail keep scope left right) {step : Step}
    (inlined : ∀ header invocation steps, step = .graph header invocation (.inline steps) →
      scope.known steps)
    (named : ∀ header invocation name, step = .graph header invocation (.template name) →
      scope.met name)
    (resolves : ∀ path ∈ step.paths,
      Run.Preserve lenient fail keep (inner.resolve id path) (inner'.resolve id path))
    (activates : ∀ graph given caller, scope.known graph →
      caller = none ∨ (caller = some id ∧ step.isNamespaced = true) →
      Run.Preserve lenient fail keep (inner.activate step.name graph given caller)
        (inner'.activate step.name graph given caller)) :
    Run.Agrees lenient fail keep
      (fun effect first second => keep first second ∧ effect.Fits scope.known step)
      (evaluate left inner id step) (evaluate right inner' id step) := by
  rw [← bind_pure (evaluate left inner id step), ← bind_pure (evaluate right inner' id step)]
  refine agrees_bind_evaluate basis.congruence basis.aborts
    (Step.Matches.refl fun header invocation steps same =>
      ⟨rfl, inlined header invocation steps same⟩)
    (fun header invocation name same first second related =>
      basis.templates_paired related (named header invocation name same))
    resolves (fun graph graph' given caller same source => ?_) fun {effect effect'} paired => ?_
  · obtain ⟨rfl, known⟩ := same
    exact activates graph given caller known source
  · obtain ⟨rfl, fits⟩ := paired.fits
    exact Run.agrees_pure _ fun _ _ related => ⟨related, fits⟩

/-- Letting the effect of a step take place agrees when publishing under its key and defining what
it can define do. -/
theorem preserve_commit (basis : Basis lenient fail keep scope left right) {step : Step}
    {effect : Effect} (fits : effect.Fits scope.known step)
    (publishes : ∀ value, Run.Preserve lenient fail keep
      (Run.publish left id step.publishKey value step.isHidden)
      (Run.publish right id step.publishKey value step.isHidden))
    (defines : ∀ graph, scope.known graph → Run.Preserve lenient fail keep
      (Run.define step.name graph) (Run.define step.name graph)) :
    Run.Preserve lenient fail keep (commit left id step effect) (commit right id step effect) := by
  cases effect with
  | publish value =>
    refine Run.agrees_bind (publishes value) fun _ => ?_
    cases step with
    | action header work => exact Run.preserve_pure _
    | graph header invocation body => exact basis.traces _
  | define graph => exact defines graph fits.2
  | nothing => exact Run.preserve_pure _

end Lifting

end Interpreter

end StepGraph
