import StepGraph.Proofs.Graph.References
import StepGraph.Proofs.Path
import StepGraph.Proofs.Running.Closure
import StepGraph.Proofs.Running.Invariant

/-!
# What steps mean

In an orderless graph every step means something by itself: what it evaluates to when each step
that it refers to is taken for what that one means. Meanings need no state, so that the order in
which steps are run has no say in them. A run of the graph is faithful all along: whatever a step
has published is what the step means.
-/
namespace StepGraph

variable {σ : Type}

/-- The second of two runs goes on where the first finds nothing. -/
theorem Run.orElse_apply {α : Type} (first second : Run σ (Option α)) (state : State σ) :
    Run.orElse first second state =
      match first state with
      | .done none after => second after
      | other => other := by
  show Run.andThen first _ state = _
  unfold Run.andThen
  cases first state with
  | done found after => cases found <;> rfl
  | failed failure after => rfl
  | stuck reason => rfl

/-- The value at a path among some values. -/
def Run.read (values : Object) (path : String) : Run σ (Option Value) :=
  match Path.resolve values path with
  | .ok found => pure found
  | .error cause => Run.fail (.path cause)

namespace Meaning

/-- What a path leads to, given what the step that it refers to means, if there is one. -/
def follow (path : String) : Option (Outcome σ Effect) → Run σ (Option Value)
  | none => pure none
  | some (.done (.publish value) _) => Run.read [(Path.head path, value)] path
  | some (.failed failure _) => Run.fail failure
  | some _ => Run.stuck .cutOff

/-- What a path leads to when the steps of a graph have these meanings. -/
def resolve (inputs : Value) (graph : Graph) (means : Step → Outcome σ Effect) (path : String) :
    Run σ (Option Value) :=
  if Path.head path = inputsKey then Run.read [(inputsKey, inputs)] path
  else do
    let _ ← Run.read [] path
    follow path ((graph.findStep? (Path.head path)).map means)

/-- The operations under which the steps of a graph have these meanings. -/
def interpreter (settings : Settings σ) (enough : Nat) (inputs : Value) (graph : Graph)
    (means : Step → Outcome σ Effect) : Interpreter σ where
  resolve := fun _ path => resolve inputs graph means path
  perform := fun _ _ => Run.stuck .cutOff
  activate := (Interpreter.level settings enough).activate

/-- A state in which nothing has been run. -/
def blank (host : σ) : State σ := (State.start host).enter (Context.start [] none none)

/-- The meanings that a step has to be told: those of the steps that it refers to. -/
def told (graph : Graph) (step : Step) (means : Step → Outcome σ Effect)
    (other : Step) : Outcome σ Effect :=
  if graph.Refers other step then means other else .stuck .cutOff

/-- Whether the steps of a graph have these meanings: each means what it evaluates to when the steps
that it refers to mean what they do. -/
def Fits (settings : Settings σ) (enough : Nat) (inputs : Value) (host : σ) (graph : Graph)
    (means : Step → Outcome σ Effect) : Prop :=
  ∀ step, means step = Interpreter.evaluate settings
    (interpreter settings enough inputs graph (told graph step means)) 0 step (blank host)

/-- Without cycles there are meanings that fit. -/
theorem exists_fits (settings : Settings σ) (enough : Nat) (inputs : Value) (host : σ)
    {graph : Graph} (acyclic : graph.IsAcyclic) :
    ∃ means, Fits settings enough inputs host graph means := by
  let meaning := acyclic.wellFounded.fix (C := fun _ => Outcome σ Effect) fun step means =>
    Interpreter.evaluate settings (interpreter settings enough inputs graph fun other =>
      if refers : graph.Refers other step then means other refers else .stuck .cutOff) 0 step
      (blank host)
  exact ⟨meaning, fun step => acyclic.wellFounded.fix_eq _ step⟩

/-- Meanings that fit one graph fit all graphs of the same steps. -/
theorem Fits.of_mem_iff {settings : Settings σ} {enough : Nat} {inputs : Value} {host : σ}
    {graph other : Graph} {means : Step → Outcome σ Effect} (orderless : graph.IsOrderless)
    (same : ∀ step, step ∈ other ↔ step ∈ graph)
    (fits : Fits settings enough inputs host graph means) :
    Fits settings enough inputs host other means := by
  intro step
  have heard : told other step means = told graph step means := by
    funext target
    simp only [told, Graph.refers_of_mem_iff same]
  have looks : resolve inputs other (told other step means) =
      resolve inputs graph (told graph step means) := by
    funext path
    rw [resolve, resolve, heard, orderless.findStep?_of_mem_iff same]
  rw [fits step, interpreter, interpreter, looks]

/-- A context of an orderless graph in which steps have published what they mean. Some names have
been run, and some steps are being run. -/
structure Published (graph : Graph) (inputs : Value) (means : Step → Outcome σ Effect)
    (names : List String) (pending : List Step) (context : Context) : Prop where
  /-- The context runs the graph. -/
  runs : context.graph = graph
  /-- It has no caller. -/
  detached : context.parent = none
  /-- Its inputs are stored. -/
  given : Dictionary.find? context.values inputsKey = some inputs
  /-- The names have been run. -/
  named : ∀ name ∈ names, context.hasExecuted name = true
  /-- What is being run has been marked. -/
  begun : ∀ step ∈ pending, context.hasExecuted step.name = true
  /-- What has been run to its end has published what it means. -/
  ended : ∀ step ∈ graph, step.isComment = false → context.hasExecuted step.name = true →
    step ∉ pending → ∃ value last, means step = .done (.publish value) last ∧
      Dictionary.find? context.values step.name = some value
  /-- What has not been run to its end has published nothing. -/
  waiting : ∀ step ∈ graph, step.isComment = false →
    context.hasExecuted step.name = false ∨ step ∈ pending →
    Dictionary.find? context.values step.name = none
  /-- Nothing else is stored. -/
  unknown : ∀ name, name ≠ inputsKey → Graph.findStep? graph name = none →
    Dictionary.find? context.values name = none
  /-- The output shows what has been published, unless it is hidden. -/
  output : ∀ name, Dictionary.find? context.output name =
    (Graph.findStep? graph name).bind fun step =>
      if step.isHidden then none else Dictionary.find? context.values name
  /-- The output is a dictionary. -/
  sorted : Dictionary.Sorted context.output

/-- A state of a run of an orderless graph, in its one context. -/
structure Faithful (graph : Graph) (inputs : Value) (means : Step → Outcome σ Effect)
    (names : List String) (pending : List Step) (context : Context) (state : State σ) : Prop where
  /-- Steps have published what they mean. -/
  published : Published graph inputs means names pending context
  /-- No other context is alive. -/
  contexts : state.contexts = [context]
  /-- No template is defined. -/
  templates : state.templates = []
  /-- One activation has been entered. -/
  depth : state.depth = 1

section States

variable {graph : Graph} {inputs : Value} {means : Step → Outcome σ Effect} {names : List String}
  {pending : List Step} {context : Context} {state state' : State σ} {step : Step}

namespace Published

/-- Any names that have been run may be asked for. -/
theorem of_named (published : Published graph inputs means names pending context)
    {others : List String} (named : ∀ name ∈ others, context.hasExecuted name = true) :
    Published graph inputs means others pending context :=
  { published with named }

/-- Steps of one name are the same, where they do something. -/
theorem name_ne (orderless : graph.IsOrderless) (member : step ∈ graph)
    (acts : step.isComment = false) {other : Step} (other_mem : other ∈ graph)
    (other_acts : other.isComment = false) (different : other ≠ step) : other.name ≠ step.name :=
  fun names => different (orderless.apart other other_mem step member other_acts acts names)

/-- A step that has not been run is marked and begins to be run. -/
theorem mark (published : Published graph inputs means names pending context)
    (orderless : graph.IsOrderless) (member : step ∈ graph) (acts : step.isComment = false)
    (fresh : context.hasExecuted step.name = false) :
    Published graph inputs means (step.name :: names) (step :: pending)
      (context.mark step.name) := by
  have marked := context.hasExecuted_mark_self step.name
  have kept (name : String) (run : context.hasExecuted name = true) :
      (context.mark step.name).hasExecuted name = true :=
    Context.hasExecuted_mark_of_executed step.name run
  constructor
  · exact (context.mark_graph _).trans published.runs
  · exact (context.mark_parent _).trans published.detached
  · rw [context.mark_values]
    exact published.given
  · exact List.forall_mem_cons.mpr ⟨marked, fun name old => kept name (published.named name old)⟩
  · exact List.forall_mem_cons.mpr ⟨marked, fun other old => kept _ (published.begun other old)⟩
  · intro other other_mem other_acts run settled
    have different : other ≠ step := fun same => settled (same ▸ List.mem_cons_self)
    rw [context.hasExecuted_mark_of_ne
      (name_ne orderless member acts other_mem other_acts different)] at run
    rw [context.mark_values]
    exact published.ended other other_mem other_acts run fun old =>
      settled (List.mem_cons_of_mem _ old)
  · intro other other_mem other_acts waits
    rw [context.mark_values]
    apply published.waiting other other_mem other_acts
    by_cases same : other = step
    · exact .inl (same ▸ fresh)
    · rw [context.hasExecuted_mark_of_ne
        (name_ne orderless member acts other_mem other_acts same)] at waits
      exact waits.imp_right fun old => (List.mem_cons.mp old).resolve_left same
  · rw [context.mark_values]
    exact published.unknown
  · rw [context.mark_values, context.mark_output]
    exact published.output
  · rw [context.mark_output]
    exact published.sorted

/-- The step that is being run publishes what it means. -/
theorem publish (published : Published graph inputs means names (step :: pending) context)
    (orderless : graph.IsOrderless) (member : step ∈ graph) (acts : step.isComment = false)
    (once : step ∉ pending) {value : Value} {last : State σ}
    (meant : means step = .done (.publish value) last) :
    Published graph inputs means names pending
      (context.publish step.name value step.isHidden) := by
  have clear := orderless.clear step member
  have here : Dictionary.find? (Dictionary.insert context.values step.name value) step.name =
      some value := Dictionary.find?_insert_self _ _ _
  have elsewhere {name : String} (different : name ≠ step.name) :
      Dictionary.find? (Dictionary.insert context.values step.name value) name =
        Dictionary.find? context.values name := Dictionary.find?_insert_of_ne _ _ different
  have found : Graph.findStep? graph step.name = some step :=
    orderless.findStep?_eq_some_iff.mpr ⟨member, acts, rfl⟩
  constructor
  · exact published.runs
  · exact published.detached
  · rw [Context.publish_values, elsewhere clear.symm]
    exact published.given
  · exact published.named
  · exact fun other old => published.begun other (List.mem_cons_of_mem _ old)
  · intro other other_mem other_acts run settled
    rw [Context.publish_values]
    by_cases same : other = step
    · subst same
      exact ⟨value, last, meant, here⟩
    · rw [elsewhere (name_ne orderless member acts other_mem other_acts same)]
      exact published.ended other other_mem other_acts run fun old =>
        settled ((List.mem_cons.mp old).resolve_left same)
  · intro other other_mem other_acts waits
    have different : other ≠ step := by
      rintro rfl
      rcases waits with fresh | old
      · rw [Context.publish_hasExecuted, published.begun other List.mem_cons_self] at fresh
        cases fresh
      · exact once old
    rw [Context.publish_values, elsewhere (name_ne orderless member acts other_mem other_acts
      different)]
    exact published.waiting other other_mem other_acts
      (waits.imp_right (List.mem_cons_of_mem _))
  · intro name other nothing
    have different : name ≠ step.name := by
      rintro rfl
      rw [found] at nothing
      cases nothing
    rw [Context.publish_values, elsewhere different]
    exact published.unknown name other nothing
  · intro name
    rw [Context.publish_values]
    by_cases same : name = step.name
    · subst same
      rw [found, Option.bind_some, here]
      cases hidden : step.isHidden with
      | true =>
        rw [context.publish_output_of_hidden, published.output, found, Option.bind_some, hidden,
          if_pos rfl, if_pos rfl]
      | false =>
        rw [context.publish_output _ _ clear, Dictionary.find?_insert_self]
        rfl
    · rw [elsewhere same, ← published.output, context.find?_publish_output_of_ne _ _ same]
  · cases hidden : step.isHidden with
    | true =>
      rw [context.publish_output_of_hidden]
      exact published.sorted
    | false =>
      rw [context.publish_output _ _ clear]
      exact Dictionary.sorted_insert published.sorted _ _

/-- A context that has just been entered has published nothing. -/
theorem start (orderless : graph.IsOrderless) (inputs : Value)
    (means : Step → Outcome σ Effect) :
    Published graph inputs means [] [] (Context.start graph (some inputs) none) := by
  have stored {name : String} (other : name ≠ inputsKey) :
      Dictionary.find? [(inputsKey, inputs)] name = none := by
    rw [Dictionary.find?, if_neg other.symm, Dictionary.find?]
  constructor
  · rfl
  · rfl
  · exact if_pos rfl
  · exact List.forall_mem_nil _
  · exact List.forall_mem_nil _
  · intro step member acts run
    cases run
  · exact fun step member acts waits => stored (orderless.clear step member)
  · exact fun name other nothing => stored other
  · intro name
    cases found : Graph.findStep? graph name with
    | none => rfl
    | some step =>
      obtain ⟨member, -, rfl⟩ := orderless.findStep?_eq_some_iff.mp found
      have nothing : Dictionary.find? (Context.start graph (some inputs) none).values step.name =
          none := stored (orderless.clear step member)
      rw [Option.bind_some, nothing, ite_self]
      rfl
  · exact List.Pairwise.nil

end Published

namespace Faithful

/-- The one context is alive. -/
theorem alive (faithful : Faithful graph inputs means names pending context state) :
    state.contexts[0]? = some context := by
  rw [faithful.contexts]
  rfl

/-- The log and the state of the functions do not matter. -/
theorem of_unmoved (faithful : Faithful graph inputs means names pending context state)
    (unmoved : state.Unmoved state') :
    Faithful graph inputs means names pending context state' :=
  ⟨faithful.published, unmoved.contexts.trans faithful.contexts,
    unmoved.templates.trans faithful.templates, unmoved.depth.trans faithful.depth⟩

/-- Any names that have been run may be asked for. -/
theorem of_named (faithful : Faithful graph inputs means names pending context state)
    {others : List String} (named : ∀ name ∈ others, context.hasExecuted name = true) :
    Faithful graph inputs means others pending context state :=
  ⟨faithful.published.of_named named, faithful.contexts, faithful.templates, faithful.depth⟩

/-- The context may be changed. -/
theorem setContext (faithful : Faithful graph inputs means names pending context state)
    {names' : List String} {pending' : List Step} {new : Context}
    (published : Published graph inputs means names' pending' new) :
    Faithful graph inputs means names' pending' new (state.setContext 0 new) := by
  refine ⟨published, ?_, faithful.templates, faithful.depth⟩
  rw [State.setContext_contexts, faithful.contexts]
  rfl

/-- The values at a path are looked up in the context. -/
theorem lookup_apply (faithful : Faithful graph inputs means names pending context state)
    (path : String) : Interpreter.lookup 0 path state = Run.read context.values path state := by
  unfold Interpreter.lookup
  rw [Run.bind_apply_of_done (Run.context_apply faithful.alive)]
  rfl

/-- Once nothing is found and the step that a path refers to has been run, if there is one, there
is nowhere else to look. -/
theorem search_apply (faithful : Faithful graph inputs means names pending context state)
    (settings : Settings σ) (inner : Interpreter σ) (path : String) :
    Run.orElse (Interpreter.resolveByTemplate settings inner 0 path)
      (Interpreter.resolveByCaller inner 0 path) state = .done none state := by
  have template : Interpreter.resolveByTemplate settings inner 0 path state = .done none state := by
    unfold Interpreter.resolveByTemplate
    rw [Run.bind_apply_of_done (Run.template?_apply _ state), faithful.templates]
    rfl
  have caller : Interpreter.resolveByCaller inner 0 path state = .done none state := by
    unfold Interpreter.resolveByCaller
    rw [Run.bind_apply_of_done (Run.context_apply faithful.alive), faithful.published.detached]
    cases insideInputs? path <;> rfl
  rw [Run.orElse_apply, template]
  exact caller

/-- Looking among the values is all there is to do, once the step that a path refers to has been
run, if there is one. -/
theorem look_apply (faithful : Faithful graph inputs means names pending context state)
    (settings : Settings σ) (inner : Interpreter σ) (path : String) :
    Run.orElse (Interpreter.lookup 0 path)
      (Run.orElse (Interpreter.resolveByTemplate settings inner 0 path)
        (Interpreter.resolveByCaller inner 0 path)) state =
      Run.read context.values path state := by
  rw [Run.orElse_apply, faithful.lookup_apply, Run.read]
  cases Path.resolve context.values path with
  | error cause => rfl
  | ok value =>
    cases value with
    | some value => rfl
    | none => exact faithful.search_apply settings inner path

/-- A path whose step has been run, or that refers to none, is looked for among the values. -/
theorem tryResolve_apply (faithful : Faithful graph inputs means names pending context state)
    (settings : Settings σ) (inner : Interpreter σ) {path : String}
    (known : ∀ step, Graph.findStep? graph (Path.head path) = some step →
      context.hasExecuted step.name = true) :
    Interpreter.tryResolve settings inner 0 path state = Run.read context.values path state := by
  have passed : Interpreter.resolveByStep inner 0 path state = .done none state := by
    unfold Interpreter.resolveByStep
    rw [Run.bind_apply_of_done (Run.context_apply faithful.alive), faithful.published.runs]
    cases found : Graph.findStep? graph (Path.head path) with
    | none => rfl
    | some step =>
      dsimp only
      rw [known step found]
      rfl
  rw [← faithful.look_apply settings inner path, Interpreter.tryResolve, Run.orElse_apply,
    Run.orElse_apply, faithful.lookup_apply, Run.read]
  cases Path.resolve context.values path with
  | error cause => rfl
  | ok value =>
    cases value with
    | some value => rfl
    | none =>
      show Run.orElse (Interpreter.resolveByStep inner 0 path) _ state = _
      rw [Run.orElse_apply, passed]
      rfl

/-- A path whose step has not been run is looked for once the step has been run. -/
theorem tryResolve_of_waiting (faithful : Faithful graph inputs means names pending context state)
    (settings : Settings σ) (inner : Interpreter σ) {path : String}
    (found : Graph.findStep? graph (Path.head path) = some step)
    (fresh : context.hasExecuted step.name = false)
    (nothing : Path.resolve context.values path = .ok none) :
    Interpreter.tryResolve settings inner 0 path state =
      (do
        Interpreter.execute inner 0 step
        Run.orElse (Interpreter.lookup 0 path)
          (Run.orElse (Interpreter.resolveByTemplate settings inner 0 path)
            (Interpreter.resolveByCaller inner 0 path))) state := by
  have looked : Interpreter.lookup 0 path state = .done none state := by
    rw [faithful.lookup_apply, Run.read, nothing]
    rfl
  have stepped : Interpreter.resolveByStep inner 0 path state =
      (do
        Interpreter.execute inner 0 step
        Interpreter.lookup 0 path) state := by
    unfold Interpreter.resolveByStep
    rw [Run.bind_apply_of_done (Run.context_apply faithful.alive), faithful.published.runs, found]
    dsimp only
    rw [fresh]
    rfl
  rw [Interpreter.tryResolve, Run.orElse_apply, looked]
  dsimp only
  rw [Run.orElse_apply, stepped]
  cases executed : Interpreter.execute inner 0 step state with
  | done value after =>
    rw [Run.bind_apply_of_done executed, Run.bind_apply_of_done executed, Run.orElse_apply]
  | failed failure after =>
    rw [Run.bind_apply_of_failed executed, Run.bind_apply_of_failed executed]
  | stuck reason =>
    rw [Run.bind_apply_of_stuck executed, Run.bind_apply_of_stuck executed]

end Faithful

end States

end Meaning

end StepGraph
