import StepGraph.Proofs.Running.Evaluation
import StepGraph.Proofs.Running.Observation

/-!
# Simulation of runs

One run of the interpreter simulates another, each with settings and an observer of its own, when a
relation of their states is kept by what the primitives do in both. A pairing says which graphs are
activated, and which steps run, in each other's place; the graphs need not be the same, and a
comment has no partner. `Simulation` lists what the relation has to be kept by, one law for each
place of the interpreter that touches a context; `Simulation.level` draws the conclusion for every
level, where the second run may have more levels than the first.

The relation may speak of the frame in which the first run stands: the graphs of the contexts that
are alive, and the tasks that have been marked as run but not ended. Tasks are what runs at most
once in a context: the steps of its graph, and the calls of templates that a path brings about.
-/
namespace StepGraph

/-- What is run at most once in a context. -/
inductive Task where
  /-- A step of its graph. -/
  | step (step : Step)
  /-- The call of a template that a path refers to. -/
  | call (template : String)

/-- The name under which a task is marked as run. -/
def Task.mark : Task → String
  | .step work => work.name
  | .call template => implicitCallMark ++ template

/-- Where a run stands. -/
structure Frame where
  /-- The graphs of the contexts that are alive. -/
  graphs : List Graph
  /-- The tasks that are being run, the latest first, each with its context. -/
  pending : List (ContextId × Task)

namespace Frame

/-- One more task is being run. -/
def begin (frame : Frame) (id : ContextId) (task : Task) : Frame :=
  { frame with pending := (id, task) :: frame.pending }

/-- One more context is alive. -/
def deeper (frame : Frame) (graph : Graph) : Frame :=
  { frame with graphs := frame.graphs ++ [graph] }

end Frame

variable {σ τ α : Type}

namespace Context

/-- The step that a path waits for: the one that it refers to, unless that has been run. -/
def awaited? (context : Context) (path : String) : Option Step :=
  (Graph.findStep? context.graph (Path.head path)).filter fun step =>
    !context.hasExecuted step.name

/-- A path waits for the step that it refers to as long as that has not been run. -/
theorem awaited?_eq_some_iff {context : Context} {path : String} {step : Step} :
    context.awaited? path = some step ↔
      Graph.findStep? context.graph (Path.head path) = some step ∧
        context.hasExecuted step.name = false := by
  rw [awaited?, Option.filter_eq_some_iff, Bool.not_eq_true']

/-- Contexts that cannot be told apart where steps are run in each other's place: the same values
are read in them, the same caller is asked, and paired steps and the same calls are still to be
run. -/
structure Paired (pairing : Pairing) (left right : Context) : Prop where
  /-- The same is published. -/
  values : left.values = right.values
  /-- The caller is the same. -/
  parent : left.parent = right.parent
  /-- Paths wait for paired steps. -/
  awaits : ∀ {path}, pairing.met path →
    Option.Rel (pairing.steps left.graph) (left.awaited? path) (right.awaited? path)
  /-- Of paired steps both have been run, or neither has. -/
  runs : ∀ {step step'}, pairing.steps left.graph step step' →
    left.hasExecuted step.name = right.hasExecuted step.name
  /-- The same calls have been made. -/
  calls : ∀ {name}, pairing.met name →
    left.hasExecuted (implicitCallMark ++ name) = right.hasExecuted (implicitCallMark ++ name)

end Context

/-- What keeps two runs related, in contexts that they may reach. What is live is a context by its
position and the graph that it runs. -/
structure Simulation (fail : List Graph → State σ → State τ → Prop) (left : Settings σ)
    (right : Settings τ) (watch : Observer σ) (watch' : Observer τ)
    (live : List Graph → ContextId → Graph → Prop) (pairing : Pairing)
    (rel : Frame → State σ → State τ → Prop) : Prop where
  /-- Outside of contexts the runs agree. -/
  congruence : ∀ frame,
    Interpreter.Congruence left right (Run.Preserve True (fail frame.graphs) (rel frame))
  /-- A failure may come at any time. -/
  aborts : ∀ frame first second, rel frame first second → fail frame.graphs first second
  /-- Paired graphs are found as templates. -/
  templates : ∀ {frame first second name}, rel frame first second → pairing.met name →
    Option.Rel pairing.graphs (Dictionary.find? first.templates name)
      (Dictionary.find? second.templates name)
  /-- Both runs may nest equally deep. -/
  maxDepth : left.config.maxDepth = right.config.maxDepth
  /-- Activations are nested equally deep, and as many contexts are alive as the frame has
  graphs. -/
  shape : ∀ {frame first second}, rel frame first second → first.depth = second.depth ∧
    first.contexts.length = frame.graphs.length ∧ second.contexts.length = frame.graphs.length
  /-- The latest context runs the latest graph and may be reached. -/
  latest : ∀ {frame before before' first second graph}, rel frame before before' →
    rel (frame.deeper graph) first second →
    live (frame.deeper graph).graphs frame.graphs.length graph ∧
      ∃ context, first.contexts[frame.graphs.length]? = some context ∧ context.graph = graph
  /-- A context that may be reached cannot be told apart from the one in its place in the other
  run, and its caller may be reached. -/
  context : ∀ {frame first second id graph context}, rel frame first second →
    live frame.graphs id graph → first.contexts[id]? = some context →
    live frame.graphs id context.graph ∧
      (∃ context', second.contexts[id]? = some context' ∧ context.Paired pairing context') ∧
      ∀ caller, context.parent = some caller → ∃ graph, live frame.graphs caller graph
  /-- The search for a path begins. -/
  resolveBegins : ∀ {frame first second id graph path}, rel frame first second →
    live frame.graphs id graph →
    rel frame (watch.began (.resolve id path) first) (watch'.began (.resolve id path) second)
  /-- The search for a path ends. -/
  resolveEnds : ∀ {frame first second id graph path}, rel frame first second →
    live frame.graphs id graph →
    rel frame (watch.ended (.resolve id path) first) (watch'.ended (.resolve id path) second)
  /-- Paired steps are marked and begin to be run. -/
  stepBegins : ∀ {frame first second id context context' step step'}, rel frame first second →
    live frame.graphs id context.graph →
    first.contexts[id]? = some context → second.contexts[id]? = some context' →
    pairing.steps context.graph step step' → context.hasExecuted step.name = false →
    rel (frame.begin id (.step step))
      (watch.began (.perform id step) (first.setContext id (context.mark step.name)))
      (watch'.began (.perform id step') (second.setContext id (context'.mark step.name)))
  /-- Paired steps commit their effects and end. -/
  stepEnds : ∀ {frame id graph step step' effect effect'}, live frame.graphs id graph →
    pairing.steps graph step step' → Effect.Paired pairing.graphs step effect effect' →
    Run.Agrees True (fail frame.graphs) (rel (frame.begin id (.step step)))
      (fun _ first second => rel frame (watch.ended (.perform id step) first)
        (watch'.ended (.perform id step') second))
      (Interpreter.commit left id step effect) (Interpreter.commit right id step' effect')
  /-- The call of a template is marked and begins. -/
  callBegins : ∀ {frame first second id context context' name graph}, rel frame first second →
    live frame.graphs id context.graph →
    first.contexts[id]? = some context → second.contexts[id]? = some context' →
    pairing.met name → Dictionary.find? first.templates name = some graph →
    context.hasExecuted (implicitCallMark ++ name) = false →
    rel (frame.begin id (.call name))
      (first.setContext id (context.mark (implicitCallMark ++ name)))
      (second.setContext id (context'.mark (implicitCallMark ++ name)))
  /-- The call of a template publishes its output and ends. -/
  callEnds : ∀ {frame id graph name output}, live frame.graphs id graph →
    Run.Agrees True (fail frame.graphs) (rel (frame.begin id (.call name))) (fun _ => rel frame)
      (Run.publish left id name output true) (Run.publish right id name output true)
  /-- An activation begins. -/
  activateBegins : ∀ {frame first second graph graph' caller} (name : String)
    (inputs : Option Value), rel frame first second → pairing.graphs graph graph' →
    (∀ id, caller = some id → ∃ graph, live frame.graphs id graph) →
    rel frame (watch.began (.activate name graph inputs caller) first)
      (watch'.began (.activate name graph' inputs caller) second)
  /-- The context of an activation is entered. -/
  enters : ∀ {frame first second graph graph' caller} (name : String) (inputs : Option Value),
    pairing.graphs graph graph' →
    (∀ id, caller = some id → ∃ graph, live frame.graphs id graph) → rel frame first second →
    (watch.began (.activate name graph inputs caller) first).depth < left.config.maxDepth →
    rel (frame.deeper graph)
      ((watch.began (.activate name graph inputs caller) first).enter
        (Context.start graph inputs caller))
      ((watch'.began (.activate name graph' inputs caller) second).enter
        (Context.start graph' inputs caller))
  /-- The context of an activation is left, which ends. -/
  leaves : ∀ {frame before before' first second graph graph'} (name : String)
    (inputs : Option Value) (caller : Option ContextId), pairing.graphs graph graph' →
    (∀ id, caller = some id → ∃ graph, live frame.graphs id graph) →
    rel frame before before' → rel (frame.deeper graph) first second →
    first.latestOutput = second.latestOutput ∧
      rel frame (watch.ended (.activate name graph inputs caller) first.leave)
        (watch'.ended (.activate name graph' inputs caller) second.leave)
  /-- The context of an activation is left after a failure. -/
  abandons : ∀ {frame before before' first second graph}, rel frame before before' →
    fail (frame.deeper graph).graphs first second →
    fail frame.graphs first.leave second.leave

/-- Two sets of operations agree on all that are paired and may be reached. -/
structure Interpreter.Simulates (fail : List Graph → State σ → State τ → Prop)
    (watch : Observer σ) (watch' : Observer τ) (live : List Graph → ContextId → Graph → Prop)
    (pairing : Pairing) (rel : Frame → State σ → State τ → Prop) (inner : Interpreter σ)
    (inner' : Interpreter τ) : Prop where
  /-- Looking for a path agrees. -/
  resolve : ∀ {frame id path} (graph : Graph), live frame.graphs id graph → pairing.met path →
    Run.Preserve True (fail frame.graphs) (rel frame) (inner.resolve id path)
      (inner'.resolve id path)
  /-- Running paired steps that are about to begin agrees. -/
  perform : ∀ {frame first second id graph step step'}, live frame.graphs id graph →
    pairing.steps graph step step' →
    rel (frame.begin id (.step step)) (watch.began (.perform id step) first)
      (watch'.began (.perform id step') second) →
    Outcome.Agrees True (fail frame.graphs) (fun _ => rel frame) (inner.perform id step first)
      (inner'.perform id step' second)
  /-- Activating paired graphs agrees. -/
  activate : ∀ {frame name graph graph' inputs caller}, pairing.graphs graph graph' →
    (∀ id, caller = some id → ∃ graph, live frame.graphs id graph) →
    Run.Preserve True (fail frame.graphs) (rel frame) (inner.activate name graph inputs caller)
      (inner'.activate name graph' inputs caller)

/-- Two observed calls agree when the runs inside them do. -/
theorem agrees_around {lenient : Prop} {fail : State σ → State τ → Prop}
    {post : α → State σ → State τ → Prop} {watch : Observer σ} {watch' : Observer τ} {call call' : Call}
    {run : Run σ α} {run' : Run τ α} {first : State σ} {second : State τ}
    (agree : Outcome.Agrees lenient fail
      (fun value state state' => post value (watch.ended call state) (watch'.ended call' state'))
      (run (watch.began call first)) (run' (watch'.began call' second))) :
    Outcome.Agrees lenient fail post (watch.around call run first)
      (watch'.around call' run' second) := by
  unfold Observer.around
  generalize run (watch.began call first) = outcome at agree ⊢
  generalize run' (watch'.began call' second) = other at agree ⊢
  cases agree with
  | done value related => exact .done value related
  | failed failure related => exact .failed failure related
  | stuck reason _ passes => exact .stuck reason _ passes

namespace Interpreter

/-- A path runs the step that it waits for. -/
theorem resolveByStep_eq (inner : Interpreter σ) (id : ContextId) (path : String) :
    resolveByStep inner id path = (do
      let context ← Run.context id
      match context.awaited? path with
      | some step => do
        execute inner id step
        lookup id path
      | none => pure none) := by
  unfold resolveByStep
  congr 1
  funext context
  unfold Context.awaited?
  cases Graph.findStep? context.graph (Path.head path) with
  | none => rfl
  | some step => cases run : context.hasExecuted step.name <;> simp [Option.filter, run]

/-- Running steps passes comments over. -/
theorem executeAll_acting (inner : Interpreter σ) (id : ContextId) (steps : List Step) :
    executeAll inner id (Graph.acting steps) = executeAll inner id steps := by
  induction steps with
  | nil => rfl
  | cons step rest ih =>
    cases comment : step.isComment with
    | true =>
      have passed : execute inner id step = pure () :=
        funext fun state => execute_of_comment inner comment id state
      rw [Graph.acting, List.filter_cons_of_neg (by simp [comment])]
      show executeAll inner id (Graph.acting rest) =
        execute inner id step >>= fun _ => executeAll inner id rest
      rw [ih, passed, pure_bind]
    | false =>
      rw [Graph.acting, List.filter_cons_of_pos (by simp [comment])]
      show (execute inner id step >>= fun _ => executeAll inner id (Graph.acting rest)) =
        execute inner id step >>= fun _ => executeAll inner id rest
      rw [ih]

/-- Evaluating a step does not depend on whether it is hidden. -/
theorem evaluate_withHidden (settings : Settings σ) (inner : Interpreter σ) (id : ContextId)
    (hidden : Bool) (step : Step) :
    evaluate settings inner id (step.withHidden hidden) = evaluate settings inner id step := by
  cases step with
  | action header work => rfl
  | graph header invocation body =>
    have unread (graph : Graph) (mode : Mode) :
        bodyValue inner id { header with isHidden := hidden } invocation.inputs graph mode =
          bodyValue inner id header invocation.inputs graph mode := by
      cases mode <;> rfl
    simp only [Step.withHidden, evaluate, unread]

end Interpreter

namespace Simulation

open Interpreter

variable {fail : List Graph → State σ → State τ → Prop} {left : Settings σ} {right : Settings τ}
  {watch : Observer σ} {watch' : Observer τ} {live : List Graph → ContextId → Graph → Prop}
  {pairing : Pairing} {rel : Frame → State σ → State τ → Prop} {inner : Interpreter σ}
  {inner' : Interpreter τ}

section Reaching

variable {frame : Frame} {id : ContextId} {graph : Graph} {path : String}

/-- What follows on reading a context that may be reached agrees, if it does for contexts that
cannot be told apart. -/
theorem agrees_bind_context (simulation : Simulation fail left right watch watch' live pairing rel)
    (reached : live frame.graphs id graph) {post : α → State σ → State τ → Prop}
    {next : Context → Run σ α} {next' : Context → Run τ α}
    (onward : ∀ {context context' : Context}, live frame.graphs id context.graph →
      context.Paired pairing context' →
      (∀ caller, context.parent = some caller → ∃ graph, live frame.graphs caller graph) →
      Run.Agrees True (fail frame.graphs)
        (fun first second => rel frame first second ∧ first.contexts[id]? = some context ∧
          second.contexts[id]? = some context')
        post (next context) (next' context')) :
    Run.Agrees True (fail frame.graphs) (rel frame) post (Run.context id >>= next)
      (Run.context id >>= next') := by
  intro first second related
  cases alive : first.contexts[id]? with
  | none =>
    rw [Run.bind_apply_of_stuck (Run.context_apply_of_none alive)]
    exact .stuck _ _ trivial
  | some context =>
    obtain ⟨runs, ⟨context', alive', paired⟩, callers⟩ := simulation.context related reached alive
    rw [Run.bind_apply_of_done (Run.context_apply alive),
      Run.bind_apply_of_done (Run.context_apply alive')]
    exact onward runs paired callers first second ⟨related, alive, alive'⟩

/-- Looking among the published values agrees. -/
theorem preserve_lookup (simulation : Simulation fail left right watch watch' live pairing rel)
    (reached : live frame.graphs id graph) (path : String) :
    Run.Preserve True (fail frame.graphs) (rel frame) (lookup id path) (lookup id path) := by
  refine simulation.agrees_bind_context reached fun {context context'} _ paired _ => ?_
  rw [← paired.values]
  cases Path.resolve context.values path with
  | ok found => exact Run.agrees_pure _ fun _ _ related => related.1
  | error cause =>
    exact Run.agrees_fail _ fun _ _ related => simulation.aborts frame _ _ related.1

/-- Running paired steps of a context agrees. -/
theorem agrees_execute (simulation : Simulation fail left right watch watch' live pairing rel)
    (simulates : Simulates fail watch watch' live pairing rel inner inner') {step step' : Step}
    {first : State σ} {second : State τ} {context context' : Context}
    (related : rel frame first second) (reached : live frame.graphs id context.graph)
    (alive : first.contexts[id]? = some context) (alive' : second.contexts[id]? = some context')
    (contexts : context.Paired pairing context')
    (paired : pairing.steps context.graph step step') :
    Outcome.Agrees True (fail frame.graphs) (fun _ => rel frame) (execute inner id step first)
      (execute inner' id step' second) := by
  have acts := pairing.acts paired
  have acts' := Pairing.acts_right paired
  have names := Pairing.name paired
  have same := contexts.runs paired
  -- The steps have one name, so that both have been run or neither has.
  cases run : context.hasExecuted step.name with
  | true =>
    have run' : context'.hasExecuted step'.name = true := by rw [names, ← same, run]
    rw [execute_of_executed _ acts alive run, execute_of_executed _ acts' alive' run']
    exact .done _ related
  | false =>
    have fresh' : context'.hasExecuted step'.name = false := by rw [names, ← same, run]
    rw [execute_of_fresh _ acts alive run, execute_of_fresh _ acts' alive' fresh', names]
    exact simulates.perform reached paired
      (simulation.stepBegins related reached alive alive' paired run)

/-- Running the steps that a path refers to agrees. -/
theorem preserve_resolveByStep
    (simulation : Simulation fail left right watch watch' live pairing rel)
    (simulates : Simulates fail watch watch' live pairing rel inner inner')
    (reached : live frame.graphs id graph) (met : pairing.met path) :
    Run.Preserve True (fail frame.graphs) (rel frame) (resolveByStep inner id path)
      (resolveByStep inner' id path) := by
  rw [resolveByStep_eq, resolveByStep_eq]
  refine simulation.agrees_bind_context reached fun {context context'} runs paired _ => ?_
  have awaits := paired.awaits met
  generalize context.awaited? path = awaited at awaits ⊢
  generalize context'.awaited? path = awaited' at awaits ⊢
  cases awaits with
  | none => exact Run.agrees_pure _ fun _ _ related => related.1
  | some steps =>
    refine Run.agrees_bind (fun first second related => ?_) fun _ =>
      simulation.preserve_lookup reached path
    exact simulation.agrees_execute simulates related.1 runs related.2.1 related.2.2 paired steps

/-- Calling paired templates agrees. -/
theorem agrees_callTemplate (simulation : Simulation fail left right watch watch' live pairing rel)
    (simulates : Simulates fail watch watch' live pairing rel inner inner') {name : String}
    {body body' : Graph} {first : State σ} {second : State τ} (related : rel frame first second)
    (reached : live frame.graphs id graph) (met : pairing.met name)
    (defined : Dictionary.find? first.templates name = some body)
    (paired : pairing.graphs body body') :
    Outcome.Agrees True (fail frame.graphs) (fun _ => rel frame)
      (callTemplate left inner id name body first)
      (callTemplate right inner' id name body' second) := by
  cases alive : first.contexts[id]? with
  | none =>
    rw [callTemplate, Run.bind_apply_of_stuck (Run.mark_apply_of_none _ alive)]
    exact .stuck _ _ trivial
  | some context =>
    obtain ⟨runs, ⟨context', alive', contexts⟩, -⟩ := simulation.context related reached alive
    have same := contexts.calls met
    unfold callTemplate
    cases run : context.hasExecuted (implicitCallMark ++ name) with
    | true =>
      rw [Run.bind_apply_of_done (Run.mark_apply_of_executed alive run),
        Run.bind_apply_of_done (Run.mark_apply_of_executed alive' (same.symm.trans run))]
      exact .done _ related
    | false =>
      rw [Run.bind_apply_of_done (Run.mark_apply alive run),
        Run.bind_apply_of_done (Run.mark_apply alive' (same.symm.trans run))]
      have activates : Run.Preserve True (fail frame.graphs) (rel (frame.begin id (.call name)))
          (inner.activate (implicitCallMark ++ name) body none (some id))
          (inner'.activate (implicitCallMark ++ name) body' none (some id)) :=
        simulates.activate paired fun caller same => ⟨graph, Option.some.inj same ▸ reached⟩
      refine Run.agrees_bind ((simulation.congruence (frame.begin id (.call name))).traces _ rfl)
        (fun _ => ?_) _ _ (simulation.callBegins related runs alive alive' met defined run)
      refine Run.agrees_bind activates fun output => ?_
      exact Run.agrees_bind (simulation.callEnds reached) fun _ => Run.preserve_pure _

/-- Calling the templates that a path refers to agrees. -/
theorem preserve_resolveByTemplate
    (simulation : Simulation fail left right watch watch' live pairing rel)
    (simulates : Simulates fail watch watch' live pairing rel inner inner')
    (reached : live frame.graphs id graph) (met : pairing.met path) :
    Run.Preserve True (fail frame.graphs) (rel frame) (resolveByTemplate left inner id path)
      (resolveByTemplate right inner' id path) := by
  intro first second related
  have found := simulation.templates related (pairing.head met)
  unfold resolveByTemplate
  rw [Run.bind_apply_of_done (Run.template?_apply _ first),
    Run.bind_apply_of_done (Run.template?_apply _ second)]
  generalize defined : Dictionary.find? first.templates (Path.head path) = one at found ⊢
  generalize Dictionary.find? second.templates (Path.head path) = two at found ⊢
  cases found with
  | none => exact .done _ related
  | @some body body' paired =>
    have calls : Run.Agrees True (fail frame.graphs)
        (fun state state' => rel frame state state' ∧
          Dictionary.find? state.templates (Path.head path) = some body)
        (fun _ => rel frame) (callTemplate left inner id (Path.head path) body)
        (callTemplate right inner' id (Path.head path) body') :=
      fun state state' both =>
        simulation.agrees_callTemplate simulates both.1 reached (pairing.head met) both.2 paired
    refine Run.agrees_bind calls (fun called => ?_) first second ⟨related, defined⟩
    cases called with
    | true => exact simulation.preserve_lookup reached path
    | false => exact Run.preserve_pure _

/-- Resolving a path in the context of the caller agrees. -/
theorem preserve_resolveByCaller
    (simulation : Simulation fail left right watch watch' live pairing rel)
    (simulates : Simulates fail watch watch' live pairing rel inner inner')
    (reached : live frame.graphs id graph) (met : pairing.met path) :
    Run.Preserve True (fail frame.graphs) (rel frame) (resolveByCaller inner id path)
      (resolveByCaller inner' id path) := by
  refine simulation.agrees_bind_context reached fun {context context'} _ paired callers => ?_
  rw [← paired.parent]
  cases left : insideInputs? path with
  | none => exact Run.agrees_pure _ fun _ _ related => related.1
  | some rest =>
    cases caller : context.parent with
    | none => exact Run.agrees_pure _ fun _ _ related => related.1
    | some parent =>
      intro first second related
      obtain ⟨outside, known⟩ := callers parent caller
      exact simulates.resolve outside known (pairing.rest met left) first second related.1

/-- Looking for a path, whatever has to be run for it, agrees. -/
theorem preserve_tryResolve (simulation : Simulation fail left right watch watch' live pairing rel)
    (simulates : Simulates fail watch watch' live pairing rel inner inner')
    (reached : live frame.graphs id graph) (met : pairing.met path) :
    Run.Preserve True (fail frame.graphs) (rel frame) (tryResolve left inner id path)
      (tryResolve right inner' id path) :=
  Run.preserve_orElse (simulation.preserve_lookup reached path) <|
    Run.preserve_orElse (simulation.preserve_resolveByStep simulates reached met) <|
      Run.preserve_orElse (simulation.preserve_resolveByTemplate simulates reached met) <|
        simulation.preserve_resolveByCaller simulates reached met

/-- Running paired steps that are about to begin agrees. -/
theorem agrees_perform (simulation : Simulation fail left right watch watch' live pairing rel)
    (simulates : Simulates fail watch watch' live pairing rel inner inner') {step step' : Step}
    {first : State σ} {second : State τ} (reached : live frame.graphs id graph)
    (paired : pairing.steps graph step step')
    (begun : rel (frame.begin id (.step step)) (watch.began (.perform id step) first)
      (watch'.began (.perform id step') second)) :
    Outcome.Agrees True (fail frame.graphs) (fun _ => rel frame)
      (watch.around (.perform id step) (dispatch left inner id step) first)
      (watch'.around (.perform id step') (dispatch right inner' id step') second) := by
  obtain ⟨hidden, matching⟩ := pairing.matching paired
  let inside := frame.begin id (.step step)
  rw [dispatch_eq, dispatch_eq, ← evaluate_withHidden left inner id hidden step]
  refine agrees_around (agrees_bind_evaluate (simulation.congruence inside)
    (simulation.aborts inside) matching (fun header invocation name same state state' related => ?_)
    (fun path path_mem => ?_) (fun body body' given caller bodies source => ?_)
    (fun {effect effect'} effects => ?_) _ _ begun)
  · refine simulation.templates related (pairing.lookups paired ?_)
    cases step <;> cases same
    exact List.mem_cons_self
  · rw [Step.withHidden_paths] at path_mem
    exact simulates.resolve graph reached
      (pairing.lookups paired (Step.mem_lookups_of_path path_mem))
  · rw [Step.withHidden_name]
    refine simulates.activate bodies fun other same => ⟨graph, ?_⟩
    rcases source with rfl | ⟨rfl, -⟩
    · cases same
    · exact Option.some.inj same ▸ reached
  · exact simulation.stepEnds reached paired (effects.of_withHidden hidden)

end Reaching

/-- Running steps of the latest contexts agrees, when those that do something are paired. -/
theorem preserve_executeAll (simulation : Simulation fail left right watch watch' live pairing rel)
    (simulates : Simulates fail watch watch' live pairing rel inner inner') {frame : Frame}
    {before : State σ} {before' : State τ} (begun : rel frame before before') {graph : Graph}
    {steps steps' : List Step}
    (paired : List.Forall₂ (pairing.steps graph) (Graph.acting steps) (Graph.acting steps')) :
    Run.Preserve True (fail (frame.deeper graph).graphs) (rel (frame.deeper graph))
      (executeAll inner frame.graphs.length steps)
      (executeAll inner' frame.graphs.length steps') := by
  rw [← executeAll_acting, ← executeAll_acting inner']
  refine Run.preserve_forEach_paired (paired.imp fun step step' both first second inside => ?_)
  obtain ⟨reached, context, alive, rfl⟩ := simulation.latest begun inside
  obtain ⟨-, ⟨context', alive', contexts⟩, -⟩ := simulation.context inside reached alive
  exact simulation.agrees_execute simulates inside reached alive alive' contexts both

/-- Activating paired graphs agrees. -/
theorem preserve_activate (simulation : Simulation fail left right watch watch' live pairing rel)
    (simulates : Simulates fail watch watch' live pairing rel inner inner') {frame : Frame}
    {name : String} {graph graph' : Graph} {inputs : Option Value} {caller : Option ContextId}
    (paired : pairing.graphs graph graph')
    (reached : ∀ id, caller = some id → ∃ graph, live frame.graphs id graph) :
    Run.Preserve True (fail frame.graphs) (rel frame)
      (watch.around (.activate name graph inputs caller)
        (nested left inner name graph inputs caller))
      (watch'.around (.activate name graph' inputs caller)
        (nested right inner' name graph' inputs caller)) := by
  intro first second related
  refine agrees_around ?_
  have begun := simulation.activateBegins name inputs related paired reached
  -- As many contexts are alive in both, so that the new ones are in the same place.
  obtain ⟨depths, lengths, lengths'⟩ := simulation.shape begun
  rw [nested_apply, nested_apply, ← simulation.maxDepth, ← depths, lengths, lengths']
  split
  · exact .failed _ (simulation.aborts _ _ _ begun)
  · rename_i shallow
    rw [Run.inside_apply, Run.inside_apply]
    have begins := related
    have entered := simulation.enters name inputs paired reached related (Nat.lt_of_not_le shallow)
    have agree := simulation.preserve_executeAll simulates begins (pairing.hoisted paired) _ _
      entered
    generalize executeAll inner _ _ _ = outcome at agree ⊢
    generalize executeAll inner' _ _ _ = other at agree ⊢
    cases agree with
    | done value related =>
      obtain ⟨outputs, left'⟩ := simulation.leaves name inputs caller paired reached begins related
      dsimp only
      rw [outputs]
      exact .done _ left'
    | failed failure related => exact .failed _ (simulation.abandons begins related)
    | stuck reason _ passes => exact .stuck _ _ passes

/-- Operations at a level agree with those at any level from there on. -/
theorem level (simulation : Simulation fail left right watch watch' live pairing rel) (n m : Nat)
    (enough : n ≤ m) :
    Simulates fail watch watch' live pairing rel (observed left watch n)
      (observed right watch' m) := by
  induction n generalizing m with
  | zero =>
    exact ⟨fun _ _ _ _ _ _ => .stuck _ _ trivial, fun _ _ _ => .stuck _ _ trivial,
      fun _ _ _ _ _ => .stuck _ _ trivial⟩
  | succ below ih =>
    obtain ⟨m, rfl⟩ : ∃ above, m = above + 1 := ⟨m - 1, by omega⟩
    have simulates := ih m (by omega)
    refine ⟨fun {frame id path} graph reached met first second related => ?_,
      fun reached paired begun => simulation.agrees_perform simulates reached paired begun,
      fun paired reached => simulation.preserve_activate simulates paired reached⟩
    refine agrees_around ?_
    refine (simulation.preserve_tryResolve simulates reached met _ _
      (simulation.resolveBegins related reached)).mono (fun _ _ _ ended => ?_) fun _ _ kept => kept
    exact simulation.resolveEnds ended reached

end Simulation

end StepGraph
