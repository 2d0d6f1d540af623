import StepGraph.Proofs.Running.Closure

/-!
# Definitions of templates

An activation runs the definitions of templates in its graph before anything else. They look at
nothing but the templates that are there, so what they leave can be computed from these, and two
activations without a caller come to the same as soon as their definitions leave the same
templates, whatever the templates were before.
-/
namespace StepGraph

variable {σ : Type}

/-- The graph that a step is about, with these templates. -/
def Step.about? (templates : Dictionary Graph) : Step → Option Graph
  | .action _ _ => none
  | .graph _ _ (.inline steps) => some steps
  | .graph _ _ (.template name) => Dictionary.find? templates name

/-- Mark the names of steps in order. -/
def Context.markAll (context : Context) (steps : List Step) : Context :=
  steps.foldl (fun context step => context.mark step.name) context

/-- The state once definitions that were run in a context have left these templates. -/
def State.settled (state : State σ) (id : ContextId) (context : Context)
    (templates : Dictionary Graph) (log : List Event) : State σ where
  contexts := state.contexts.set id context
  templates
  depth := state.depth
  host := state.host
  log

/-- A definition on the way makes no difference to the state in the end. -/
theorem State.settled_define (state : State σ) (settings : Settings σ) (event : Event)
    (id : ContextId) (before after : Context) (name : String) (graph : Graph)
    (templates : Dictionary Graph) (log : List Event) :
    (((state.setContext id before).traced settings event).define name graph).settled id after
      templates log = state.settled id after templates log := by
  simp only [settled, define_contexts, define_depth, traced_contexts, traced_depth,
    setContext_contexts, setContext_depth, List.set_set, mk.injEq, true_and, and_true]
  exact traced_host _ _ _

@[simp] theorem Context.markAll_graph (context : Context) (steps : List Step) :
    (context.markAll steps).graph = context.graph := by
  induction steps generalizing context with
  | nil => rfl
  | cons step rest ih => exact (ih _).trans (mark_graph ..)

@[simp] theorem Context.markAll_parent (context : Context) (steps : List Step) :
    (context.markAll steps).parent = context.parent := by
  induction steps generalizing context with
  | nil => rfl
  | cons step rest ih => exact (ih _).trans (mark_parent ..)

/-- Two activations entered alike whose definitions left the same templates are alike. -/
theorem Aligned.settled {first second : State σ} (contexts : first.contexts = second.contexts)
    (depths : first.depth = second.depth) (graph : Graph) (inputs : Option Value)
    (steps : List Step) (templates : Dictionary Graph) (log log' : List Event) :
    let start := Context.start graph inputs none
    Aligned first.contexts first.contexts first.depth
      (first.contexts.map Context.graph ++ [graph])
      ((first.enter start).settled first.contexts.length (start.markAll steps) templates log)
      ((second.enter start).settled first.contexts.length (start.markAll steps) templates
        log') := by
  intro start
  refine ⟨?_, ?_, rfl, [start.markAll steps], ?_, ?_, ?_, ?_, ?_⟩
  · simp only [State.settled, State.enter_depth, depths]
  · simp only [State.settled, State.enter_depth, List.length_append, List.length_map,
      List.length_singleton]
    omega
  · simp [State.settled]
  · simp [State.settled, contexts]
  · simp
  · simp [start, Context.start]
  · intro context member caller calls
    obtain rfl := List.mem_singleton.mp member
    rw [Context.markAll_parent] at calls
    cases calls

namespace Graph

/-- The templates once definitions have been run in order where some names have been run before, or
nothing when a definition refers to a template that is not there. -/
def define : List Step → List String → Dictionary Graph → Option (Dictionary Graph)
  | [], _, templates => some templates
  | step :: rest, executed, templates =>
    if executed.contains step.name then define rest executed templates
    else
      (step.about? templates).bind fun graph =>
        define rest (step.name :: executed) (Dictionary.insert templates step.name graph)

/-- The templates once an activation of the graph has run its own definitions. -/
def definitions (graph : Graph) (templates : Dictionary Graph) : Option (Dictionary Graph) :=
  define (graph.filter Step.definesTemplate) [] templates

end Graph

namespace Run

/-- Doing something for two lists in turn. -/
theorem forEach_append {α : Type} (action : α → Run σ Unit) (first second : List α) :
    forEach action (first ++ second) =
      (do
        forEach action first
        forEach action second) := by
  induction first with
  | nil => rfl
  | cons item rest ih => simp only [List.cons_append, forEach, ih, bind_assoc]

end Run

namespace Interpreter

variable {settings : Settings σ} {inner : Interpreter σ}

/-- Running a definition defines the graph that it is about, or fails when there is none. -/
theorem dispatch_definition (settings : Settings σ) (inner : Interpreter σ) {step : Step}
    (defines : step.definesTemplate = true) (id : ContextId) (state : State σ) :
    (∃ graph, step.about? state.templates = some graph ∧
      dispatch settings inner id step state =
        .done () ((state.traced settings (.templateDefined step.name)).define step.name graph)) ∨
    (step.about? state.templates = none ∧
      ∃ failure, dispatch settings inner id step state = .failed failure state) := by
  cases step with
  | action header work => cases defines
  | graph header invocation body =>
    have runs := Invocation.mode?_eq_none (show invocation.definesTemplate body = true from defines)
    have defining (graph : Graph) (found : bodyGraph header.name body state = .done graph state) :
        dispatch settings inner id (.graph header invocation body) state =
          .done () ((state.traced settings (.templateDefined header.name)).define header.name
            graph) := by
      simp only [dispatch, runGraph]
      rw [Run.bind_apply_of_done found, runs]
      dsimp only
      rw [Run.bind_apply_of_done (Run.trace_apply _)]
      rfl
    cases body with
    | inline steps => exact .inl ⟨steps, rfl, defining steps rfl⟩
    | template name =>
      cases held : Dictionary.find? state.templates name with
      | some graph => exact .inl ⟨graph, held, defining graph (bodyGraph_of_some header.name held)⟩
      | none =>
        refine .inr ⟨held, .undefinedTemplate header.name name, ?_⟩
        rw [dispatch, runGraph, Run.bind_apply_of_failed (bodyGraph_of_none header.name held)]

/-- What running definitions in a context comes to: their names are marked and their templates are
left, or they fail. -/
def Defines (id : ContextId) (context : Context) (steps : List Step) (state : State σ)
    (outcome : Outcome σ Unit) : Prop :=
  match Graph.define steps context.executed state.templates with
  | some templates =>
    ∃ log, outcome = .done () (state.settled id (context.markAll steps) templates log)
  | none => ∃ failure last, outcome = .failed failure last

/-- Running definitions in a context leaves the templates that they define. -/
theorem executeAll_definitions (settings : Settings σ) {steps : List Step}
    (defines : ∀ step ∈ steps, step.definesTemplate = true) (n : Nat) {id : ContextId}
    {context : Context} {state : State σ} (alive : state.contexts[id]? = some context) :
    Defines id context steps state (executeAll (level settings (n + 1)) id steps state) := by
  induction steps generalizing context state with
  | nil =>
    refine ⟨state.log, ?_⟩
    rw [State.settled, Context.markAll, List.foldl_nil, set_eq_self alive]
    rfl
  | cons step rest ih =>
    have first := defines step List.mem_cons_self
    have others := fun other member => defines other (List.mem_cons_of_mem _ member)
    have acts := Step.acts_of_definesTemplate first
    rw [Defines, Graph.define, executeAll, Run.forEach, Context.markAll, List.foldl_cons]
    cases run : context.hasExecuted step.name with
    | true =>
      have same : context.mark step.name = context := by
        simp only [Context.mark, run, ↓reduceIte]
      rw [Run.bind_apply_of_done (execute_of_executed _ acts alive run), same,
        show context.executed.contains step.name = true from run, if_pos rfl]
      exact ih others alive
    | false =>
      have there := State.getElem?_setContext_self alive (context.mark step.name)
      have marked : (context.mark step.name).executed = step.name :: context.executed := by
        simp only [Context.mark, run, Bool.false_eq_true, ↓reduceIte]
      have performs := execute_of_fresh (level settings (n + 1)) acts alive run
      rw [show context.executed.contains step.name = false from run,
        if_neg Bool.false_ne_true]
      rcases dispatch_definition settings (level settings n) first id
        (state.setContext id (context.mark step.name)) with
        ⟨graph, about, dispatched⟩ | ⟨about, failure, dispatched⟩
      · rw [State.setContext_templates] at about
        rw [about, Option.bind_some, ← marked, Run.bind_apply_of_done (performs.trans dispatched)]
        rw [← State.traced_contexts _ settings (.templateDefined step.name),
          ← State.define_contexts _ step.name graph] at there
        have defined := ih others there
        rw [Defines, State.define_templates, State.traced_templates, State.setContext_templates]
          at defined
        simp only [State.settled_define] at defined
        exact defined
      · rw [State.setContext_templates] at about
        rw [about, Option.bind_none]
        refine ⟨failure, state.setContext id (context.mark step.name), ?_⟩
        rw [Run.bind_apply_of_failed (performs.trans dispatched)]

/-- Without depth for anything inside, an activation with a definition is cut off. -/
theorem executeAll_cutOff {step : Step} (rest : List Step) (acts : step.isComment = false)
    {id : ContextId} {context : Context} {state : State σ}
    (alive : state.contexts[id]? = some context)
    (fresh : context.hasExecuted step.name = false) :
    executeAll (level settings 0) id (step :: rest) state = .stuck .cutOff := by
  have cut : execute (level settings 0) id step state = .stuck .cutOff := by
    rw [execute_of_fresh _ acts alive fresh]
    rfl
  rw [executeAll, Run.forEach, Run.bind_apply_of_stuck cut]

/-- Running the steps of a list of one is running that step. -/
theorem executeAll_singleton (inner : Interpreter σ) (id : ContextId) (step : Step) :
    executeAll inner id [step] = execute inner id step := by
  show (do execute inner id step; pure ()) = execute inner id step
  exact bind_pure_unit

/-- The steps of a graph are its definitions and then the others. -/
theorem executeAll_hoisted (inner : Interpreter σ) (id : ContextId) (graph : Graph) :
    executeAll inner id (Graph.hoisted graph) =
      (do
        executeAll inner id (graph.filter Step.definesTemplate)
        executeAll inner id (graph.filter fun step => !step.definesTemplate)) :=
  Run.forEach_append _ _ _

/-- Definitions that leave the same templates in two states, run in new contexts: where they end in
the first they end in the second, and the contexts are the same. -/
theorem exists_settled {first second middle : State σ} {start : Context}
    (contexts : first.contexts = second.contexts) (fresh : start.executed = [])
    {steps : List Step} (some_steps : steps ≠ [])
    (defines : ∀ step ∈ steps, step.definesTemplate = true)
    (same : Graph.define steps [] first.templates = Graph.define steps [] second.templates)
    {n : Nat}
    (ran : executeAll (level settings n) first.contexts.length steps (first.enter start) =
      .done () middle) :
    ∃ templates log log',
      middle = (first.enter start).settled first.contexts.length (start.markAll steps) templates
        log ∧
      executeAll (level settings n) first.contexts.length steps (second.enter start) =
        .done () ((second.enter start).settled first.contexts.length (start.markAll steps)
          templates log') := by
  have alive : (first.enter start).contexts[first.contexts.length]? = some start :=
    List.getElem?_concat_length
  have alive' : (second.enter start).contexts[first.contexts.length]? = some start := by
    rw [contexts]
    exact List.getElem?_concat_length
  cases n with
  | zero =>
    obtain ⟨step, rest, rfl⟩ := List.exists_cons_of_ne_nil some_steps
    have acts := Step.acts_of_definesTemplate (defines step List.mem_cons_self)
    rw [executeAll_cutOff rest acts alive (by rw [Context.hasExecuted, fresh]; rfl)] at ran
    cases ran
  | succ n =>
    have one := executeAll_definitions settings defines n alive
    have two := executeAll_definitions settings defines n alive'
    rw [Defines, State.enter_templates, fresh] at one two
    rw [← same] at two
    cases left : Graph.define steps [] first.templates with
    | none =>
      rw [left] at one
      obtain ⟨failure, last, failed⟩ := one
      rw [failed] at ran
      cases ran
    | some templates =>
      rw [left] at one two
      obtain ⟨log, ended⟩ := one
      obtain ⟨log', ended'⟩ := two
      rw [ended] at ran
      cases ran
      exact ⟨templates, log, log', rfl, ended'⟩

/-- Two activations whose own definitions leave the same templates come to the same. -/
theorem activate_of_definitions (pure : settings.registry.IsPure) {first second last : State σ}
    (contexts : first.contexts = second.contexts) (depths : first.depth = second.depth)
    {graph : Graph}
    (same : graph.definitions first.templates = graph.definitions second.templates) {n : Nat}
    {name : String} {inputs : Option Value} {output : Object}
    (ends : (level settings n).activate name graph inputs none first = .done output last) :
    ∃ last', (level settings n).activate name graph inputs none second = .done output last' ∧
      Restored first second last last' := by
  by_cases none_defined : graph.filter Step.definesTemplate = []
  · have templates : first.templates = second.templates := by
      rw [Graph.definitions, Graph.definitions, none_defined] at same
      exact Option.some.inj same
    have agree := agrees_activate_closed pure depths templates (congrArg List.length contexts)
      (Nat.le_refl n) name graph inputs
    rw [ends] at agree
    exact agree.of_done
  · cases n with
    | zero => cases ends
    | succ n =>
      obtain ⟨shallow, final, ran, rfl, rfl⟩ := exists_of_nested_eq_done ends
      rw [executeAll_hoisted] at ran
      obtain ⟨⟨⟩, middle, ran, rest_ran⟩ := Run.exists_of_bind_eq_done ran
      obtain ⟨templates, log, log', rfl, ran'⟩ := exists_settled contexts rfl none_defined
        (fun step member => (List.mem_filter.mp member).2) same ran
      have aligned := Aligned.settled contexts depths graph inputs
        (graph.filter Step.definesTemplate) templates log log'
      have begun : Abreast settings.registry first.contexts first.contexts first.depth
          (Frame.mk (first.contexts.map Context.graph) []) first first :=
        ⟨.of_below rfl rfl, .inl rfl⟩
      have members (step : Step)
          (member : step ∈ graph.filter fun step => !step.definesTemplate) : step ∈ graph :=
        (List.mem_filter.mp member).1
      have rest := (lockstep_aligned (.refl settings) rfl first.depth).preserve_executeAll
        (follows_aligned (.refl settings) rfl first.depth (Nat.le_refl n)) begun trivial members
        _ _ ⟨aligned, .inr pure⟩
      rw [Frame.graphs, List.length_map, rest_ran] at rest
      obtain ⟨final', rest_ran', ended⟩ := rest.of_done
      obtain ⟨outputs, left'⟩ := ended.1.leave begun.1.le_length
      refine ⟨final'.leave, ?_, ?_⟩
      · rw [outputs]
        refine nested_eq_done (depths ▸ shallow) ?_
        rw [executeAll_hoisted, ← contexts, Run.bind_apply_of_done ran', rest_ran']
      · obtain ⟨one, two, depth, depth', left⟩ := left'.restored rfl
        exact ⟨one, two.trans contexts, depth, depth'.trans depths, left⟩

end Interpreter

end StepGraph
