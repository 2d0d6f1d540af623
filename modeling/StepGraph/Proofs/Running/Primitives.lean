import StepGraph.Proofs.Running.Agreement

/-!
# Primitive operations on states

What each primitive of a run comes to, as one equation on states: proofs about runs cite these and
open none of the primitives. A primitive on a context that is alive always has a value, and on any
other context it is stuck.
-/
namespace StepGraph

variable {σ τ α : Type}

/-- Putting an item where it is changes nothing. -/
theorem set_eq_self {items : List α} {position : Nat} {item : α}
    (there : items[position]? = some item) : items.set position item = items := by
  obtain ⟨inside, here⟩ := List.getElem?_eq_some_iff.mp there
  subst here
  exact List.set_getElem_self inside

namespace Context

/-- What has been run once a name is marked. -/
theorem hasExecuted_mark (context : Context) (name other : String) :
    (context.mark name).hasExecuted other = (context.hasExecuted other || other == name) := by
  unfold mark
  split
  · rename_i run
    by_cases same : other = name
    · subst same
      rw [run]
      rfl
    · simp [same]
  · simp only [hasExecuted, List.contains_cons, Bool.or_comm]

/-- A name that is marked has been run. -/
theorem hasExecuted_mark_self (context : Context) (name : String) :
    (context.mark name).hasExecuted name = true := by
  rw [hasExecuted_mark, beq_self_eq_true, Bool.or_true]

/-- Marking a name leaves what has been run as it is. -/
theorem hasExecuted_mark_of_executed {context : Context} {other : String} (name : String)
    (run : context.hasExecuted other = true) : (context.mark name).hasExecuted other = true := by
  rw [hasExecuted_mark, run, Bool.true_or]

/-- Marking a name says nothing of other names. -/
theorem hasExecuted_mark_of_ne (context : Context) {name other : String}
    (different : other ≠ name) :
    (context.mark name).hasExecuted other = context.hasExecuted other := by
  rw [hasExecuted_mark, beq_false_of_ne different, Bool.or_false]

section Fields

variable (context : Context) (name key : String) (value : Value) (hidden : Bool)

@[simp] theorem mark_graph : (context.mark name).graph = context.graph := by
  unfold mark
  split <;> rfl

@[simp] theorem mark_parent : (context.mark name).parent = context.parent := by
  unfold mark
  split <;> rfl

@[simp] theorem mark_values : (context.mark name).values = context.values := by
  unfold mark
  split <;> rfl

@[simp] theorem mark_output : (context.mark name).output = context.output := by
  unfold mark
  split <;> rfl

@[simp] theorem publish_graph : (context.publish key value hidden).graph = context.graph := rfl
@[simp] theorem publish_parent : (context.publish key value hidden).parent = context.parent := rfl
@[simp] theorem publish_values :
    (context.publish key value hidden).values = Dictionary.insert context.values key value := rfl
@[simp] theorem publish_hasExecuted (other : String) :
    (context.publish key value hidden).hasExecuted other = context.hasExecuted other := rfl

/-- A hidden result is kept out of the output. -/
theorem publish_output_of_hidden :
    (context.publish key value true).output = context.output := rfl

/-- A result that is not hidden goes to the output, unless it takes the place of the inputs. -/
theorem publish_output (other : key ≠ inputsKey) :
    (context.publish key value false).output = Dictionary.insert context.output key value := by
  simp only [publish, Bool.false_or, beq_iff_eq, if_neg other]

end Fields

/-- Publishing leaves what the output has under other keys as it is. -/
theorem find?_publish_output_of_ne (context : Context) {key name : String} (value : Value)
    (hidden : Bool) (different : name ≠ key) :
    Dictionary.find? (context.publish key value hidden).output name =
      Dictionary.find? context.output name := by
  simp only [publish]
  split
  · rfl
  · exact Dictionary.find?_insert_of_ne _ _ different

end Context

namespace State

/-- Put a context in the place of the one with its position. -/
def setContext (state : State σ) (id : ContextId) (context : Context) : State σ :=
  { state with contexts := state.contexts.set id context }

/-- Log an event, if runs are traced. -/
def traced (settings : Settings σ) (event : Event) (state : State σ) : State σ :=
  if settings.config.trace then state.record event else state

/-- The templates after one more has been defined. -/
def define (state : State σ) (name : String) (graph : Graph) : State σ :=
  { state with templates := Dictionary.insert state.templates name graph }

/-- What the state is after a function has replied. -/
def replied (state : State σ) (reply : Reply σ Value) : State σ :=
  { reply.warnings.foldl (fun state warning => state.record (.warning warning)) state with
    host := reply.host }

/-- Putting a context where it is changes nothing. -/
theorem setContext_self {state : State σ} {id : ContextId} {context : Context}
    (alive : state.contexts[id]? = some context) : state.setContext id context = state := by
  rw [setContext, set_eq_self alive]

section Fields

variable (state : State σ) (settings : Settings σ) (event : Event) (id : ContextId)
  (context : Context)

@[simp] theorem setContext_contexts :
    (state.setContext id context).contexts = state.contexts.set id context := rfl
@[simp] theorem setContext_templates :
    (state.setContext id context).templates = state.templates := rfl
@[simp] theorem setContext_depth : (state.setContext id context).depth = state.depth := rfl
@[simp] theorem setContext_host : (state.setContext id context).host = state.host := rfl

@[simp] theorem enter_contexts :
    (state.enter context).contexts = state.contexts ++ [context] := rfl
@[simp] theorem enter_templates : (state.enter context).templates = state.templates := rfl
@[simp] theorem enter_depth : (state.enter context).depth = state.depth + 1 := rfl

@[simp] theorem leave_contexts : state.leave.contexts = state.contexts.dropLast := rfl
@[simp] theorem leave_templates : state.leave.templates = state.templates := rfl
@[simp] theorem leave_depth : state.leave.depth = state.depth - 1 := rfl

@[simp] theorem define_contexts (name : String) (graph : Graph) :
    (state.define name graph).contexts = state.contexts := rfl
@[simp] theorem define_templates (name : String) (graph : Graph) :
    (state.define name graph).templates = Dictionary.insert state.templates name graph := rfl
@[simp] theorem define_depth (name : String) (graph : Graph) :
    (state.define name graph).depth = state.depth := rfl

@[simp] theorem traced_contexts : (state.traced settings event).contexts = state.contexts := by
  unfold traced
  split <;> rfl

@[simp] theorem traced_templates : (state.traced settings event).templates = state.templates := by
  unfold traced
  split <;> rfl

@[simp] theorem traced_depth : (state.traced settings event).depth = state.depth := by
  unfold traced
  split <;> rfl

@[simp] theorem traced_host : (state.traced settings event).host = state.host := by
  unfold traced
  split <;> rfl

/-- Logging warnings changes the log alone. -/
theorem foldl_record (warnings : List Warning) :
    ∃ log, warnings.foldl (fun state warning => state.record (.warning warning)) state =
      { state with log := log } := by
  induction warnings generalizing state with
  | nil => exact ⟨state.log, rfl⟩
  | cons warning rest ih =>
    obtain ⟨log, same⟩ := ih (state.record (.warning warning))
    exact ⟨log, by rw [List.foldl_cons, same]; rfl⟩

/-- A reply changes the log and the state of the functions alone. -/
theorem exists_replied_eq (reply : Reply σ Value) :
    ∃ log, state.replied reply = { state with log := log, host := reply.host } := by
  obtain ⟨log, same⟩ := foldl_record state reply.warnings
  exact ⟨log, by unfold replied; rw [same]⟩

end Fields

/-- All but the log and the state of the functions is as it was. -/
structure Unmoved (before after : State σ) : Prop where
  /-- The contexts are the same. -/
  contexts : after.contexts = before.contexts
  /-- The templates are the same. -/
  templates : after.templates = before.templates
  /-- The depth is the same. -/
  depth : after.depth = before.depth

/-- Tracing leaves all but the log as it was. -/
theorem unmoved_traced (state : State σ) (settings : Settings σ) (event : Event) :
    state.Unmoved (state.traced settings event) :=
  ⟨state.traced_contexts settings event, state.traced_templates settings event,
    state.traced_depth settings event⟩

/-- A reply leaves all but the log and the state of the functions as it was. -/
theorem unmoved_replied (state : State σ) (reply : Reply σ Value) :
    state.Unmoved (state.replied reply) := by
  obtain ⟨log, same⟩ := state.exists_replied_eq reply
  rw [same]
  exact ⟨rfl, rfl, rfl⟩

/-- A context that is put in a place is there. -/
theorem getElem?_setContext_self {state : State σ} {id : ContextId} {context : Context}
    (alive : state.contexts[id]? = some context) (put : Context) :
    (state.setContext id put).contexts[id]? = some put :=
  List.getElem?_set_self (List.getElem?_eq_some_iff.mp alive).choose

/-- What is alive once a context is put in a place is that one or another from before. -/
theorem eq_or_of_getElem?_setContext {state : State σ} {id other : ContextId}
    {put found : Context} (there : (state.setContext id put).contexts[other]? = some found) :
    (other = id ∧ found = put) ∨ (other ≠ id ∧ state.contexts[other]? = some found) := by
  rw [setContext_contexts, List.getElem?_set] at there
  split at there
  · rename_i same
    split at there
    · exact .inl ⟨same.symm, (Option.some.inj there).symm⟩
    · cases there
  · rename_i different
    exact .inr ⟨Ne.symm different, there⟩

/-- What is alive in a new activation was alive before or is its context. -/
theorem eq_or_of_getElem?_enter {state : State σ} {id : ContextId} {entered found : Context}
    (there : (state.enter entered).contexts[id]? = some found) :
    (id < state.contexts.length ∧ state.contexts[id]? = some found) ∨
      (id = state.contexts.length ∧ found = entered) := by
  rw [enter_contexts, List.getElem?_append] at there
  split at there
  · rename_i old
    exact .inl ⟨old, there⟩
  · rename_i new
    rw [List.getElem?_singleton] at there
    split at there
    · rename_i first
      exact .inr ⟨Nat.le_antisymm (Nat.sub_eq_zero_iff_le.mp first) (Nat.not_lt.mp new),
        (Option.some.inj there).symm⟩
    · cases there

/-- What is alive after an activation was alive in it, below its context. -/
theorem of_getElem?_leave {state : State σ} {id : ContextId} {found : Context}
    (there : state.leave.contexts[id]? = some found) :
    id < state.contexts.length - 1 ∧ state.contexts[id]? = some found := by
  rw [leave_contexts, List.getElem?_dropLast] at there
  split at there
  · rename_i below
    exact ⟨below, there⟩
  · cases there

end State

namespace Run

variable {settings : Settings σ} {state : State σ} {id : ContextId} {context : Context}

/-- A context that is alive is found. -/
theorem context_apply (alive : state.contexts[id]? = some context) :
    Run.context id state = .done context state := by
  unfold Run.context
  rw [bind_apply_of_done (show Run.getState state = .done state state from rfl), alive]
  rfl

/-- A context that is not alive is lost. -/
theorem context_apply_of_none (lost : state.contexts[id]? = none) :
    Run.context id state = .stuck (.lostContext id) := by
  unfold Run.context
  rw [bind_apply_of_done (show Run.getState state = .done state state from rfl), lost]
  rfl

/-- A context that is alive is changed in its place. -/
theorem updateContext_apply (change : Context → Context)
    (alive : state.contexts[id]? = some context) :
    Run.updateContext id change state = .done () (state.setContext id (change context)) := by
  unfold Run.updateContext
  rw [bind_apply_of_done (context_apply alive)]
  rfl

/-- A name that is new is marked. -/
theorem mark_apply {name : String} (alive : state.contexts[id]? = some context)
    (fresh : context.hasExecuted name = false) :
    Run.mark id name state = .done true (state.setContext id (context.mark name)) := by
  unfold Run.mark
  rw [bind_apply_of_done (context_apply alive), bind_apply_of_done (updateContext_apply _ alive),
    fresh]
  rfl

/-- A name that has been marked before is not marked again. -/
theorem mark_apply_of_executed {name : String} (alive : state.contexts[id]? = some context)
    (executed : context.hasExecuted name = true) :
    Run.mark id name state = .done false state := by
  have same : context.mark name = context := by simp only [Context.mark, executed, ↓reduceIte]
  unfold Run.mark
  rw [bind_apply_of_done (context_apply alive), bind_apply_of_done (updateContext_apply _ alive),
    executed, same, State.setContext_self alive]
  rfl

/-- Nothing can be marked in a context that is not alive. -/
theorem mark_apply_of_none (name : String) (lost : state.contexts[id]? = none) :
    Run.mark id name state = .stuck (.lostContext id) := by
  unfold Run.mark
  rw [bind_apply_of_stuck (context_apply_of_none lost)]

/-- Tracing logs an event, if runs are traced. -/
theorem trace_apply (event : Event) :
    Run.trace settings event state = .done () (state.traced settings event) := by
  unfold Run.trace State.traced
  split <;> rfl

/-- Publishing logs the result and stores it. -/
theorem publish_apply (key : String) (value : Value) (hidden : Bool)
    (alive : state.contexts[id]? = some context) :
    Run.publish settings id key value hidden state =
      .done () ((state.traced settings (.executed key hidden value)).setContext id
        (context.publish key value hidden)) := by
  unfold Run.publish
  rw [bind_apply_of_done (trace_apply _)]
  exact updateContext_apply _ (by rwa [State.traced_contexts])

/-- Nothing can be published in a context that is not alive. -/
theorem publish_apply_of_none (key : String) (value : Value) (hidden : Bool)
    (lost : state.contexts[id]? = none) :
    Run.publish settings id key value hidden state = .stuck (.lostContext id) := by
  unfold Run.publish Run.updateContext
  rw [← State.traced_contexts state settings (.executed key hidden value)] at lost
  rw [bind_apply_of_done (trace_apply _), bind_apply_of_stuck (context_apply_of_none lost)]

/-- A template is looked up. -/
theorem template?_apply (name : String) (state : State σ) :
    Run.template? name state = .done (Dictionary.find? state.templates name) state := rfl

/-- A registered function replies. -/
theorem call_apply (name : String) (params : Value) :
    Run.call settings name params state =
      .done (settings.registry.call name params state.host).result
        (state.replied (settings.registry.call name params state.host)) := rfl

/-- What runs inside a context is run once it has been entered, and the context is left. -/
theorem inside_apply (context : Context) (body : Run σ Unit) (state : State σ) :
    Run.inside context body state =
      match body (state.enter context) with
      | .done () state => .done state.latestOutput state.leave
      | .failed failure state => .failed failure state.leave
      | .stuck reason => .stuck reason := rfl

/-- A document that is loaded is run by running its graph. -/
theorem document_apply (settings : Settings σ) {stored : Value} {document : Document}
    (loads : Document.load stored = .ok document) (inputs : Value) (state : State σ) :
    Run.document settings stored inputs state =
      Run.graph settings document.data inputs
        (state.traced settings (.executing document.label document.data.length)) := by
  rw [Run.document, loads]
  exact Run.bind_apply_of_done (Run.trace_apply _)

/-- A document that is not loaded is not run. -/
theorem document_apply_of_error (settings : Settings σ) {stored : Value} {cause : GraphError}
    (refused : Document.load stored = .error cause) (inputs : Value) (state : State σ) :
    Run.document settings stored inputs state = .failed (.graph cause) state := by
  rw [Run.document, refused]
  rfl

end Run

namespace Interpreter

variable {settings : Settings σ} {inner : Interpreter σ} {name : String} {graph : Graph}
  {inputs : Option Value} {caller : Option ContextId} {state final : State σ}

/-- The body of a template that is there is found. -/
theorem bodyGraph_of_some (step : String) {name : String} {graph : Graph} {state : State σ}
    (held : Dictionary.find? state.templates name = some graph) :
    bodyGraph step (.template name) state = .done graph state := by
  rw [bodyGraph, Run.bind_apply_of_done (Run.template?_apply name state), held]
  rfl

/-- A step about a template that is not there fails. -/
theorem bodyGraph_of_none (step : String) {name : String} {state : State σ}
    (missing : Dictionary.find? state.templates name = none) :
    bodyGraph step (.template name) state = .failed (.undefinedTemplate step name) state := by
  rw [bodyGraph, Run.bind_apply_of_done (Run.template?_apply name state), missing]
  rfl

/-- A graph is activated in a context of its own, unless activations are nested too deeply. -/
theorem nested_apply (settings : Settings σ) (inner : Interpreter σ) (name : String)
    (graph : Graph) (inputs : Option Value) (caller : Option ContextId) (state : State σ) :
    nested settings inner name graph inputs caller state =
      if settings.config.maxDepth ≤ state.depth then
        .failed (.cyclicReference name settings.config.maxDepth) state
      else
        Run.inside (Context.start graph inputs caller)
          (executeAll inner state.contexts.length (Graph.hoisted graph)) state := by
  unfold nested
  rw [Run.bind_apply_of_done (show Run.getState state = .done state state from rfl)]
  split <;> rfl

/-- An activation that has an output runs the steps of its graph in a new context and leaves it. -/
theorem exists_of_nested_eq_done {output : Object}
    (ends : nested settings inner name graph inputs caller state = .done output final) :
    state.depth < settings.config.maxDepth ∧ ∃ last,
      executeAll inner state.contexts.length (Graph.hoisted graph)
        (state.enter (Context.start graph inputs caller)) = .done () last ∧
      output = last.latestOutput ∧ final = last.leave := by
  rw [nested_apply] at ends
  split at ends
  · cases ends
  · rename_i shallow
    rw [Run.inside_apply] at ends
    split at ends
    · rename_i last ran
      cases ends
      exact ⟨Nat.lt_of_not_le shallow, last, ran, rfl, rfl⟩
    · cases ends
    · cases ends

/-- Running the steps of a graph in a new context and leaving it is an activation. -/
theorem nested_eq_done {last : State σ} (shallow : state.depth < settings.config.maxDepth)
    (ran : executeAll inner state.contexts.length (Graph.hoisted graph)
      (state.enter (Context.start graph inputs caller)) = .done () last) :
    nested settings inner name graph inputs caller state =
      .done last.latestOutput last.leave := by
  rw [nested_apply, if_neg (Nat.not_le_of_lt shallow), Run.inside_apply, ran]

end Interpreter

end StepGraph
