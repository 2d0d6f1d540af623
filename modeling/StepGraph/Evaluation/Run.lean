import StepGraph.Evaluation.Context
import StepGraph.Evaluation.Event
import StepGraph.Evaluation.Failure
import StepGraph.Evaluation.Settings

/-!
# Runs

A run takes a state and ends in a value or a failure, each with the state it leaves, or it is
stuck. The state holds the contexts that are alive, as a stack with the oldest first, and the
templates defined so far, which all contexts share. Being stuck is no failure of the graph: it
means that the run was cut off, or that it lost a context, and neither happens to a whole run.
-/
namespace StepGraph

/-- The state of a run. -/
structure State (σ : Type) where
  /-- The contexts that are alive, the oldest first. -/
  contexts : List Context
  /-- The templates defined anywhere in the run. -/
  templates : Dictionary Graph
  /-- How many activations are inside each other. -/
  depth : Nat
  /-- The state of the registered functions. -/
  host : σ
  /-- The events so far, the latest first. -/
  log : List Event
deriving DecidableEq

namespace State

variable {σ : Type}

/-- The state before the first run. -/
def start (host : σ) : State σ := ⟨[], [], 0, host, []⟩

/-- The state in which the next run begins: nothing of the run before is left but the state of
the registered functions and the log. -/
def reset (state : State σ) : State σ := { state with contexts := [], templates := [], depth := 0 }

/-- The events so far in order. -/
def events (state : State σ) : List Event := state.log.reverse

/-- Log an event. -/
def record (state : State σ) (event : Event) : State σ := { state with log := event :: state.log }

/-- Begin an activation in a new context. -/
def enter (state : State σ) (context : Context) : State σ :=
  { state with contexts := state.contexts ++ [context], depth := state.depth + 1 }

/-- End the latest activation. -/
def leave (state : State σ) : State σ :=
  { state with contexts := state.contexts.dropLast, depth := state.depth - 1 }

/-- What the latest context has for its caller. -/
def latestOutput (state : State σ) : Object := (state.contexts.getLast?.map Context.output).getD []

end State

/-- Why a run stops without an end. -/
inductive Stuck where
  /-- It was cut off. -/
  | cutOff
  /-- It refers to a context that is not alive. -/
  | lostContext (id : ContextId)
deriving DecidableEq, Repr

/-- What a run comes to. -/
inductive Outcome (σ α : Type) where
  /-- A value, and the state left. -/
  | done (value : α) (state : State σ)
  /-- A failure, and the state left. -/
  | failed (failure : Failure) (state : State σ)
  /-- No end. -/
  | stuck (reason : Stuck)
deriving DecidableEq

/-- A computation on the state of a run. -/
def Run (σ α : Type) := State σ → Outcome σ α

namespace Run

variable {σ α β : Type}

/-- End with a value. -/
def done (value : α) : Run σ α := fun state => .done value state

/-- End with a failure. -/
def fail (failure : Failure) : Run σ α := fun state => .failed failure state

/-- Stop without an end. -/
def stuck (reason : Stuck) : Run σ α := fun _ => .stuck reason

/-- Go on with the value of a computation, if it has one. -/
def andThen (first : Run σ α) (next : α → Run σ β) : Run σ β := fun state =>
  match first state with
  | .done value state => next value state
  | .failed failure state => .failed failure state
  | .stuck reason => .stuck reason

instance : Monad (Run σ) where
  pure := done
  bind := andThen

/-- The state. -/
def getState : Run σ (State σ) := fun state => .done state state

/-- Change the state. -/
def update (change : State σ → State σ) : Run σ Unit := fun state => .done () (change state)

/-- The value of the second computation where the first one finds nothing. -/
def orElse (first second : Run σ (Option α)) : Run σ (Option α) := do
  match ← first with
  | some value => pure (some value)
  | none => second

/-- Do something for each item in order. -/
def forEach (action : α → Run σ Unit) : List α → Run σ Unit
  | [] => pure ()
  | item :: rest => do
    action item
    forEach action rest

/-- The results for each item in order. -/
def collect (action : α → Run σ β) : List α → Run σ (List β)
  | [] => pure []
  | item :: rest => do
    let result ← action item
    let results ← collect action rest
    pure (result :: results)

/-- A context that is alive. -/
def context (id : ContextId) : Run σ Context := do
  match (← getState).contexts[id]? with
  | some context => pure context
  | none => stuck (.lostContext id)

/-- Change a context that is alive. -/
def updateContext (id : ContextId) (change : Context → Context) : Run σ Unit := do
  let context ← context id
  update fun state => { state with contexts := state.contexts.set id (change context) }

/-- Report something odd. -/
def warn (warning : Warning) : Run σ Unit := update fun state => state.record (.warning warning)

/-- Log an event, if runs are traced. -/
def trace (settings : Settings σ) (event : Event) : Run σ Unit :=
  if settings.config.trace then update fun state => state.record event else pure ()

/-- Record in a context that a name has been run; tell whether it had not been before. -/
def mark (id : ContextId) (name : String) : Run σ Bool := do
  let context ← context id
  updateContext id fun context => context.mark name
  pure !context.hasExecuted name

/-- Publish a result in a context. -/
def publish (settings : Settings σ) (id : ContextId) (key : String) (value : Value)
    (hidden : Bool) : Run σ Unit := do
  trace settings (.executed key hidden value)
  updateContext id fun context => context.publish key value hidden

/-- Define a template, in place of any template of that name. -/
def define (name : String) (graph : Graph) : Run σ Unit :=
  update fun state => { state with templates := Dictionary.insert state.templates name graph }

/-- The template of a name. -/
def template? (name : String) : Run σ (Option Graph) := do
  pure (Dictionary.find? (← getState).templates name)

/-- Call a registered function. -/
def call (settings : Settings σ) (name : String) (params : Value) :
    Run σ (Except TransformError Value) := fun state =>
  let reply := settings.registry.call name params state.host
  let reported := reply.warnings.foldl (fun state warning => state.record (.warning warning)) state
  .done reply.result { reported with host := reply.host }

/-- Run something in a new context and hand on what the context has for its caller; the context
is gone afterwards, also after a failure. -/
def inside (context : Context) (body : Run σ Unit) : Run σ Object := fun state =>
  match body (state.enter context) with
  | .done () state => .done state.latestOutput state.leave
  | .failed failure state => .failed failure state.leave
  | .stuck reason => .stuck reason

end Run

end StepGraph
