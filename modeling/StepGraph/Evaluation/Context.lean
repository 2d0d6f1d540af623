import StepGraph.Graph.Step

/-!
# Contexts

A context is the state of one activation of a graph: the values published so far, among them the
inputs, the names of the steps already run, and the part of the values that goes to the caller.
-/
namespace StepGraph

/-- The position of a context among those alive, the oldest first. -/
abbrev ContextId := Nat

/-- The key that the inputs of an activation are stored under. -/
def inputsKey : String := "inputs"

/-- The state of one activation. -/
structure Context where
  /-- The graph being run. -/
  graph : Graph
  /-- The inputs and all published results. -/
  values : Object
  /-- The names of the steps already run and of the calls already made. -/
  executed : List String
  /-- The results that go to the caller. -/
  output : Object
  /-- The context of the caller, where it may be read. -/
  parent : Option ContextId
deriving DecidableEq

namespace Context

/-- A new context. Without inputs it has no entry for them at all. -/
def start (graph : Graph) (inputs : Option Value) (parent : Option ContextId) : Context where
  graph
  values :=
    match inputs with
    | some inputs => [(inputsKey, inputs)]
    | none => []
  executed := []
  output := []
  parent

/-- Whether a name has been run. -/
def hasExecuted (context : Context) (name : String) : Bool := context.executed.contains name

/-- Record that a name has been run. -/
def mark (context : Context) (name : String) : Context :=
  if context.hasExecuted name then context
  else { context with executed := name :: context.executed }

/-- Publish a result: paths see it from now on, and it goes to the caller unless it is hidden or
takes the place of the inputs. -/
def publish (context : Context) (key : String) (value : Value) (hidden : Bool) : Context :=
  { context with
    values := Dictionary.insert context.values key value
    output :=
      if hidden || key == inputsKey then context.output
      else Dictionary.insert context.output key value }

end Context

end StepGraph
