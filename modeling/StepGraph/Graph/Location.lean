/-!
# Faults of a stored graph

A graph is refused with the cause and the place of the first fault. A place is a trail of step
indexes, each inside the inline body of the step before it.
-/
namespace StepGraph

/-- What a graph was loaded as, which begins the text of every place in it. -/
inductive Origin where
  /-- The data of a document. -/
  | document
  /-- A list of steps. -/
  | steps
deriving DecidableEq, Repr

/-- The text that begins a place. -/
def Origin.text : Origin → String
  | .document => "data"
  | .steps => "graph"

/-- The place of a step. -/
structure Location where
  /-- What the graph was loaded as. -/
  origin : Origin
  /-- The index of the step in the body of the index before it, outermost first. -/
  trail : List Nat
deriving DecidableEq, Repr

/-- The text of a place, as in `data[0].graphDef[2]`. -/
def Location.text (location : Location) : String :=
  location.origin.text ++
    ".graphDef".intercalate (location.trail.map fun index => "[" ++ toString index ++ "]")

/-- Why a stored graph is refused. -/
inductive GraphError where
  /-- Neither a list of steps nor a document with such a list. -/
  | notAGraph
  /-- A step without a type. -/
  | missingStepType (location : Location)
  /-- A step of a type that does not exist. -/
  | unknownStepType (location : Location) (found : String)
  /-- A step with a name that an earlier step of its list answers to. -/
  | duplicateStepName (location : Location) (name : String)
  /-- Fields that do not have the shape that the type of their step asks for. -/
  | malformed
deriving DecidableEq, Repr

/-- The message of a refusal. A malformed graph has no message beyond its heading. -/
def GraphError.message : GraphError → String
  | .notAGraph => "graph definition must be a step array or a document with a `data` array"
  | .missingStepType location => "step at " ++ location.text ++ " has no `type`"
  | .unknownStepType location found =>
    "unknown step type '" ++ found ++ "' at " ++ location.text
  | .duplicateStepName location name =>
    "duplicate step name '" ++ name ++ "' at " ++ location.text
  | .malformed => "malformed graph definition"

end StepGraph
