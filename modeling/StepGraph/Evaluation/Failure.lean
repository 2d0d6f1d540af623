import StepGraph.Graph.Location
import StepGraph.Json.Printer
import StepGraph.Path
import StepGraph.Transform.Error

/-!
# Failures of a run

A failure ends the whole run. It names the step at fault, and its cause as far as that is known
elsewhere.
-/
namespace StepGraph

/-- Why a step cannot work with the values it is given. -/
inductive Mismatch where
  /-- Something that has no entries, or a key that selects none. -/
  | index (holder selector : Kind)
  /-- Inputs that are no object. -/
  | inputs (found : Kind)
  /-- A collection that is no array, or is not there. -/
  | collection (found : Option Kind)
deriving DecidableEq, Repr

/-- The message of a mismatch. -/
def Mismatch.message : Mismatch → String
  | .index holder selector => "cannot index " ++ holder.name ++ " with " ++ selector.name
  | .inputs found => "inputs must resolve to an object, found " ++ found.name
  | .collection found =>
    "map collection must be an array, found " ++ ((found.map Kind.name).getD "nothing")

/-- Why a run ends without an output. -/
inductive Failure where
  /-- The graph cannot be loaded. -/
  | graph (cause : GraphError)
  /-- A path with a wildcard cannot be resolved. -/
  | path (cause : PathError)
  /-- A step calls a function that is not registered. -/
  | unknownTransform (step function : String)
  /-- A step invokes a template that is not defined. -/
  | undefinedTemplate (step template : String)
  /-- A step is given values of the wrong kind. -/
  | typeMismatch (step : String) (mismatch : Mismatch)
  /-- The tested value is no case of a branch, and there is no default. -/
  | noMatchingCase (step : String) (tested : Value)
  /-- An activation would nest deeper than allowed. -/
  | cyclicReference (activation : String) (depth : Nat)
  /-- A function fails. -/
  | transform (step function : String) (cause : TransformError)
deriving DecidableEq

/-- The message of a failure. -/
def Failure.message : Failure → String
  | .graph cause => cause.message
  | .path cause => cause.message
  | .unknownTransform step function =>
    "unknown transform '" ++ function ++ "' in step '" ++ step ++ "'"
  | .undefinedTemplate step template =>
    "undefined template '" ++ template ++ "' in step '" ++ step ++ "'"
  | .typeMismatch step mismatch =>
    "type mismatch in step '" ++ step ++ "': " ++ mismatch.message
  | .noMatchingCase step tested =>
    "no matching case for " ++ Json.compact tested ++ " in branch '" ++ step ++ "'"
  | .cyclicReference activation depth =>
    "cyclic reference: nesting exceeded depth " ++ toString depth ++ " at '" ++ activation ++ "'"
  | .transform step function cause =>
    "transform '" ++ function ++ "' failed in step '" ++ step ++ "': " ++ cause.message

end StepGraph
