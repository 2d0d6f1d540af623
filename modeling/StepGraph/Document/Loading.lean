import StepGraph.Document.Decoding
import StepGraph.Graph.Names
import StepGraph.Json.Printer

/-!
# Loading documents

Loading decodes a graph and refuses it with a cause. The types of all steps are checked first,
through every list that stands where a body would, so that a type that does not exist is
reported as such; then the shapes of the fields, then the names.
-/
namespace StepGraph

/-- What is wrong with the type of a step. -/
inductive TypeFault where
  /-- There is none. -/
  | missing
  /-- It does not exist. -/
  | unknown (found : String)
deriving DecidableEq, Repr

namespace TypeFault

/-- The refusal for a fault at a place. -/
def error (fault : TypeFault) (location : Location) : GraphError :=
  match fault with
  | .missing => .missingStepType location
  | .unknown found => .unknownStepType location found

/-- What is wrong with the type of one step, its body set aside. -/
def ofStep? (step : Value) : Option TypeFault :=
  match step.field? "type" with
  | none => some .missing
  | some (.string tag) => if (StepType.ofTag? tag).isSome then none else some (.unknown tag)
  | some other => some (.unknown (Json.compact other))

mutual
/-- The trail of the first faulty step in a list and its fault, given the index of the first. -/
def among? (index : Nat) : List Value → Option (List Nat × TypeFault)
  | [] => none
  | step :: rest =>
    match ofStep? step with
    | some fault => some ([index], fault)
    | none =>
      match inside? step with
      | some (trail, fault) => some (index :: trail, fault)
      | none => among? (index + 1) rest

/-- The first fault in the body of a step. -/
def inside? : Value → Option (List Nat × TypeFault)
  | .object fields => inBody? fields
  | _ => none

/-- The first fault in the list that stands where the body of a step would. -/
def inBody? : List (String × Value) → Option (List Nat × TypeFault)
  | [] => none
  | (key, value) :: rest => if key = "graphDef" then inItems? value else inBody? rest

/-- The first fault in a list of steps; anything else has none. -/
def inItems? : Value → Option (List Nat × TypeFault)
  | .array items => among? 0 items
  | _ => none
end

end TypeFault

/-- Load a list of steps already decoded. -/
def Graph.ofSteps (steps : List Step) : Except GraphError Graph := Graph.validate .steps steps

/-- Load a graph from a list of stored steps. -/
def Graph.load (value : Value) : Except GraphError Graph :=
  match value with
  | .array items =>
    match TypeFault.among? 0 items with
    | some (trail, fault) => .error (fault.error ⟨.document, trail⟩)
    | none =>
      match Decoding.steps? items with
      | none => .error .malformed
      | some graph => Graph.validate .document graph
  | _ => .error .notAGraph

/-- Load a document: a list of steps, or an object with such a list. What identifies a document
is left unset where it does not have the right shape. -/
def Document.load (value : Value) : Except GraphError Document :=
  match value with
  | .array _ => (Graph.load value).map fun data => { data }
  | .object fields =>
    match Dictionary.find? fields "data" with
    | none => .error .notAGraph
    | some stored =>
      (Graph.load stored).map fun data =>
        { namespaceName := Decoding.requiredText fields "namespace"
          name := Decoding.requiredText fields "name"
          version :=
            match Dictionary.find? fields "version" with
            | some (.number stored) => stored.position?
            | _ => none
          type := Decoding.requiredText fields "type"
          data }
  | _ => .error .notAGraph

end StepGraph
