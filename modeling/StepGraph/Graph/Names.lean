import StepGraph.Graph.Location
import StepGraph.Graph.Step

/-!
# Distinct names

In a valid graph no two steps of one list answer to the same text, in the list itself and in
every inline body inside it; comments answer to nothing. The search for a clash visits a step
before its body and an earlier step with its whole body before a later one.
-/
namespace StepGraph.Graph

mutual
/-- The trail and the text of the first clash in a list of steps, given the texts that the steps
before it answer to and the index of its first step. -/
def clashAmong? (seen : List String) (index : Nat) : List Step → Option (List Nat × String)
  | [] => none
  | step :: rest =>
    if step.isComment then clashAmong? seen (index + 1) rest
    else
      match step.keys.find? fun key => seen.contains key with
      | some key => some ([index], key)
      | none =>
        match clashInside? step with
        | some (trail, key) => some (index :: trail, key)
        | none => clashAmong? (step.keys ++ seen) (index + 1) rest

/-- The first clash in the inline body of a step. -/
def clashInside? : Step → Option (List Nat × String)
  | .graph _ _ (.inline steps) => clashAmong? [] 0 steps
  | .graph _ _ (.template _) => none
  | .action _ _ => none
end

/-- The first clash of names in a graph. -/
def clash? (graph : Graph) : Option (List Nat × String) := clashAmong? [] 0 graph

/-- Refuse a graph with a clash of names. -/
def validate (origin : Origin) (graph : Graph) : Except GraphError Graph :=
  match clash? graph with
  | some (trail, name) => .error (.duplicateStepName ⟨origin, trail⟩ name)
  | none => .ok graph

end StepGraph.Graph
