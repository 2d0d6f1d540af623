import StepGraph.Graph.Step

/-!
# Documents

A document is a graph with what identifies it where it is stored. Only the graph is run.
-/
namespace StepGraph

/-- A stored graph. -/
structure Document where
  /-- The namespace that the document belongs to. -/
  namespaceName : Option String := none
  /-- The name of the document. -/
  name : Option String := none
  /-- The version of the document. -/
  version : Option Nat := none
  /-- What kind of document it is. -/
  type : Option String := none
  /-- The graph. -/
  data : Graph := []
deriving DecidableEq

/-- The text that names a document: namespace, name and version as far as they are given. -/
def Document.label (document : Document) : String :=
  let name :=
    match document.namespaceName, document.name with
    | some space, some name => space ++ "/" ++ name
    | none, some name => name
    | some space, none => space
    | none, none => "<anonymous>"
  match document.version with
  | some version => name ++ "@" ++ toString version
  | none => name

end StepGraph
