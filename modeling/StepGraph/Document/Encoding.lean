import StepGraph.Document.Decoding

/-!
# Encoding documents

A document is stored as an object. Fields that hold what their absence would mean are left out,
except for the name of a step, a literal value and the parameters of a function, which are
always written.
-/
namespace StepGraph

namespace Encoding

/-- A field that is left out when there is nothing to write. -/
def optional (key : String) (value : Option Value) : List (String × Value) :=
  match value with
  | none => []
  | some value => [(key, value)]

/-- A field that is left out when it is false. -/
def flag (key : String) (value : Bool) : List (String × Value) :=
  if value then [(key, .bool true)] else []

/-- The fields of what every step carries. -/
def header (header : Header) : List (String × Value) :=
  [("name", .string header.name)] ++ flag "isHidden" header.isHidden ++
    optional "comments" (header.comments.map .string)

/-- The field of the type of a step. -/
def type (type : StepType) : List (String × Value) := [("type", .string type.tag)]

/-- The fields of an action. -/
def action : Action → List (String × Value)
  | .static value => type .static ++ [("value", value)]
  | .alias mirror => type .alias ++ [("mirror", .string mirror)]
  | .dereference objectPath propNamePath =>
    type .dereference ++
      [("objectPath", .string objectPath), ("propNamePath", .string propNamePath)]
  | .branch test cases nodeNames =>
    type .branch ++
      [("test", .string test), ("cases", .array cases), ("nodeNames", .array nodeNames)]
  | .transform function params =>
    type .transform ++ [("fn", .string function), ("params", params)]
  | .comment => type .comment

/-- The word of a collection mode. -/
def collectionMode : CollectionMode → Value
  | .map => .string "map"

/-- The fields of an invocation. -/
def invocation (invocation : Invocation) : List (String × Value) :=
  flag "isTemplate" invocation.isTemplate ++ optional "inputs" invocation.inputs ++
    optional "collectionMode" (invocation.collectionMode.map collectionMode) ++
    optional "namespace" (invocation.namespaceKey.map .string)

mutual
/-- A stored step. -/
def step : Step → Value
  | .action carried done => .object (Dictionary.ofList (header carried ++ action done))
  | .graph carried call (.inline inner) =>
    .object (Dictionary.ofList (header carried ++ type .graph ++
      [("graphDef", .array (steps inner))] ++ invocation call))
  | .graph carried call (.template name) =>
    .object (Dictionary.ofList (header carried ++ type .graph ++
      [("graphDef", .string name)] ++ invocation call))

/-- Stored steps. -/
def steps : List Step → List Value
  | [] => []
  | first :: rest => step first :: steps rest
end

end Encoding

/-- The list that stores a graph. -/
def Graph.encode (graph : Graph) : Value := .array (Encoding.steps graph)

/-- The object that stores a document. -/
def Document.encode (document : Document) : Value :=
  .object (Dictionary.ofList (
    Encoding.optional "namespace" (document.namespaceName.map .string) ++
    Encoding.optional "name" (document.name.map .string) ++
    Encoding.optional "version" (document.version.map fun version => .ofInt version) ++
    Encoding.optional "type" (document.type.map .string) ++
    [("data", document.data.encode)]))

end StepGraph
