import StepGraph.Document.Basic

/-!
# Decoding documents

A step is decoded from an object. Fields that the type of the step does not know are ignored, a
field of the wrong shape refuses the whole graph, and a null stands for an absent field where
absence has a meaning of its own: in `comments`, `inputs`, `collectionMode` and `namespace`.
-/
namespace StepGraph

/-- The types of steps. -/
inductive StepType where
  /-- A literal value. -/
  | static
  /-- The value at another path. -/
  | alias
  /-- An entry of one value, selected by another. -/
  | dereference
  /-- A choice between nodes. -/
  | branch
  /-- A call of a registered function. -/
  | transform
  /-- A template or an invocation. -/
  | graph
  /-- Nothing. -/
  | comment
deriving DecidableEq, Repr

namespace StepType

/-- All types, in the order of their numbers. -/
def all : List StepType := [.static, .alias, .dereference, .branch, .transform, .graph, .comment]

/-- The word that stands for a type. -/
def tag : StepType → String
  | .static => "static"
  | .alias => "alias"
  | .dereference => "dereference"
  | .branch => "branch"
  | .transform => "transform"
  | .graph => "graph"
  | .comment => "comment"

/-- The type that a word stands for. -/
def ofTag? (tag : String) : Option StepType := all.find? fun type => type.tag == tag

/-- The type that a value stands for: its word or its number. -/
def decode? : Value → Option StepType
  | .string tag => ofTag? tag
  | .number (.integer (.ofNat index)) => all[index]?
  | _ => none

end StepType

namespace Decoding

/-- A string that has to be there. -/
def requiredText (fields : Object) (key : String) : Option String :=
  (Dictionary.find? fields key).bind Value.string?

/-- A list that has to be there. -/
def requiredItems (fields : Object) (key : String) : Option (List Value) :=
  (Dictionary.find? fields key).bind Value.items?

/-- A value, null when it is absent. -/
def valueOrNull (fields : Object) (key : String) : Value :=
  (Dictionary.find? fields key).getD .null

/-- A value that may be absent or null. -/
def optionalValue (fields : Object) (key : String) : Option Value :=
  match Dictionary.find? fields key with
  | some .null => none
  | other => other

/-- A string that may be absent or null. -/
def optionalText (fields : Object) (key : String) : Option (Option String) :=
  match optionalValue fields key with
  | none => some none
  | some (.string text) => some (some text)
  | some _ => none

/-- A truth value, false when it is absent. -/
def flag (fields : Object) (key : String) : Option Bool :=
  match Dictionary.find? fields key with
  | none => some false
  | some (.bool flag) => some flag
  | some _ => none

/-- An unsigned 64-bit word that may be absent or null. -/
def optionalWord (fields : Object) (key : String) : Option (Option Nat) :=
  match optionalValue fields key with
  | none => some none
  | some (.number stored) => stored.position?.map some
  | some _ => none

/-- What every step carries. -/
def header (fields : Object) : Option Header := do
  let name ←
    match Dictionary.find? fields "name" with
    | none => some ""
    | some value => value.string?
  let isHidden ← flag fields "isHidden"
  let comments ← optionalText fields "comments"
  some { name, isHidden, comments }

/-- A collection mode: its word, alone or as the key of an empty entry. -/
def collectionMode (fields : Object) : Option (Option CollectionMode) :=
  match optionalValue fields "collectionMode" with
  | none => some none
  | some (.string "map") => some (some .map)
  | some (.object [("map", .null)]) => some (some .map)
  | some (.object [("map", .object [])]) => some (some .map)
  | some _ => none

/-- How a step treats its body. -/
def invocation (fields : Object) : Option Invocation := do
  let isTemplate ← flag fields "isTemplate"
  let collectionMode ← collectionMode fields
  let namespaceKey ← optionalText fields "namespace"
  some { isTemplate, inputs := optionalValue fields "inputs", collectionMode, namespaceKey }

/-- The action of a step of a type, which is not about another graph. -/
def action (fields : Object) : StepType → Option Action
  | .static => some (.static (valueOrNull fields "value"))
  | .alias => (requiredText fields "mirror").map .alias
  | .dereference => do
    let objectPath ← requiredText fields "objectPath"
    let propNamePath ← requiredText fields "propNamePath"
    some (.dereference objectPath propNamePath)
  | .branch => do
    let test ← requiredText fields "test"
    let cases ← requiredItems fields "cases"
    let nodeNames ← requiredItems fields "nodeNames"
    some (.branch test cases nodeNames)
  | .transform => do
    let function ← requiredText fields "fn"
    some (.transform function (valueOrNull fields "params"))
  | .comment => some .comment
  | .graph => none

mutual
/-- A step. -/
def step? : Value → Option Step
  | .object fields => do
    let header ← header fields
    let type ← (Dictionary.find? fields "type").bind StepType.decode?
    match type with
    | .graph => do
      let body ← bodyAmong? fields
      let invocation ← invocation fields
      some (.graph header invocation body)
    | type => (action fields type).map (.action header)
  | _ => none

/-- The body among the fields of a step. -/
def bodyAmong? : List (String × Value) → Option (Body Step)
  | [] => none
  | (key, value) :: rest => if key = "graphDef" then body? value else bodyAmong? rest

/-- A body: a list of steps or the name of a template. -/
def body? : Value → Option (Body Step)
  | .array items => (steps? items).map .inline
  | .string name => some (.template name)
  | _ => none

/-- Steps. -/
def steps? : List Value → Option (List Step)
  | [] => some []
  | value :: rest => do
    let step ← step? value
    let steps ← steps? rest
    some (step :: steps)
end

end Decoding

/-- The graph that a value stores, whatever its names and its steps' types. -/
def Graph.decode? (value : Value) : Option Graph := value.items?.bind Decoding.steps?

namespace Document

/-- The document that an object of five fields stores. -/
def decodeFields? (fields : Object) : Option Document := do
  let namespaceName ← Decoding.optionalText fields "namespace"
  let name ← Decoding.optionalText fields "name"
  let version ← Decoding.optionalWord fields "version"
  let type ← Decoding.optionalText fields "type"
  let data ← (Dictionary.find? fields "data").bind Graph.decode?
  some { namespaceName, name, version, type, data }

/-- The document that a value stores, whatever its names and its steps' types: an object, or the
five fields as a list. -/
def decode? : Value → Option Document
  | .object fields => decodeFields? fields
  | .array [space, name, version, type, data] =>
    decodeFields?
      [("namespace", space), ("name", name), ("version", version), ("type", type), ("data", data)]
  | _ => none

end Document

end StepGraph
