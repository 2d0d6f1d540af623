import StepGraph.Transform.Parameters

/-!
# Objects

Functions that select, drop, merge and set fields.
-/
namespace StepGraph.Objects

open Parameters

mutual
/-- A source laid over a target: objects merge field by field and arrays item by item, and
anything else replaces the target. -/
def mergeOver (target : Value) : Value → Value
  | .object source =>
    match target with
    | .object fields => .object (mergeFields fields source)
    | _ => .object source
  | .array source =>
    match target with
    | .array items => .array (mergeItems items source)
    | _ => .array source
  | .null => .null
  | .bool flag => .bool flag
  | .number stored => .number stored
  | .string text => .string text

/-- The fields of a source laid over those of a target. -/
def mergeFields (target : Object) : List (String × Value) → Object
  | [] => target
  | (key, value) :: rest =>
    match Dictionary.find? target key with
    | some held => mergeFields (Dictionary.insert target key (mergeOver held value)) rest
    | none => mergeFields (Dictionary.insert target key value) rest

/-- The items of a source laid over those of a target; the tail of the longer list stays. -/
def mergeItems : List Value → List Value → List Value
  | target, [] => target
  | [], value :: rest => value :: rest
  | held :: target, value :: rest => mergeOver held value :: mergeItems target rest
end

/-- A source laid over an object; a source that is no object adds nothing. -/
def mergeSource (target : Object) (source : Value) : Object :=
  match source with
  | .object fields => mergeFields target fields
  | _ => target

/-- Two sources merged into an empty object, the second over the first. -/
def merged (first second : Value) : Value :=
  .object (mergeSource (mergeSource [] first) second)

/-- The keys that a parameter names: one string, or an array of strings. -/
def propNames (params : Value) : Except TransformError (List String) :=
  match value params "propNames" with
  | .string name => .ok [name]
  | .array names =>
    names.mapM fun name =>
      match name.string? with
      | some text => .ok text
      | none => invalid "propNames" .strings name
  | other => invalid "propNames" .keys other

/-- The object that fields are taken from. -/
def source (params : Value) : Except TransformError Object :=
  match (value params "src").fields? with
  | some fields => .ok fields
  | none => invalid "src" .object (value params "src")

/-- The named fields of an object. -/
def pick (params : Value) : Result := do
  let source ← source params
  let names ← propNames params
  pure (.object (Dictionary.ofList (names.filterMap fun name =>
    (Dictionary.find? source name).map fun value => (name, value))))

/-- An object without the named fields. -/
def without (params : Value) : Result := do
  let source ← source params
  let names ← propNames params
  pure (.object (names.foldl Dictionary.erase source))

/-- Two objects merged at every depth, `b` over `a`. -/
def merge (params : Value) : Result := .ok (merged (value params "a") (value params "b"))

/-- An object of one field. -/
def box (params : Value) : Result := do
  let name ← string params "propName"
  pure (.object [(name, value params "value")])

/-- An object with one field merged over it. -/
def addProp (params : Value) : Result := do
  let name ← string params "propName"
  pure (merged (value params "src") (.object [(name, value params "propValue")]))

end StepGraph.Objects
