import StepGraph.Json.Printer
import StepGraph.Path
import StepGraph.Transform.Parameters
import StepGraph.Value.Equality

/-!
# Collections

Functions that join, select and find items of a flattened collection.
-/
namespace StepGraph.Collections

open Parameters

/-- What an item adds to a joined text: a string itself, an object a fixed text, and anything
else its compact text. -/
def joinedText : Value → String
  | .string text => text
  | .object _ => "[object Object]"
  | other => Json.compact other

/-- All operands joined to one text. -/
def concat (collection : Value) : Result :=
  .ok (.string (String.join ((operands collection).map joinedText)))

/-- All operands in one array. -/
def concatArrays (collection : Value) : Result := .ok (.array (operands collection))

/-- Whether something is stored at a path in an item and is loosely equal to what is expected,
which is true when nothing else is given. -/
def matchesAt (path : String) (expected : Option Value) (item : Value) : Bool :=
  (Path.lookup item path).any fun found => found.looselyEqual (expected.getD (.bool true))

/-- The items of a collection selected by a test on each, given whether it matches. -/
def selected (keep : Bool → Bool) (params : Value) : Result := do
  let path ← string params "path"
  let expected := params.field? "value"
  pure (.array ((operands (value params "collection")).filter fun item =>
    keep (matchesAt path expected item)))

/-- The items that match. -/
def filter : Value → Result := selected id

/-- The items that do not match. -/
def filterNot : Value → Result := selected not

/-- Whether an item is an object with a field loosely equal to what is expected. -/
def hasField (key : String) (expected item : Value) : Bool :=
  (item.field? key).any fun found => found.looselyEqual expected

/-- The first object with a field of a value, or null. -/
def find (params : Value) : Result := do
  let key ← string params "propName"
  let expected := value params "propValue"
  pure (((operands (value params "collection")).find? (hasField key expected)).getD .null)

end StepGraph.Collections
