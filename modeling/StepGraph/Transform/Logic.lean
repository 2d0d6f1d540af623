import StepGraph.Text.Blank
import StepGraph.Transform.Parameters
import StepGraph.Value.Equality

/-!
# Logic, comparisons and tests
-/
namespace StepGraph.Logic

open Parameters

/-- Whether all operands count as true. -/
def andN (collection : Value) : Result := .ok (.bool ((operands collection).all Value.isTruthy))

/-- The first operand that counts as true; failing that the last one, and false without any. -/
def orN (collection : Value) : Result :=
  let items := operands collection
  .ok (((items.find? Value.isTruthy).or items.getLast?).getD (.bool false))

/-- Whether an item is the truth value false; nothing else is negated to true. -/
def not (params : Value) : Result :=
  match value params "item" with
  | .bool false => .ok (.bool true)
  | _ => .ok (.bool false)

/-- One of two values, by whether a test counts as true. -/
def ternary (params : Value) : Result :=
  .ok (if (value params "test").isTruthy then value params "pass" else value params "fail")

/-- The order of two doubles. -/
def orderOfDoubles (left right : Float) : Option Ordering :=
  if left < right then some .lt
  else if right < left then some .gt
  else if left == right then some .eq
  else none

/-- The order of two numbers or of two strings. -/
def order (left right : Value) : Except TransformError (Option Ordering) :=
  match left, right with
  | .number left, .number right => .ok (orderOfDoubles left.toDouble right.toDouble)
  | .string left, .string right => .ok (some (compare left right))
  | .number _, other => invalid "b" .comparable other
  | .string _, other => invalid "b" .comparable other
  | other, _ => invalid "a" .numberOrString other

/-- Whether the order of `a` and `b` is an accepted one. -/
def compared (accept : Ordering → Bool) (params : Value) : Result := do
  let order ← order (value params "a") (value params "b")
  pure (.bool (order.any accept))

/-- Whether `a` is greater than `b`. -/
def gt : Value → Result := compared Ordering.isGT

/-- Whether `a` is less than `b`. -/
def lt : Value → Result := compared Ordering.isLT

/-- Whether `a` is greater than or equal to `b`. -/
def gte : Value → Result := compared Ordering.isGE

/-- Whether `a` is less than or equal to `b`. -/
def lte : Value → Result := compared Ordering.isLE

/-- Whether `a` and `b` are loosely equal. -/
def eq (params : Value) : Result :=
  .ok (.bool ((value params "a").looselyEqual (value params "b")))

/-- Whether characters occur next to each other in a text. -/
def occursIn (needle : List Char) : List Char → Bool
  | [] => needle.isEmpty
  | character :: rest =>
    needle.isPrefixOf (character :: rest) || occursIn needle rest

/-- Whether an item is loosely equal to one in an array, or is a text inside a text. -/
def includes (params : Value) : Result :=
  let item := value params "item"
  match value params "isIncludedIn" with
  | .array items => .ok (.bool (items.any fun candidate => candidate.looselyEqual item))
  | .string text =>
    .ok (.bool (item.string?.any fun needle => occursIn needle.toList text.toList))
  | other => invalid "isIncludedIn" .arrayOrString other

/-- Whether an item is a string with a character that is not blank. -/
def isNonEmptyString (params : Value) : Result :=
  .ok (.bool ((value params "item").string?.any fun text => !Text.isBlank text))

/-- Whether a null is given as an item; an absent item is not null. -/
def isNull (params : Value) : Result :=
  match params.field? "item" with
  | some .null => .ok (.bool true)
  | _ => .ok (.bool false)

end StepGraph.Logic
