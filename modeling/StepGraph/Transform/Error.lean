import StepGraph.Value.Basic

/-!
# Failures of transforms

A transform fails with a cause: a name that no function has, a parameter of the wrong kind, two
collections of different length, or a result that is no finite number.
-/
namespace StepGraph

/-- What a parameter should have been. -/
inductive Expected where
  /-- A number. -/
  | number
  /-- A string. -/
  | string
  /-- An array. -/
  | array
  /-- An object. -/
  | object
  /-- Items that are all numbers. -/
  | numbers
  /-- Items that are all strings. -/
  | strings
  /-- Something with an order. -/
  | numberOrString
  /-- Something of the kind of the first operand. -/
  | comparable
  /-- Something that may include an item. -/
  | arrayOrString
  /-- One key or several. -/
  | keys
deriving DecidableEq, Repr

/-- The phrase for what a parameter should have been. -/
def Expected.phrase : Expected → String
  | .number => "a number"
  | .string => "a string"
  | .array => "an array"
  | .object => "an object"
  | .numbers => "numbers"
  | .strings => "strings"
  | .numberOrString => "a number or a string"
  | .comparable => "a value comparable with `a`"
  | .arrayOrString => "an array or a string"
  | .keys => "a string or an array of strings"

/-- Why a transform fails. -/
inductive TransformError where
  /-- No function has the name. -/
  | notFound (name : String)
  /-- A parameter is missing or of the wrong kind. -/
  | invalidParam (param : String) (expected : Expected) (found : Kind)
  /-- Two collections to be combined item by item differ in length. -/
  | lengthMismatch (left right : Nat)
  /-- The result of arithmetic is no finite number. -/
  | nonFinite (function : String)
deriving DecidableEq, Repr

/-- The message of a failure. -/
def TransformError.message : TransformError → String
  | .notFound name => "no such function: " ++ name
  | .invalidParam param expected found =>
    "parameter '" ++ param ++ "' expected " ++ expected.phrase ++ ", found " ++ found.name
  | .lengthMismatch left right =>
    "collections must be equal in length (a: " ++ toString left ++ ", b: " ++ toString right ++ ")"
  | .nonFinite function => function ++ " produced a non-finite number"

end StepGraph
