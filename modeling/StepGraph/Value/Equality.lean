import StepGraph.Value.Basic

/-!
# Loose equality

Two values are loosely equal when they are the same up to how their numbers are stored: `1`
equals `1.0`. Numbers compare as the doubles nearest to them, so two integers beyond two to the
power 53 that share their nearest double are loosely equal too.
-/
namespace StepGraph.Value

mutual
/-- Equality up to the storage of numbers. -/
def looselyEqual : Value → Value → Bool
  | .number left, .number right => left.toDouble == right.toDouble
  | .array left, .array right => looselyEqualItems left right
  | .object left, .object right =>
    left.length == right.length && looselyEqualFields left right
  | .null, .null => true
  | .bool left, .bool right => left == right
  | .string left, .string right => left == right
  | _, _ => false

/-- Equality item by item, of lists of one length. -/
def looselyEqualItems : List Value → List Value → Bool
  | [], [] => true
  | left :: lefts, right :: rights => looselyEqual left right && looselyEqualItems lefts rights
  | _, _ => false

/-- Each field on the left has a loosely equal one of its key on the right. -/
def looselyEqualFields : List (String × Value) → List (String × Value) → Bool
  | [], _ => true
  | (key, left) :: rest, right =>
    (match Dictionary.find? right key with
      | some found => looselyEqual left found
      | none => false) && looselyEqualFields rest right
end

end StepGraph.Value
