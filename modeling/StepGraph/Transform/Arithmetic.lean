import StepGraph.Transform.Parameters

/-!
# Arithmetic

Arithmetic is on doubles. A result that is whole and small enough is stored as an integer, and
one that is not finite, such as a division by zero, is a failure of the function.
-/
namespace StepGraph.Arithmetic

open Parameters

/-- An operation on two named numbers. -/
def binary (left right : String) (function : String) (operation : Float → Float → Float)
    (params : Value) : Result := do
  let a ← number params left
  let b ← number params right
  finite function (operation a b)

/-- An operation on an amount. -/
def unary (function : String) (operation : Float → Float) (params : Value) : Result := do
  let amount ← number params "amt"
  finite function (operation amount)

/-- The sum of `a` and `b`. -/
def add : Value → Result := binary "a" "b" "add" (· + ·)

/-- The difference of `a` and `b`. -/
def sub : Value → Result := binary "a" "b" "sub" (· - ·)

/-- An amount raised by a fraction of itself. -/
def addFactor : Value → Result :=
  binary "amt" "factor" "addFactor" fun amount factor => amount + amount * factor

/-- An amount lowered by a fraction of itself. -/
def subFactor : Value → Result :=
  binary "amt" "factor" "subFactor" fun amount factor => amount - amount * factor

/-- An amount times a factor. -/
def mult : Value → Result := binary "amt" "factor" "mult" (· * ·)

/-- The quotient of `num` and `dem`. -/
def div : Value → Result := binary "num" "dem" "div" (· / ·)

/-- The nearest whole number; a half goes up. -/
def round : Value → Result := unary "round" Double.roundUp

/-- The smallest whole number not below an amount. -/
def ceil : Value → Result := unary "ceil" Double.ceil

/-- The largest whole number not above an amount. -/
def floor : Value → Result := unary "floor" Double.floor

/-- The greater of two doubles. -/
def greater (left right : Float) : Float := if left < right then right else left

/-- The lesser of two doubles. -/
def lesser (left right : Float) : Float := if right < left then right else left

/-- The greater of `a` and `b`. -/
def max : Value → Result := binary "a" "b" "max" greater

/-- The lesser of `a` and `b`. -/
def min : Value → Result := binary "a" "b" "min" lesser

/-- An amount limited to a range; the lower limit wins over the upper one. -/
def clamp (params : Value) : Result := do
  let amount ← number params "amt"
  let low ← number params "min"
  let high ← number params "max"
  finite "clamp" (greater low (lesser high amount))

/-- A number rounded to hundredths; a half goes away from zero. -/
def hundredths (amount : Float) : Result :=
  finite "roundCurrency" (Double.roundAway (amount * 100.0) / 100.0)

/-- The sum of numbers, added in order to a sum so far. -/
def sumOnto (total : Float) : List Value → Except TransformError Float
  | [] => .ok total
  | item :: rest =>
    match item.double? with
    | some double => sumOnto (total + double) rest
    | none => invalid "items" .numbers item

/-- The sum of all operands. -/
def addN (collection : Value) : Result := do
  let total ← sumOnto 0.0 (operands collection)
  finite "addN" total

end StepGraph.Arithmetic
