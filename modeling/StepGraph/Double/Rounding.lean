import StepGraph.Double.Units

/-!
# Rounding doubles to whole numbers

A finite double splits into whole units of one and a remainder, and each way of rounding
decides from the remainder and the sign. Doubles from two to the power 53 on are whole
already, so every rounded magnitude is a double again. Infinities are left alone.
-/
namespace StepGraph.Double

/-- The whole part of the magnitude. -/
def wholePart (double : Float) : Nat := units double / unitsPerOne

/-- What the whole part leaves over, in units. -/
def remainder (double : Float) : Nat := units double % unitsPerOne

/-- Whether a finite double is a whole number. -/
def isWhole (double : Float) : Bool := decide (remainder double = 0)

/-- The whole double with a given sign and magnitude. -/
def ofWhole (negative : Bool) (magnitude : Nat) : Float :=
  ofMagnitudeBits negative (min (nearestBits magnitude 1) infinityBits)

/-- Round the magnitude up or not, by a rule on the sign and the remainder; a double that is
whole or infinite stays as it is. -/
def roundBy (up : Bool → Nat → Bool) (double : Float) : Float :=
  if isFinite double ∧ ¬isWhole double then
    let negative := isNegative double
    ofWhole negative (wholePart double + (up negative (remainder double)).toNat)
  else double

/-- The largest whole number not above a double. -/
def floor (double : Float) : Float := roundBy (fun negative _ => negative) double

/-- The smallest whole number not below a double. -/
def ceil (double : Float) : Float := roundBy (fun negative _ => !negative) double

/-- The nearest whole number; a half goes away from zero. -/
def roundAway (double : Float) : Float :=
  roundBy (fun _ rest => decide (unitsPerOne ≤ 2 * rest)) double

/-- The nearest whole number; a half goes up. -/
def roundUp (double : Float) : Float :=
  let below := floor double
  if 0.5 ≤ double - below then below + 1.0 else below

end StepGraph.Double
