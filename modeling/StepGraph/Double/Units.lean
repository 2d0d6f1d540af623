/-!
# Doubles as whole numbers of units

The smallest positive double is two to the power -1074, and every finite double is a whole
number of that unit: `units` gives the number, `isNegative` the sign. Exact arithmetic on
doubles is then arithmetic on naturals. `nearest` goes the other way, from a quotient of
naturals to the double nearest to it, ties to the even significand; it refuses a quotient
that would round to infinity.
-/
namespace StepGraph.Double

/-- A power of two. -/
def powerOfTwo (exponent : Nat) : Nat := Nat.pow 2 exponent

/-- A power of ten. -/
def powerOfTen (exponent : Nat) : Nat := Nat.pow 10 exponent

/-- The number of units in one. -/
def unitsPerOne : Nat := powerOfTwo 1074

/-- The bits below the sign. -/
def magnitudeBits (double : Float) : Nat := double.toBits.toNat % powerOfTwo 63

/-- Whether the sign bit is set, as it also is for the negative zero. -/
def isNegative (double : Float) : Bool := decide (powerOfTwo 63 ≤ double.toBits.toNat)

/-- The bits below the sign of positive infinity; all finite doubles lie below. -/
def infinityBits : Nat := 2047 * powerOfTwo 52

/-- Neither infinite nor a double that is not a number. -/
def isFinite (double : Float) : Bool := decide (magnitudeBits double < infinityBits)

/-- The power of two that is the gap, in units, between a double and its successor. -/
def gapExponent (double : Float) : Nat := magnitudeBits double / powerOfTwo 52 - 1

/-- The significand: the double has this many gaps. -/
def significand (double : Float) : Nat :=
  magnitudeBits double - gapExponent double * powerOfTwo 52

/-- The magnitude of a finite double in units. -/
def units (double : Float) : Nat := significand double * powerOfTwo (gapExponent double)

/-- The nearest whole number to a quotient; of two equally near, the even one. -/
def roundHalfEven (numerator denominator : Nat) : Nat :=
  let whole := numerator / denominator
  let twice := 2 * (numerator % denominator)
  if twice < denominator then whole
  else if denominator < twice then whole + 1
  else whole + whole % 2

/-- The bits of the double nearest to a nonnegative quotient. A significand that rounds up to
the next power of two carries into the exponent by itself. -/
def nearestBits (numerator denominator : Nat) : Nat :=
  let scaled := numerator * unitsPerOne
  let exponent := (scaled / denominator).log2 - 52
  exponent * powerOfTwo 52 + roundHalfEven scaled (denominator * powerOfTwo exponent)

/-- The double of a sign and the bits below it. -/
def ofMagnitudeBits (negative : Bool) (bits : Nat) : Float :=
  Float.ofBits (UInt64.ofNat (if negative then powerOfTwo 63 + bits else bits))

/-- The double nearest to a signed quotient, unless that is an infinity. -/
def nearest? (negative : Bool) (numerator denominator : Nat) : Option Float :=
  let bits := nearestBits numerator denominator
  if bits < infinityBits then some (ofMagnitudeBits negative bits) else none

/-- The double nearest to an integer, an infinity when the integer is out of range. -/
def ofInt (value : Int) : Float :=
  ofMagnitudeBits (decide (value < 0)) (min (nearestBits value.natAbs 1) infinityBits)

/-- A decimal exponent beyond this bound decides alone whether a nonzero number of so many
digits is out of range. -/
def decimalExponentBound : Nat := 400

/-- The double nearest to `digits · 10 ^ exponent`. An exponent far out of range is cut off
before any power is taken: with `length` digits the number is then at least `10 ^ 400`, or
below a quarter of the smallest double. -/
def ofDecimal? (negative : Bool) (digits : Nat) (exponent : Int) (length : Nat) :
    Option Float :=
  if digits = 0 then some (ofMagnitudeBits negative 0)
  else if exponent ≥ decimalExponentBound then none
  else if exponent + length ≤ -decimalExponentBound then some (ofMagnitudeBits negative 0)
  else if exponent ≥ 0 then nearest? negative (digits * powerOfTen exponent.toNat) 1
  else nearest? negative digits (powerOfTen (-exponent).toNat)

/-- The nearest whole number is off by at most half a unit on either side. -/
theorem roundHalfEven_close (numerator denominator : Nat) (positive : 0 < denominator) :
    2 * numerator ≤ (2 * roundHalfEven numerator denominator + 1) * denominator ∧
      2 * roundHalfEven numerator denominator * denominator ≤ 2 * numerator + denominator := by
  have split := Nat.div_add_mod numerator denominator
  have small := Nat.mod_lt numerator positive
  have parity : numerator / denominator % 2 ≤ 1 := by omega
  generalize numerator / denominator = whole at *
  generalize numerator % denominator = rest at *
  subst split
  simp only [roundHalfEven]
  have commuted : denominator * whole = whole * denominator := Nat.mul_comm _ _
  have whole_div : (denominator * whole + rest) / denominator = whole := by
    rw [Nat.mul_add_div positive, Nat.div_eq_of_lt small, Nat.add_zero]
  have whole_mod : (denominator * whole + rest) % denominator = rest := by
    rw [Nat.mul_add_mod, Nat.mod_eq_of_lt small]
  rw [whole_div, whole_mod]
  split
  · constructor <;> simp only [Nat.add_mul, Nat.mul_assoc, Nat.one_mul] <;> omega
  · split
    · constructor <;>
        simp only [Nat.add_mul, Nat.mul_add, Nat.mul_assoc, Nat.one_mul, Nat.mul_one] <;> omega
    · rcases Nat.mod_two_eq_zero_or_one whole with even | odd
      · rw [even]
        constructor <;> simp only [Nat.add_mul, Nat.mul_assoc, Nat.one_mul, Nat.add_zero] <;> omega
      · rw [odd]
        constructor <;>
          simp only [Nat.add_mul, Nat.mul_add, Nat.mul_assoc, Nat.one_mul, Nat.mul_one] <;> omega

end StepGraph.Double
