import StepGraph.Double.Units

/-!
# The fewest decimal digits of a double

A double is written with as few significant digits as still read back as the same double, and
among the numerals of that many digits with the nearest one. The reals that round to a double
reach halfway to its neighbours; both ends belong to it when its significand is even. On the
grid of numerals of a given count of digits only the two around the double can be nearest, so
the search tries one to seventeen digits and tests those two, in exact arithmetic.
-/
namespace StepGraph.Double

/-- A numeral `0.d₁d₂… · 10 ^ point`, its digits most significant first, the last one not a
zero. -/
structure Numeral where
  /-- The significant digits. -/
  digits : List Char
  /-- The power of ten that the fraction is scaled by. -/
  point : Int
deriving DecidableEq, Repr

/-- Seventeen digits tell all doubles apart. -/
def mostDigits : Nat := 17

/-- The power of ten that makes even the smallest double a whole number of more than
`mostDigits` digits. -/
def scaleExponent : Nat := 341

/-- Quarters of a unit, scaled by the power of ten, in one: every bound below is whole. -/
def fineUnits : Nat := 4 * unitsPerOne

/-- The lower and upper end of the reals that round to a double, in scaled quarters of a unit.
Below a power of two the gap is half as wide, unless the doubles there are already the
smallest. -/
def roundingEnds (double : Float) : Nat × Nat :=
  let gap := powerOfTwo (gapExponent double)
  let below := if significand double = powerOfTwo 52 ∧ gapExponent double ≠ 0 then gap else 2 * gap
  ((4 * units double - below) * powerOfTen scaleExponent,
    (4 * units double + 2 * gap) * powerOfTen scaleExponent)

/-- The nearest numeral of a double on the grid of numerals `count * step`, as a count, when one
of them reads back. Of two equally near the even count is taken. -/
def nearestOnGrid? (double : Float) (step : Nat) : Option Nat :=
  let exact := 4 * units double * powerOfTen scaleExponent
  let ends := roundingEnds double
  let closed := significand double % 2 = 0
  let lower := exact / step
  let upper := lower + 1
  let lowerReads := ends.1 < lower * step ∨ (closed ∧ ends.1 = lower * step)
  let upperReads := upper * step < ends.2 ∨ (closed ∧ upper * step = ends.2)
  if lowerReads ∧ upperReads then
    let fromLower := exact - lower * step
    let toUpper := upper * step - exact
    if fromLower < toUpper then some lower
    else if toUpper < fromLower then some upper
    else some (lower + lower % 2)
  else if lowerReads then some lower
  else if upperReads then some upper
  else none

/-- The digits of a count without the zeros at its end. -/
def significantDigits (count : Nat) : List Char :=
  ((Nat.toDigits 10 count).reverse.dropWhile (· = '0')).reverse

/-- The numeral of fewest digits that reads back as a double, up to its sign. -/
def numeral (double : Float) : Numeral :=
  let whole := units double * powerOfTen scaleExponent / unitsPerOne
  let length := (Nat.toDigits 10 whole).length
  let candidates := (List.range mostDigits).findSome? fun index =>
    let places := length - (index + 1)
    (nearestOnGrid? double (powerOfTen places * fineUnits)).map fun count => (count, places)
  match candidates with
  | none => ⟨['0'], 1⟩
  | some (count, places) =>
    ⟨significantDigits count,
      ((Nat.toDigits 10 count).length + places : Nat) - (scaleExponent : Int)⟩

/-- The largest power of ten of a numeral written without an exponent. -/
def largestPlainPoint : Int := 16

/-- Numerals whose power of ten is not above this one are written with an exponent. -/
def smallestPlainPoint : Int := -5

/-- The text of a numeral. Inside the plain range it has a decimal point with a digit on both
sides; outside, one digit in front of the point, no point after a single digit, and a signed
exponent. -/
def Numeral.text (written : Numeral) : String :=
  if smallestPlainPoint < written.point ∧ written.point ≤ largestPlainPoint then
    if written.point ≤ 0 then
      "0." ++ String.ofList (List.replicate (-written.point).toNat '0' ++ written.digits)
    else
      let places := written.point.toNat
      let whole := written.digits.take places
      let zeros := List.replicate (places - whole.length) '0'
      let fraction := written.digits.drop places
      String.ofList (whole ++ zeros) ++ "." ++
        String.ofList (if fraction.isEmpty then ['0'] else fraction)
  else
    let exponent := written.point - 1
    String.ofList (written.digits.take 1) ++
      (if written.digits.length ≤ 1 then ""
        else "." ++ String.ofList (written.digits.drop 1)) ++
      "e" ++ (if exponent < 0 then "-" else "+") ++ toString exponent.natAbs

/-- The text of a double: always with a point or an exponent, so that it never looks like an
integer. -/
def text (double : Float) : String :=
  (if isNegative double then "-" else "") ++
    (if units double = 0 then "0.0" else (numeral double).text)

end StepGraph.Double
