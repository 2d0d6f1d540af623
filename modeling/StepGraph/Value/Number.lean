import StepGraph.Double.Digits
import StepGraph.Double.Rounding

/-!
# Numbers

A number is an integer or a double, and the difference shows: `20` and `20.0` are written
differently. Integers stored as such lie between the least signed and the greatest unsigned
word of 64 bits. Arithmetic and comparison go through the double nearest to a number, and an
arithmetic result that is whole and small enough becomes an integer again.
-/
namespace StepGraph

/-- A stored number. -/
inductive Number where
  /-- A whole number written without point and exponent. -/
  | integer (value : Int)
  /-- Any other number. -/
  | double (value : Float)
deriving DecidableEq

namespace Number

/-- The number of unsigned 64-bit words. -/
def wordCount : Nat := Double.powerOfTwo 64

/-- Whether an integer is stored as one: it is a signed or an unsigned 64-bit word. -/
def fitsWord (value : Int) : Bool :=
  decide (-(Double.powerOfTwo 63 : Int) ≤ value ∧ value < wordCount)

/-- The double nearest to a number. -/
def toDouble : Number → Float
  | .integer value => Double.ofInt value
  | .double value => value

/-- The number of whole steps up to which every integer is a double of its own. -/
def largestExact : Nat := Double.powerOfTwo 53 - 1

/-- The number of an arithmetic result: an integer if it is whole and every integer up to it is
a double of its own, nothing if it is not finite. -/
def ofDouble? (result : Float) : Option Number :=
  if !Double.isFinite result then none
  else if Double.isWhole result ∧ Double.wholePart result ≤ largestExact then
    let magnitude : Int := Double.wholePart result
    some (.integer (if Double.isNegative result then -magnitude else magnitude))
  else some (.double result)

/-- The position in a list that a number names: an integer that is an unsigned word. -/
def position? : Number → Option Nat
  | .integer (.ofNat value) => if value < wordCount then some value else none
  | _ => none

/-- The text of a number. -/
def text : Number → String
  | .integer value => toString value
  | .double value => Double.text value

end Number

end StepGraph
