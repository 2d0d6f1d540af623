import Mathlib
import StepGraph.Double.Units

/-!
# The order of the finite doubles

A finite double is a signed whole number of units, its `value`, and the comparisons of doubles
are those of these numbers. The bits below the sign carry the order already: they count the
doubles from zero on, and the units grow with them. So the equality of finite doubles is an
equivalence, in which only the two zeros are equal without being the same.
-/
namespace StepGraph.Double

open Float.Model (Format UnpackedFloat)
open Float.Model.UnpackedFloat

/-- A power of two is the usual power. -/
theorem powerOfTwo_eq (exponent : Nat) : powerOfTwo exponent = 2 ^ exponent := rfl

/-- Powers of two are positive. -/
theorem powerOfTwo_pos (exponent : Nat) : 0 < powerOfTwo exponent := Nat.two_pow_pos exponent

/-- Exponents add up. -/
theorem powerOfTwo_add (first second : Nat) :
    powerOfTwo (first + second) = powerOfTwo first * powerOfTwo second := Nat.pow_add 2 first second

/-- The units of a double with these bits below the sign. -/
def unitsOfBits (bits : Nat) : Nat :=
  (bits - (bits / powerOfTwo 52 - 1) * powerOfTwo 52) * powerOfTwo (bits / powerOfTwo 52 - 1)

/-- The units of a double are those of its bits. -/
theorem units_eq (double : Float) : units double = unitsOfBits (magnitudeBits double) := rfl

/-- A finite double as a signed number of units. -/
def value (double : Float) : Int :=
  if isNegative double then -(units double : Int) else units double

/-- Bits that are made of a gap and a count of gaps stand for that many gaps. A count that
reaches the next power of two carries into the gap. -/
theorem unitsOfBits_of_gaps {gap count : Nat} (small : count ≤ powerOfTwo 53)
    (normal : gap = 0 ∨ powerOfTwo 52 ≤ count) :
    unitsOfBits (gap * powerOfTwo 52 + count) = count * powerOfTwo gap := by
  simp only [unitsOfBits, powerOfTwo_eq] at *
  rcases Nat.lt_or_eq_of_le small with below | carry
  · have same : (gap * 2 ^ 52 + count) / 2 ^ 52 - 1 = gap := by omega
    rw [same, Nat.add_sub_cancel_left]
  · have next : (gap * 2 ^ 52 + count) / 2 ^ 52 - 1 = gap + 1 := by omega
    have half : gap * 2 ^ 52 + count - (gap + 1) * 2 ^ 52 = 2 ^ 52 := by omega
    rw [next, half, carry, Nat.pow_succ 2 gap, ← Nat.mul_assoc, Nat.mul_right_comm, ← Nat.pow_succ]

/-- All bits are made of a gap and a count of gaps that has 53 bits, unless the gap is the
smallest. -/
theorem exists_gaps (bits : Nat) : ∃ gap count, bits = gap * powerOfTwo 52 + count ∧
    count < powerOfTwo 53 ∧ (gap = 0 ∨ powerOfTwo 52 ≤ count) := by
  refine ⟨bits / powerOfTwo 52 - 1, bits - (bits / powerOfTwo 52 - 1) * powerOfTwo 52, ?_⟩
  simp only [powerOfTwo_eq]
  omega

/-- The units grow strictly with the bits. -/
theorem unitsOfBits_strictMono : StrictMono unitsOfBits := by
  refine strictMono_nat_of_lt_succ fun bits => ?_
  obtain ⟨gap, count, rfl, small, normal⟩ := exists_gaps bits
  have next : count + 1 ≤ powerOfTwo 53 := small
  rw [Nat.add_assoc, unitsOfBits_of_gaps small.le normal,
    unitsOfBits_of_gaps next (normal.imp_right Nat.le_succ_of_le)]
  exact Nat.mul_lt_mul_of_pos_right (Nat.lt_succ_self count) (powerOfTwo_pos gap)

/-- A word that holds a double. -/
abbrev Word := BitVec Format.binary64.numBits

/-- The stored significand is the end of the word. -/
theorem toNat_unpackMantissa (word : Word) :
    (unpackMantissa word).toNat = word.toNat % 2 ^ 52 := by
  simp [unpackMantissa]

/-- The stored exponent is in the middle of the word. -/
theorem toNat_unpackExponent (word : Word) :
    (unpackExponent word).toNat = word.toNat / 2 ^ 52 % 2 ^ 11 := by
  simp [unpackExponent, Nat.shiftRight_eq_div_pow]

/-- The stored sign is in front of the word. -/
theorem toNat_unpackSign (word : Word) :
    (unpackSign word).toNat = word.toNat / 2 ^ 63 % 2 := by
  simp [unpackSign, Nat.shiftRight_eq_div_pow]

/-- A significand with its leading bit. -/
theorem toNat_leading (fraction : BitVec 52) :
    (1#1 ++ fraction).toNat = 2 ^ 52 + fraction.toNat := by
  rw [BitVec.toNat_append, ← Nat.shiftLeft_add_eq_or_of_lt fraction.isLt]
  simp [Nat.shiftLeft_eq]

/-- What a finite word unpacks to: a zero, a significand without its leading bit at the smallest
exponent, or one with it. -/
theorem unpack_cases (word : Word) (finite : unpackExponent word ≠ 2047#11) :
    unpackExponent word = 0#11 ∧ unpackMantissa word = 0#52 ∧
        unpack Format.binary64 word = .zero (Sign.ofBitVec (unpackSign word)) ∨
      unpackExponent word = 0#11 ∧ (∃ positive,
        unpack Format.binary64 word = .finite (Sign.ofBitVec (unpackSign word))
          (unpackMantissa word).toNat (-1074) positive) ∨
      unpackExponent word ≠ 0#11 ∧ (∃ positive,
        unpack Format.binary64 word = .finite (Sign.ofBitVec (unpackSign word))
          (2 ^ 52 + (unpackMantissa word).toNat) ((unpackExponent word).toNat - 1075)
            positive) := by
  have bias : (Format.binary64.exponentBias : Int) = 1023 := rfl
  by_cases smallest : unpackExponent word = 0#11
  · by_cases zero : unpackMantissa word = 0#52
    · exact .inl ⟨smallest, zero, by simp [unpack, smallest, zero]⟩
    · have positive : 0 < (unpackMantissa word).toNat :=
        Nat.pos_of_ne_zero fun none => zero (BitVec.toNat_inj.mp (by simpa using none))
      exact .inr (.inl ⟨smallest, positive, by simp [unpack, smallest, zero, bias]⟩)
  · exact .inr (.inr ⟨smallest, by omega, by
      simp [unpack, smallest, finite, bias, toNat_leading]⟩)

/-- A word is finite when its exponent is not the largest one. -/
theorem unpackExponent_ne_iff (word : Word) :
    unpackExponent word ≠ 2047#11 ↔ word.toNat % powerOfTwo 63 < infinityBits := by
  rw [ne_eq, ← BitVec.toNat_inj, toNat_unpackExponent]
  simp only [infinityBits, powerOfTwo_eq, BitVec.toNat_ofNat]
  omega

/-- A finite word that is unpacked and packed again is the same word. -/
theorem pack_of_finite (word : Word) (finite : unpackExponent word ≠ 2047#11) :
    pack Format.binary64 (unpack Format.binary64 word) = word := by
  rw [pack_unpack, if_neg (by simp [isNaNBits, finite])]

/-- The bits of a finite double are the bits it was made of. -/
theorem toBits_ofBits {word : UInt64} (finite : word.toNat % powerOfTwo 63 < infinityBits) :
    (Float.ofBits word).toBits = word := by
  have same := pack_of_finite word.toBitVec ((unpackExponent_ne_iff _).mpr finite)
  exact congrArg UInt64.ofBitVec same

section Parts

variable {negative : Bool} {bits : Nat}

/-- A double made of a sign and finite bits has these bits in its word. -/
theorem toNat_ofMagnitudeBits (finite : bits < infinityBits) :
    (ofMagnitudeBits negative bits).toBits.toNat =
      (if negative then powerOfTwo 63 + bits else bits) := by
  have small : (if negative then powerOfTwo 63 + bits else bits) < 2 ^ 64 := by
    simp only [infinityBits, powerOfTwo_eq] at *
    split <;> omega
  have word : (UInt64.ofNat (if negative then powerOfTwo 63 + bits else bits)).toNat =
      if negative then powerOfTwo 63 + bits else bits := UInt64.toNat_ofNat_of_lt small
  rw [ofMagnitudeBits, toBits_ofBits, word]
  rw [word]
  simp only [infinityBits, powerOfTwo_eq] at *
  split <;> omega

/-- The bits below the sign are the ones the double was made of. -/
theorem magnitudeBits_ofMagnitudeBits (finite : bits < infinityBits) :
    magnitudeBits (ofMagnitudeBits negative bits) = bits := by
  rw [magnitudeBits, toNat_ofMagnitudeBits finite]
  simp only [infinityBits, powerOfTwo_eq] at *
  split <;> omega

/-- The sign is the one the double was made of. -/
theorem isNegative_ofMagnitudeBits (finite : bits < infinityBits) :
    isNegative (ofMagnitudeBits negative bits) = negative := by
  rw [isNegative, toNat_ofMagnitudeBits finite]
  simp only [infinityBits, powerOfTwo_eq] at *
  cases negative with
  | false => exact decide_eq_false (by simp; omega)
  | true => exact decide_eq_true (by simp)

/-- A double made of finite bits is finite. -/
theorem isFinite_ofMagnitudeBits (finite : bits < infinityBits) :
    isFinite (ofMagnitudeBits negative bits) = true := by
  rw [isFinite, magnitudeBits_ofMagnitudeBits finite]
  exact decide_eq_true finite

/-- A double made of a sign and finite bits has the units of the bits and the sign. -/
theorem value_ofMagnitudeBits (finite : bits < infinityBits) :
    value (ofMagnitudeBits negative bits) =
      if negative then -(unitsOfBits bits : Int) else unitsOfBits bits := by
  rw [value, isNegative_ofMagnitudeBits finite, units_eq, magnitudeBits_ofMagnitudeBits finite]

end Parts

/-- The sign of a double. -/
def sign (double : Float) : Sign := if isNegative double then .negative else .positive

/-- The word of a double. -/
def word (double : Float) : Word := double.toBits.toBitVec

/-- The word of a double as a number is its bits. -/
theorem toNat_word (double : Float) : (word double).toNat = double.toBits.toNat := rfl

/-- The bits below the sign are the exponent in front of the significand. -/
theorem magnitudeBits_eq (double : Float) :
    magnitudeBits double = (unpackExponent (word double)).toNat * 2 ^ 52 +
      (unpackMantissa (word double)).toNat := by
  rw [toNat_unpackExponent, toNat_unpackMantissa, magnitudeBits, powerOfTwo_eq, toNat_word]
  omega

/-- The sign is the first bit of the word. -/
theorem sign_eq (double : Float) : Sign.ofBitVec (unpackSign (word double)) = sign double := by
  have bound : double.toBits.toNat < 2 ^ 64 := double.toBits.toNat_lt
  have bit : unpackSign (word double) = 0#1 ↔ ¬isNegative double = true := by
    rw [← BitVec.toNat_inj, toNat_unpackSign, isNegative, decide_eq_true_iff, powerOfTwo_eq,
      toNat_word, BitVec.toNat_ofNat]
    omega
  simp only [Sign.ofBitVec, sign, bit, ite_not]

/-- A finite double unpacks to a zero when it has no units, and to its significand and the power
of two that is its gap otherwise. -/
theorem unpack_of_isFinite {double : Float} (finite : isFinite double = true) :
    units double = 0 ∧ double.toModel.unpack = .zero (sign double) ∨
      0 < units double ∧ ∃ positive, double.toModel.unpack =
        .finite (sign double) (significand double) (gapExponent double - 1074 : Int) positive := by
  have bits := magnitudeBits_eq double
  have fraction : (unpackMantissa (word double)).toNat < 2 ^ 52 := (unpackMantissa _).isLt
  have below := (unpackExponent_ne_iff (word double)).mpr (of_decide_eq_true finite)
  have gap : gapExponent double = magnitudeBits double / 2 ^ 52 - 1 := rfl
  have count : significand double = magnitudeBits double - gapExponent double * 2 ^ 52 := rfl
  change _ ∧ unpack Format.binary64 (word double) = _ ∨
    0 < units double ∧ ∃ positive, unpack Format.binary64 (word double) = _
  have counted : 0 < significand double → 0 < units double := fun positive =>
    Nat.mul_pos positive (powerOfTwo_pos _)
  rw [← sign_eq]
  rcases unpack_cases _ below with
    ⟨smallest, zero, unpacked⟩ | ⟨smallest, positive, unpacked⟩ | ⟨larger, positive, unpacked⟩
  · refine .inl ⟨?_, unpacked⟩
    rw [smallest, zero] at bits
    rw [units, count, bits]
    simp
  · have none : (unpackExponent (word double)).toNat = 0 := by rw [smallest]; rfl
    have same : significand double = (unpackMantissa (word double)).toNat := by omega
    have first : gapExponent double = 0 := by omega
    exact .inr ⟨counted (same ▸ positive), same ▸ positive, by simp [unpacked, same, first]⟩
  · have some : (unpackExponent (word double)).toNat ≠ 0 := fun none =>
      larger (BitVec.toNat_inj.mp (by simpa using none))
    have same : significand double = 2 ^ 52 + (unpackMantissa (word double)).toNat := by omega
    have next : (gapExponent double : Int) - 1074 =
        (unpackExponent (word double)).toNat - 1075 := by omega
    exact .inr ⟨counted (same ▸ positive), same ▸ positive, by simp [unpacked, same, next]⟩

/-- Of two doubles the one with fewer units has the smaller gap, or as large a gap and fewer of
them. -/
theorem gaps_of_units_lt {left right : Float} (less : units left < units right) :
    gapExponent left < gapExponent right ∨
      gapExponent left = gapExponent right ∧ significand left < significand right := by
  have bits : magnitudeBits left < magnitudeBits right := unitsOfBits_strictMono.lt_iff_lt.mp less
  simp only [significand, gapExponent, powerOfTwo_eq]
  omega

/-- Doubles with as many units have the same gap and as many of them. -/
theorem gaps_of_units_eq {left right : Float} (same : units left = units right) :
    gapExponent left = gapExponent right ∧ significand left = significand right := by
  have bits : magnitudeBits left = magnitudeBits right := unitsOfBits_strictMono.injective same
  simp only [significand, gapExponent, bits, and_self]

/-- The gap first and the count of gaps second compare as the units. -/
theorem compare_gaps (left right : Float) :
    (compare (gapExponent left - 1074 : Int) (gapExponent right - 1074)).then
      (compare (significand left) (significand right)) =
        compare (units left : Int) (units right) := by
  rcases lt_trichotomy (units left) (units right) with less | same | greater
  · rw [compare_lt_iff_lt.mpr (Int.ofNat_lt.mpr less)]
    rcases gaps_of_units_lt less with gaps | ⟨gaps, counts⟩
    · rw [compare_lt_iff_lt.mpr (by omega), Ordering.lt_then]
    · rw [gaps, Int.compare_eq_eq.mpr rfl, compare_lt_iff_lt.mpr counts, Ordering.eq_then]
  · obtain ⟨gaps, counts⟩ := gaps_of_units_eq same
    rw [gaps, counts, same, Int.compare_eq_eq.mpr rfl, Int.compare_eq_eq.mpr rfl,
      Nat.compare_eq_eq.mpr rfl, Ordering.eq_then]
  · rw [compare_gt_iff_gt.mpr (Int.ofNat_lt.mpr greater)]
    rcases gaps_of_units_lt greater with gaps | ⟨gaps, counts⟩
    · rw [compare_gt_iff_gt.mpr (by omega), Ordering.gt_then]
    · rw [gaps, Int.compare_eq_eq.mpr rfl, compare_gt_iff_gt.mpr counts, Ordering.eq_then]

/-- Opposite integers compare the other way. -/
theorem compare_opposites (left right : Int) : compare (-left) (-right) = compare right left := by
  rw [Int.compare_eq_ite_lt, Int.compare_eq_ite_lt]
  simp only [Int.neg_lt_neg_iff]

/-- Finite doubles compare as their values. -/
theorem compare_unpack {left right : Float} (leftFinite : isFinite left = true)
    (rightFinite : isFinite right = true) :
    left.toModel.unpack.compare right.toModel.unpack =
      some (compare (value left) (value right)) := by
  have gaps := compare_gaps left right
  -- By which of the two are zeros and which are negative: a zero compares with the sign of the
  -- other, unlike signs decide alone, and like signs leave it to the gaps.
  rcases unpack_of_isFinite leftFinite with ⟨leftNone, leftModel⟩ | ⟨leftSome, _, leftModel⟩ <;>
    rcases unpack_of_isFinite rightFinite with
      ⟨rightNone, rightModel⟩ | ⟨rightSome, _, rightModel⟩ <;>
    rw [leftModel, rightModel, sign, sign, value, value] <;>
    cases isNegative left <;> cases isNegative right
  all_goals simp [UnpackedFloat.compare, compare_opposites, *]
  all_goals
    first
    | exact (compare_lt_iff_lt.mpr (by omega)).symm
    | exact (compare_gt_iff_gt.mpr (by omega)).symm
    | exact Int.compare_swap _ _

/-- Finite doubles are equal when their values are. -/
theorem beq_iff {left right : Float} (leftFinite : isFinite left = true)
    (rightFinite : isFinite right = true) :
    (left == right) = true ↔ value left = value right := by
  change (left.toModel.unpack.compare right.toModel.unpack == some .eq) = true ↔ _
  rw [compare_unpack leftFinite rightFinite, beq_iff_eq, Option.some.injEq, compare_eq_iff_eq]

/-- A finite double is less than another when its value is. -/
theorem lt_iff {left right : Float} (leftFinite : isFinite left = true)
    (rightFinite : isFinite right = true) : left < right ↔ value left < value right := by
  have model : left < right ↔
      (left.toModel.unpack.compare right.toModel.unpack == some .lt) = true := by
    exact decide_eq_true_iff
  rw [model, compare_unpack leftFinite rightFinite, beq_iff_eq, Option.some.injEq,
    compare_lt_iff_lt]

end StepGraph.Double
