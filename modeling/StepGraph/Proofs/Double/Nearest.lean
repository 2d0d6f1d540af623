import StepGraph.Proofs.Double.Order
import StepGraph.Value.Number

/-!
# The double nearest to an integer

Every integer that fits its word has a finite nearest double, the whole number `nearestInt`:
its 53 leading binary digits, rounded half to even. Rounding keeps the order of integers but not
its strictness. Up to two to the power 53 it is the identity, and from there on neighbours begin
to share their double.
-/
namespace StepGraph.Double

section RoundHalfEven

variable {numerator denominator : Nat}

/-- Rounding goes down to the whole part or up to the number after it. -/
theorem roundHalfEven_bounds (numerator denominator : Nat) :
    numerator / denominator ≤ roundHalfEven numerator denominator ∧
      roundHalfEven numerator denominator ≤ numerator / denominator + 1 := by
  simp only [roundHalfEven]
  grind

/-- A larger numerator does not round to a smaller number. -/
theorem roundHalfEven_mono {larger : Nat} (le : numerator ≤ larger) :
    roundHalfEven numerator denominator ≤ roundHalfEven larger denominator := by
  have wholes : numerator / denominator ≤ larger / denominator := Nat.div_le_div_right le
  rcases Nat.lt_or_eq_of_le wholes with below | same
  · exact ((roundHalfEven_bounds _ _).2.trans below).trans (roundHalfEven_bounds _ _).1
  · have rests : numerator % denominator ≤ larger % denominator := by
      have split := Nat.div_add_mod numerator denominator
      have splitLarger := Nat.div_add_mod larger denominator
      rw [same] at split
      omega
    simp only [roundHalfEven, same]
    grind

/-- A multiple of the denominator is rounded to itself. -/
theorem roundHalfEven_multiple (count : Nat) (positive : 0 < denominator) :
    roundHalfEven (count * denominator) denominator = count := by
  simp [roundHalfEven, Nat.mul_div_cancel _ positive, positive]

/-- A common factor does not change how a quotient is rounded. -/
theorem roundHalfEven_mul_right {factor : Nat} (positive : 0 < factor) :
    roundHalfEven (numerator * factor) (denominator * factor) =
      roundHalfEven numerator denominator := by
  simp only [roundHalfEven, Nat.mul_div_mul_right _ _ positive, Nat.mul_mod_mul_right]
  simp only [← Nat.mul_assoc, Nat.mul_lt_mul_right positive]

end RoundHalfEven

/-- The power of two that a number is rounded to a multiple of, so that 53 digits are left. -/
def excess (magnitude : Nat) : Nat := magnitude.log2 - 52

/-- A number rounded half to even to 53 binary digits. -/
def nearestWhole (magnitude : Nat) : Nat :=
  roundHalfEven magnitude (powerOfTwo (excess magnitude)) * powerOfTwo (excess magnitude)

/-- An integer rounded half to even to 53 binary digits. -/
def nearestInt (value : Int) : Int :=
  if value < 0 then -(nearestWhole value.natAbs : Int) else nearestWhole value.natAbs

/-- A quotient in units has a whole part of 53 digits per gap, or the smallest gap. -/
theorem leading_bounds (whole : Nat) :
    whole / powerOfTwo (excess whole) < powerOfTwo 53 ∧
      (excess whole = 0 ∨ powerOfTwo 52 ≤ whole / powerOfTwo (excess whole)) := by
  simp only [powerOfTwo_eq, excess]
  constructor
  · rw [Nat.div_lt_iff_lt_mul (Nat.two_pow_pos _), ← Nat.pow_add]
    exact Nat.lt_log2_self.trans_le (Nat.pow_le_pow_right (by decide) (by omega))
  · by_cases small : whole.log2 ≤ 52
    · exact .inl (by omega)
    · have positive : whole ≠ 0 := by rintro rfl; simp at small
      refine .inr ((Nat.le_div_iff_mul_le (Nat.two_pow_pos _)).mpr ?_)
      rw [← Nat.pow_add, Nat.add_sub_cancel' (by omega)]
      exact Nat.log2_self_le positive

/-- Rounded to a multiple of its excess a number keeps at most 53 digits, or is the next power
of two, and as many as that unless it is small. -/
theorem rounded_bounds (numerator denominator : Nat) :
    let exponent := excess (numerator / denominator)
    roundHalfEven numerator (denominator * powerOfTwo exponent) ≤ powerOfTwo 53 ∧
      (exponent = 0 ∨
        powerOfTwo 52 ≤ roundHalfEven numerator (denominator * powerOfTwo exponent)) := by
  have leading := leading_bounds (numerator / denominator)
  rw [Nat.div_div_eq_div_mul] at leading
  have rounded := roundHalfEven_bounds numerator
    (denominator * powerOfTwo (excess (numerator / denominator)))
  exact ⟨by omega, leading.2.imp_right (by omega)⟩

/-- The bits of the double nearest to a quotient are its gap and the rounded significand. -/
theorem nearestBits_eq (numerator denominator : Nat) :
    let scaled := numerator * unitsPerOne
    nearestBits numerator denominator = excess (scaled / denominator) * powerOfTwo 52 +
      roundHalfEven scaled (denominator * powerOfTwo (excess (scaled / denominator))) := rfl

/-- The double nearest to a quotient has the rounded significand at the gap of the quotient. -/
theorem unitsOfBits_nearestBits (numerator denominator : Nat) :
    let scaled := numerator * unitsPerOne
    let gap := powerOfTwo (excess (scaled / denominator))
    unitsOfBits (nearestBits numerator denominator) =
      roundHalfEven scaled (denominator * gap) * gap := by
  have bounds := rounded_bounds (numerator * unitsPerOne) denominator
  exact nearestBits_eq numerator denominator ▸ unitsOfBits_of_gaps bounds.1 bounds.2

/-- Scaling by a power of two shifts the leading digit. -/
theorem log2_mul_powerOfTwo {magnitude : Nat} (positive : magnitude ≠ 0) (shift : Nat) :
    (magnitude * powerOfTwo shift).log2 = magnitude.log2 + shift := by
  have scaled : magnitude * powerOfTwo shift ≠ 0 :=
    Nat.mul_ne_zero positive (powerOfTwo_pos shift).ne'
  refine (Nat.log2_eq_iff scaled).mpr ⟨?_, ?_⟩
  · rw [Nat.pow_add]
    exact Nat.mul_le_mul_right _ (Nat.log2_self_le positive)
  · rw [Nat.add_right_comm, Nat.pow_add]
    exact Nat.mul_lt_mul_of_pos_right Nat.lt_log2_self (powerOfTwo_pos shift)

/-- A multiple of its excess has 53 digits already. -/
theorem nearestWhole_of_dvd {magnitude : Nat} (exact : powerOfTwo (excess magnitude) ∣ magnitude) :
    nearestWhole magnitude = magnitude := by
  obtain ⟨count, split⟩ := exact
  have multiple : magnitude = count * powerOfTwo (excess magnitude) := by
    rw [Nat.mul_comm, ← split]
  calc nearestWhole magnitude
      = roundHalfEven (count * powerOfTwo (excess magnitude)) (powerOfTwo (excess magnitude)) *
          powerOfTwo (excess magnitude) := by rw [← multiple, nearestWhole]
    _ = magnitude := by rw [roundHalfEven_multiple count (powerOfTwo_pos _), ← multiple]

/-- Rounding to 53 digits does not depend on where the digits stand. -/
theorem nearestWhole_mul_powerOfTwo (magnitude shift : Nat) :
    nearestWhole (magnitude * powerOfTwo shift) = nearestWhole magnitude * powerOfTwo shift := by
  rcases Nat.eq_zero_or_pos magnitude with rfl | positive
  · rw [Nat.zero_mul, nearestWhole_of_dvd (Nat.dvd_zero _), Nat.zero_mul]
  have scaled : excess (magnitude * powerOfTwo shift) = magnitude.log2 + shift - 52 := by
    rw [excess, log2_mul_powerOfTwo positive.ne']
  by_cases long : 52 ≤ magnitude.log2
  · have shifted : powerOfTwo (magnitude.log2 + shift - 52) =
        powerOfTwo (excess magnitude) * powerOfTwo shift := by
      rw [← powerOfTwo_add, excess]
      congr 1
      omega
    rw [nearestWhole, scaled, shifted, roundHalfEven_mul_right (powerOfTwo_pos shift),
      ← Nat.mul_assoc, nearestWhole]
  · -- With 53 digits or fewer nothing is rounded, before or after the shift.
    have few : excess magnitude = 0 := by rw [excess]; omega
    have within : powerOfTwo (excess (magnitude * powerOfTwo shift)) ∣ powerOfTwo shift :=
      Nat.pow_dvd_pow 2 (by omega)
    rw [nearestWhole_of_dvd (Nat.dvd_mul_left_of_dvd within magnitude),
      nearestWhole_of_dvd (few ▸ Nat.one_dvd magnitude)]

/-- The double nearest to a whole number is that number rounded to 53 digits. -/
theorem unitsOfBits_nearestBits_one (magnitude : Nat) :
    unitsOfBits (nearestBits magnitude 1) = nearestWhole magnitude * unitsPerOne := by
  rw [unitsOfBits_nearestBits, Nat.div_one, Nat.one_mul]
  exact nearestWhole_mul_powerOfTwo magnitude 1074

/-- The excess grows with the number. -/
theorem excess_mono {left right : Nat} (le : left ≤ right) : excess left ≤ excess right := by
  rcases Nat.eq_zero_or_pos left with rfl | positive
  · simp [excess]
  · have leading : left.log2 ≤ right.log2 :=
      (Nat.le_log2 (by omega)).mpr ((Nat.log2_self_le positive.ne').trans le)
    exact Nat.sub_le_sub_right leading 52

/-- A larger number does not round to a smaller one. -/
theorem nearestWhole_mono {left right : Nat} (le : left ≤ right) :
    nearestWhole left ≤ nearestWhole right := by
  rcases Nat.lt_or_eq_of_le (excess_mono le) with less | same
  · -- With more digits in excess the larger number has reached the power of two that the
    -- smaller one can at most be rounded to.
    have upper := (rounded_bounds left 1).1
    have lower := (rounded_bounds right 1).2.resolve_left
    simp only [Nat.div_one, Nat.one_mul] at upper lower
    calc nearestWhole left
        ≤ powerOfTwo 53 * powerOfTwo (excess left) := Nat.mul_le_mul_right _ upper
      _ = powerOfTwo 52 * powerOfTwo (excess left + 1) := by
          rw [← powerOfTwo_add, ← powerOfTwo_add]
          congr 1
          omega
      _ ≤ powerOfTwo 52 * powerOfTwo (excess right) :=
          Nat.mul_le_mul_left _ (Nat.pow_le_pow_right (by decide) less)
      _ ≤ nearestWhole right := Nat.mul_le_mul_right _ (lower (by omega))
  · rw [nearestWhole, nearestWhole, same]
    exact Nat.mul_le_mul_right _ (roundHalfEven_mono le)

/-- Up to two to the power 53 every number is a double. -/
theorem nearestWhole_of_small {magnitude : Nat} (small : magnitude ≤ powerOfTwo 53) :
    nearestWhole magnitude = magnitude := by
  refine nearestWhole_of_dvd ?_
  rcases Nat.lt_or_eq_of_le small with below | rfl
  · have few : excess magnitude = 0 := by
      rcases Nat.eq_zero_or_pos magnitude with rfl | positive
      · rfl
      · have leading : magnitude.log2 < 53 := (Nat.log2_lt positive.ne').mpr below
        rw [excess]
        omega
    exact few ▸ Nat.one_dvd magnitude
  · decide

/-- A larger integer does not round to a smaller one. -/
theorem nearestInt_mono : Monotone nearestInt := by
  intro left right le
  simp only [nearestInt]
  split <;> split
  · have magnitudes := nearestWhole_mono (show right.natAbs ≤ left.natAbs by omega)
    omega
  · omega
  · omega
  · have magnitudes := nearestWhole_mono (show left.natAbs ≤ right.natAbs by omega)
    omega

/-- Up to two to the power 53 in either direction every integer is a double. -/
theorem nearestInt_of_small {number : Int} (small : number.natAbs ≤ powerOfTwo 53) :
    nearestInt number = number := by
  rw [nearestInt, nearestWhole_of_small small]
  omega

section Integer

variable {number : Int} (fits : Number.fitsWord number = true)
include fits

/-- An integer that fits its word has at most 64 digits. -/
theorem natAbs_lt_of_fitsWord : number.natAbs < 2 ^ 64 := by
  have bounds := of_decide_eq_true fits
  simp only [Number.wordCount, powerOfTwo_eq] at bounds
  omega

/-- The double nearest to an integer that fits its word is not an infinity. -/
theorem nearestBits_lt : nearestBits number.natAbs 1 < infinityBits := by
  have rounded := (rounded_bounds (number.natAbs * unitsPerOne) 1).1
  have few : excess (number.natAbs * unitsPerOne) ≤ 1085 := by
    rcases Nat.eq_zero_or_pos number.natAbs with zero | positive
    · simp [zero, excess]
    · have digits : number.natAbs.log2 < 64 :=
        (Nat.log2_lt positive.ne').mpr (natAbs_lt_of_fitsWord fits)
      rw [excess, unitsPerOne, log2_mul_powerOfTwo positive.ne']
      omega
  rw [nearestBits_eq]
  simp only [Nat.div_one, infinityBits, powerOfTwo_eq] at *
  omega

/-- The double nearest to an integer that fits its word is finite. -/
theorem isFinite_ofInt : isFinite (ofInt number) = true := by
  rw [ofInt, Nat.min_eq_left (nearestBits_lt fits).le]
  exact isFinite_ofMagnitudeBits (nearestBits_lt fits)

/-- The value of the double nearest to an integer that fits its word. -/
theorem value_ofInt : value (ofInt number) = nearestInt number * unitsPerOne := by
  rw [ofInt, Nat.min_eq_left (nearestBits_lt fits).le, value_ofMagnitudeBits (nearestBits_lt fits),
    unitsOfBits_nearestBits_one, nearestInt]
  simp only [decide_eq_true_eq, Int.natCast_mul]
  split
  · rw [Int.neg_mul]
  · rfl

end Integer

end StepGraph.Double
