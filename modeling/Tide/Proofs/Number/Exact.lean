import Mathlib
import Tide.Number.Rounding

/-!
# Rounding of representable values

A finite number counts a whole number of units, and rounding that many units gives the number back,
whatever denominator the count was written over.  Everything that the arithmetic identities need
follows from this one fact and from how the sign bit and the 63 bits below it make up a number.
-/

namespace Tide.Number

/-! ## Sign and magnitude bits -/

theorem fraction_lt (number : Number) : number.fraction < 2 ^ 52 :=
  Nat.mod_lt _ (by decide)

theorem exponentField_lt (number : Number) : number.exponentField < 2048 :=
  Nat.mod_lt _ (by decide)

theorem magnitudeBits_eq (number : Number) :
    number.magnitudeBits = number.exponentField * 2 ^ 52 + number.fraction := by
  simp only [magnitudeBits, exponentField, fraction, Nat.pow_eq]
  omega

theorem exponentField_eq (number : Number) :
    number.exponentField = number.magnitudeBits / 2 ^ 52 := by
  have hfraction := number.fraction_lt
  rw [magnitudeBits_eq]
  omega

theorem fraction_eq (number : Number) :
    number.fraction = number.magnitudeBits % 2 ^ 52 := by
  have hfraction := number.fraction_lt
  rw [magnitudeBits_eq]
  omega

theorem magnitudeBits_lt (number : Number) : number.magnitudeBits < 2 ^ 63 :=
  Nat.mod_lt _ (by decide)

theorem toNat_bits (number : Number) :
    number.bits.toNat =
      (if number.isNegative then 2 ^ 63 else 0) + number.magnitudeBits := by
  have hbits := number.bits.toNat_lt
  simp only [isNegative, magnitudeBits, Nat.pow_eq, decide_eq_true_eq]
  split <;> omega

/-- A number is determined by its sign and the bits below it. -/
theorem eq_of_parts {left right : Number} (hsign : left.isNegative = right.isNegative)
    (hbits : left.magnitudeBits = right.magnitudeBits) : left = right := by
  rcases left with ⟨left⟩
  rcases right with ⟨right⟩
  rw [mk.injEq]
  apply UInt64.toNat_inj.mp
  have hleft := toNat_bits ⟨left⟩
  have hright := toNat_bits ⟨right⟩
  rw [hsign, hbits] at hleft
  exact hleft.trans hright.symm

theorem toNat_bits_ofParts (negative : Bool) {magnitudeBits : Nat}
    (hbits : magnitudeBits < 2 ^ 63) :
    (ofParts negative magnitudeBits).bits.toNat =
      (if negative then 2 ^ 63 else 0) + magnitudeBits := by
  simp only [ofParts, Nat.pow_eq, UInt64.toNat_ofNat']
  apply Nat.mod_eq_of_lt
  split <;> omega

theorem isNegative_ofParts (negative : Bool) {magnitudeBits : Nat}
    (hbits : magnitudeBits < 2 ^ 63) :
    (ofParts negative magnitudeBits).isNegative = negative := by
  simp only [isNegative, toNat_bits_ofParts negative hbits, Nat.pow_eq]
  cases negative <;> simp
  exact hbits

theorem magnitudeBits_ofParts (negative : Bool) {magnitudeBits : Nat}
    (hbits : magnitudeBits < 2 ^ 63) :
    (ofParts negative magnitudeBits).magnitudeBits = magnitudeBits := by
  simp only [Number.magnitudeBits, toNat_bits_ofParts negative hbits, Nat.pow_eq]
  split <;> omega

@[simp]
theorem ofParts_self (number : Number) :
    ofParts number.isNegative number.magnitudeBits = number :=
  eq_of_parts (isNegative_ofParts _ number.magnitudeBits_lt)
    (magnitudeBits_ofParts _ number.magnitudeBits_lt)

@[simp]
theorem magnitudeBits_neg (number : Number) :
    (-number).magnitudeBits = number.magnitudeBits :=
  magnitudeBits_ofParts _ number.magnitudeBits_lt

/-! ## Classes of numbers -/

/-- The absolute value is read off the bits below the sign. -/
theorem magnitude_eq_of_bits {left right : Number}
    (hbits : left.magnitudeBits = right.magnitudeBits) : left.magnitude = right.magnitude := by
  simp only [magnitude, significand, scale, exponentField_eq, fraction_eq, hbits]

theorem isFinite_eq_not (number : Number) :
    number.isFinite = (!number.isNaN && !number.isInfinite) := by
  simp only [isFinite, isNaN, isInfinite, bne]
  cases number.exponentField == 2047 <;> cases number.fraction == 0 <;> rfl

theorem isNaN_of_isFinite {number : Number} (hfinite : number.isFinite = true) :
    number.isNaN = false := by
  rw [isFinite_eq_not] at hfinite
  simp_all

theorem isInfinite_of_isFinite {number : Number} (hfinite : number.isFinite = true) :
    number.isInfinite = false := by
  rw [isFinite_eq_not] at hfinite
  simp_all

/-! ## Rounding -/

theorem roundHalfEven_mul_self (quotient : Nat) {denominator : Nat} (hpos : 0 < denominator) :
    roundHalfEven (quotient * denominator) denominator = quotient := by
  simp [roundHalfEven, Nat.mul_div_cancel _ hpos, hpos]

/-- The binade that rounding picks for a number is its own. -/
theorem log2_magnitude (number : Number) : number.magnitude.log2 - 52 = number.scale := by
  have hfraction := number.fraction_lt
  simp only [magnitude, significand, scale, Nat.pow_eq]
  split
  case isTrue hexponent =>
    rw [hexponent, pow_zero, mul_one]
    by_cases hzero : number.fraction = 0
    · rw [hzero, Nat.log2_zero]
    · have hlog := (Nat.log2_lt hzero).mpr hfraction
      omega
  case isFalse hexponent =>
    have hlog : ((2 ^ 52 + number.fraction) * 2 ^ (number.exponentField - 1)).log2 =
        52 + (number.exponentField - 1) := by
      rw [Nat.log2_eq_iff (by positivity)]
      constructor
      · rw [pow_add]
        gcongr
        omega
      · rw [add_right_comm, pow_add]
        gcongr
        omega
    omega

/-- Rounding the units of a finite number gives its bits, over any denominator. -/
theorem roundedBits_magnitude_mul {number : Number} (hfinite : number.isFinite = true)
    {denominator : Nat} (hpos : 0 < denominator) :
    roundedBits (number.magnitude * denominator) denominator = number.magnitudeBits := by
  have hexponent := number.exponentField_lt
  have hfraction := number.fraction_lt
  have hround : roundHalfEven (number.magnitude * denominator)
      (denominator * 2 ^ number.scale) = number.significand := by
    rw [magnitude, Nat.pow_eq, mul_assoc, mul_comm _ denominator]
    exact roundHalfEven_mul_self _ (by positivity)
  simp only [roundedBits, Nat.mul_div_cancel _ hpos, log2_magnitude, Nat.pow_eq]
  rw [hround, magnitudeBits_eq, significand, scale, infinityBits, Nat.pow_eq]
  simp only [isFinite, bne_iff_ne] at hfinite
  split <;> omega

/-- The units of a finite number, rounded with its sign, are the number. -/
theorem ofUnits_magnitude_mul {number : Number} (hfinite : number.isFinite = true)
    {denominator : Nat} (hpos : 0 < denominator) :
    ofUnits number.isNegative (number.magnitude * denominator) denominator = number := by
  rw [ofUnits, roundedBits_magnitude_mul hfinite hpos, ofParts_self]

theorem ofUnits_magnitude {number : Number} (hfinite : number.isFinite = true) :
    ofUnits number.isNegative number.magnitude 1 = number := by
  simpa using ofUnits_magnitude_mul hfinite Nat.one_pos

theorem roundedBits_zero (denominator : Nat) : roundedBits 0 denominator = 0 := by
  simp [roundedBits, roundHalfEven]

end Tide.Number
