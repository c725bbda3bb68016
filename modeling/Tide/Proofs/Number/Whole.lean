import Tide.Proofs.Number.Decimal

/-!
# Decimals of whole numbers

Where rounding gives a number its place, a whole number is already a multiple of that place, or the
place is itself a multiple of one.  Either way it is rounded to a whole number, so a decimal without
digits after the point is read as one.
-/

namespace Tide.Number

/-! ## The value of rounded bits -/

theorem magnitudeBits_lt_infinityBits {number : Number} (hfinite : number.isFinite = true) :
    number.magnitudeBits < infinityBits := by
  have hexponent := number.exponentField_lt
  have hfraction := number.fraction_lt
  simp only [isFinite, bne_iff_ne] at hfinite
  rw [magnitudeBits_eq, infinityBits, Nat.pow_eq]
  omega

theorem roundHalfEven_bounds (numerator denominator : Nat) :
    numerator / denominator ≤ roundHalfEven numerator denominator ∧
      roundHalfEven numerator denominator ≤ numerator / denominator + 1 := by
  unfold roundHalfEven
  dsimp only
  split_ifs <;> omega

/-- The bits for a significand and its doublings, also for one that rounding carried into the next
binade. -/
theorem magnitude_of_magnitudeBits {number : Number} {doublings significand : Nat}
    (hbits : number.magnitudeBits = doublings * 2 ^ 52 + significand)
    (hlower : doublings = 0 ∨ 2 ^ 52 ≤ significand) (hupper : significand ≤ 2 ^ 53) :
    number.magnitude = significand * 2 ^ doublings := by
  have hexponent := number.exponentField_eq
  have hfraction := number.fraction_eq
  simp only [magnitude, Number.significand, scale, Nat.pow_eq]
  rw [hbits] at hexponent hfraction
  rcases lt_or_ge significand (2 ^ 52) with hsmall | hlarge
  · rw [show number.exponentField = 0 by omega, show number.fraction = significand by omega,
      show doublings = 0 by omega, if_pos rfl]
  rcases hupper.lt_or_eq with hlt | rfl
  · rw [show number.exponentField = doublings + 1 by omega,
      show number.fraction = significand - 2 ^ 52 by omega, if_neg (Nat.succ_ne_zero _),
      Nat.add_sub_of_le hlarge, Nat.add_sub_cancel]
  · rw [show number.exponentField = doublings + 2 by omega, show number.fraction = 0 by omega,
      if_neg (Nat.succ_ne_zero _), Nat.add_zero, Nat.add_sub_assoc (by decide), ← pow_add,
      ← pow_add]
    congr 1
    omega

/-- The number that rounding gives is the nearest multiple of its place. -/
theorem magnitude_of_roundedBits {number : Number} (hfinite : number.isFinite = true) {units : Nat}
    (hbits : roundedBits units 1 = number.magnitudeBits) :
    number.magnitude =
      roundHalfEven units (2 ^ (units.log2 - 52)) * 2 ^ (units.log2 - 52) := by
  have hinfinite := magnitudeBits_lt_infinityBits hfinite
  simp only [roundedBits, Nat.div_one, Nat.one_mul, Nat.pow_eq] at hbits
  obtain ⟨hquotient, hrounded⟩ := roundHalfEven_bounds units (2 ^ (units.log2 - 52))
  have hshort : units / 2 ^ (units.log2 - 52) < 2 ^ 53 := by
    rw [Nat.div_lt_iff_lt_mul (by positivity), ← pow_add]
    refine lt_of_lt_of_le Nat.lt_log2_self (Nat.pow_le_pow_right (by decide) (by omega))
  have hlong : units.log2 - 52 = 0 ∨ 2 ^ 52 ≤ units / 2 ^ (units.log2 - 52) := by
    rcases Nat.eq_zero_or_pos (units.log2 - 52) with hzero | hpos
    · exact .inl hzero
    · refine .inr ((Nat.le_div_iff_mul_le (by positivity)).mpr ?_)
      rw [← pow_add, show 52 + (units.log2 - 52) = units.log2 by omega]
      refine Nat.log2_self_le ?_
      rintro rfl
      simp at hpos
  apply magnitude_of_magnitudeBits
  · omega
  · omega
  · omega

/-! ## Whole numbers -/

theorem unitsPerOne_eq : unitsPerOne = 2 ^ 1074 := by
  decide +kernel

/-- Rounding a whole number gives a whole number. -/
theorem isWhole_of_roundedBits {number : Number} (hfinite : number.isFinite = true) {whole : Nat}
    (hbits : roundedBits (whole * unitsPerOne) 1 = number.magnitudeBits) :
    number.isWhole = true := by
  have hmagnitude := magnitude_of_roundedBits hfinite hbits
  generalize (whole * unitsPerOne).log2 - 52 = doublings at hmagnitude
  have hdvd : unitsPerOne ∣ number.magnitude := by
    rw [hmagnitude]
    rcases le_total doublings 1074 with hle | hge
    · -- Places after the point are not needed, so nothing is rounded away.
      have hplaces : whole * unitsPerOne = whole * 2 ^ (1074 - doublings) * 2 ^ doublings := by
        rw [mul_assoc, ← pow_add, Nat.sub_add_cancel hle, unitsPerOne_eq]
      rw [hplaces, roundHalfEven_mul_self _ (by positivity), ← hplaces]
      exact Nat.dvd_mul_left _ _
    · rw [unitsPerOne_eq]
      exact Dvd.dvd.mul_left (pow_dvd_pow 2 hge) _
  rw [isWhole, hfinite, Nat.mod_eq_zero_of_dvd hdvd]
  rfl

/-- Digits without a point are read as a whole number. -/
theorem isWhole_of_decimalBits {number : Number} (hfinite : number.isFinite = true)
    {digits places : Nat} (hbits : decimalBits digits places = number.magnitudeBits) :
    number.isWhole = true := by
  by_cases hdigits : digits = 0
  · rw [decimalBits, if_pos hdigits, ← roundedBits_zero 1, ← Nat.zero_mul unitsPerOne] at hbits
    exact isWhole_of_roundedBits hfinite hbits
  by_cases hplaces : places + (Nat.toDigits 10 digits).length ≤ 310
  · rw [decimalBits_eq_roundedBits hdigits (by omega) (by omega), Nat.pow_eq,
      show (-(places : Int)).toNat = 0 by omega, Nat.pow_eq, pow_zero] at hbits
    exact isWhole_of_roundedBits hfinite hbits
  · have hinfinite := magnitudeBits_lt_infinityBits hfinite
    rw [decimalBits, if_neg hdigits, if_pos (by omega)] at hbits
    omega

/-- The shortest decimal of a number that is not whole has digits after the point. -/
theorem exponent_shortest_neg {number : Number} (hfinite : number.isFinite = true)
    (hfraction : number.isWhole = false) : number.shortest.exponent < 0 := by
  by_contra hexponent
  obtain ⟨places, hplaces⟩ := Int.eq_ofNat_of_zero_le (Int.not_lt.mp hexponent)
  have hbits := decimalBits_shortest hfinite
  rw [hplaces] at hbits
  rw [isWhole_of_decimalBits hfinite hbits] at hfraction
  cases hfraction

end Tide.Number
