import Tide.Proofs.Number.Exact

/-!
# Arithmetic up to the sign of zero

Two numbers are the same value when they are equal bit by bit or both are zeros.  Adding zero,
multiplying by one and dividing by one give a finite number back up to that sign, a product with
zero is a zero, and no operation can tell the two zeros apart.
-/

namespace Tide.Number

/-- The number, with a negative zero read as zero. -/
def unsignedZero (number : Number) : Number :=
  if number.isZero then zero else number

/-- Equal up to the sign of zero.  Unlike numeric equality this holds of a NaN and itself. -/
def SameValue (left right : Number) : Prop :=
  left.unsignedZero = right.unsignedZero

instance (left right : Number) : Decidable (SameValue left right) :=
  inferInstanceAs (Decidable (left.unsignedZero = right.unsignedZero))

/-! ## Zeros -/

theorem magnitude_eq_zero_iff (number : Number) :
    number.magnitude = 0 ↔ number.exponentField = 0 ∧ number.fraction = 0 := by
  have hpow : Nat.pow 2 number.scale ≠ 0 := (Nat.two_pow_pos _).ne'
  rw [magnitude, Nat.mul_eq_zero, or_iff_left hpow, significand, Nat.pow_eq]
  split <;> omega

theorem isFinite_of_magnitude_eq_zero {number : Number} (hzero : number.magnitude = 0) :
    number.isFinite = true := by
  rw [magnitude_eq_zero_iff] at hzero
  simp [isFinite, hzero.1]

theorem units_eq_zero_iff (number : Number) : number.units = 0 ↔ number.magnitude = 0 := by
  rw [units]
  split <;> omega

theorem isZero_iff (number : Number) : number.isZero = true ↔ number.magnitude = 0 := by
  have hunits : zero.units = 0 := by decide
  have hnan : zero.isNaN = false := by decide
  simp only [isZero, equals, hunits, hnan, Bool.and_eq_true, Bool.not_eq_true', beq_iff_eq,
    units_eq_zero_iff, and_true, and_iff_right_iff_imp]
  intro hzero
  exact isNaN_of_isFinite (isFinite_of_magnitude_eq_zero hzero)

theorem isFinite_of_isZero {number : Number} (hzero : number.isZero = true) :
    number.isFinite = true :=
  isFinite_of_magnitude_eq_zero ((isZero_iff number).mp hzero)

theorem units_of_isZero {number : Number} (hzero : number.isZero = true) : number.units = 0 :=
  (units_eq_zero_iff number).mpr ((isZero_iff number).mp hzero)

theorem isZero_ofParts (negative : Bool) : (ofParts negative 0).isZero = true := by
  cases negative <;> decide

theorem isZero_ofUnits (negative : Bool) (denominator : Nat) :
    (ofUnits negative 0 denominator).isZero = true := by
  rw [ofUnits, roundedBits_zero]
  exact isZero_ofParts negative

/-! ## The same value -/

@[simp]
theorem SameValue.refl (number : Number) : SameValue number number := rfl

theorem SameValue.symm {left right : Number} (hsame : SameValue left right) :
    SameValue right left := Eq.symm hsame

theorem sameValue_of_isZero {left right : Number} (hleft : left.isZero = true)
    (hright : right.isZero = true) : SameValue left right := by
  rw [SameValue, unsignedZero, unsignedZero, if_pos hleft, if_pos hright]

theorem sameValue_iff (left right : Number) :
    SameValue left right ↔ left = right ∨ left.isZero = true ∧ right.isZero = true := by
  have hzero : zero.isZero = true := by decide
  constructor
  · intro hsame
    simp only [SameValue, unsignedZero] at hsame
    split at hsame <;> split at hsame
    · right
      constructor <;> assumption
    · subst hsame
      contradiction
    · subst hsame
      contradiction
    · exact .inl hsame
  · rintro (rfl | ⟨hleft, hright⟩)
    · rfl
    · exact sameValue_of_isZero hleft hright

theorem SameValue.isZero_eq {left right : Number} (hsame : SameValue left right) :
    left.isZero = right.isZero := by
  rcases (sameValue_iff left right).mp hsame with rfl | ⟨hleft, hright⟩
  · rfl
  · rw [hleft, hright]

theorem SameValue.isFinite_eq {left right : Number} (hsame : SameValue left right) :
    left.isFinite = right.isFinite := by
  rcases (sameValue_iff left right).mp hsame with rfl | ⟨hleft, hright⟩
  · rfl
  · rw [isFinite_of_isZero hleft, isFinite_of_isZero hright]

theorem SameValue.isNaN_eq {left right : Number} (hsame : SameValue left right) :
    left.isNaN = right.isNaN := by
  rcases (sameValue_iff left right).mp hsame with rfl | ⟨hleft, hright⟩
  · rfl
  · rw [isNaN_of_isFinite (isFinite_of_isZero hleft), isNaN_of_isFinite (isFinite_of_isZero hright)]

theorem SameValue.units_eq {left right : Number} (hsame : SameValue left right) :
    left.units = right.units := by
  rcases (sameValue_iff left right).mp hsame with rfl | ⟨hleft, hright⟩
  · rfl
  · rw [units_of_isZero hleft, units_of_isZero hright]

/-! ## Sums -/

theorem isZero_neg {number : Number} (hzero : number.isZero = true) : (-number).isZero = true := by
  rw [isZero_iff, magnitude_eq_of_bits number.magnitudeBits_neg]
  exact (isZero_iff number).mp hzero

/-- The sum of two finite numbers, as rounding sees it. -/
theorem add_of_isFinite {left right : Number} (hleft : left.isFinite = true)
    (hright : right.isFinite = true) :
    left + right =
      if left.units + right.units = 0 then ofParts (left.isNegative && right.isNegative) 0
      else ofUnits (left.units + right.units < 0) (left.units + right.units).natAbs 1 := by
  change add left right = _
  simp only [add, isNaN_of_isFinite hleft, isNaN_of_isFinite hright,
    isInfinite_of_isFinite hleft, isInfinite_of_isFinite hright, Bool.or_self,
    Bool.false_eq_true, if_false]

/-- A finite number other than zero is the rounding of its units. -/
theorem ofUnits_units {number : Number} (hfinite : number.isFinite = true)
    (hunits : number.units ≠ 0) :
    ofUnits (number.units < 0) number.units.natAbs 1 = number := by
  have hsign : decide (number.units < 0) = number.isNegative := by
    rw [units] at hunits ⊢
    by_cases hnegative : number.isNegative = true
    · rw [if_pos hnegative] at hunits ⊢
      rw [hnegative, decide_eq_true_eq]
      omega
    · rw [if_neg hnegative]
      rw [Bool.not_eq_true] at hnegative
      rw [hnegative, decide_eq_false_iff_not]
      omega
  have hmagnitude : number.units.natAbs = number.magnitude := by
    rw [units]
    split <;> omega
  rw [hsign, hmagnitude, ofUnits_magnitude hfinite]

/-- Rounding the units of a finite number with any sign for a zero gives the same value. -/
theorem sameValue_ofUnits_units {number : Number} (hfinite : number.isFinite = true)
    (negative : Bool) :
    SameValue
      (if number.units = 0 then ofParts negative 0
        else ofUnits (number.units < 0) number.units.natAbs 1) number := by
  split
  case isTrue hunits =>
    have hzero : number.isZero = true := by
      rw [isZero_iff, ← units_eq_zero_iff]
      exact hunits
    exact sameValue_of_isZero (isZero_ofParts negative) hzero
  case isFalse hunits =>
    rw [ofUnits_units hfinite hunits]
    exact SameValue.refl number

theorem sameValue_add_of_isZero {number other : Number} (hfinite : number.isFinite = true)
    (hzero : other.isZero = true) : SameValue (number + other) number := by
  rw [add_of_isFinite hfinite (isFinite_of_isZero hzero), units_of_isZero hzero, add_zero]
  exact sameValue_ofUnits_units hfinite _

theorem sameValue_of_isZero_add {number other : Number} (hfinite : number.isFinite = true)
    (hzero : other.isZero = true) : SameValue (other + number) number := by
  rw [add_of_isFinite (isFinite_of_isZero hzero) hfinite, units_of_isZero hzero, zero_add]
  exact sameValue_ofUnits_units hfinite _

theorem sameValue_sub_of_isZero {number other : Number} (hfinite : number.isFinite = true)
    (hzero : other.isZero = true) : SameValue (number - other) number :=
  sameValue_add_of_isZero hfinite (isZero_neg hzero)

theorem isFinite_nan (negative : Bool) : (nan negative).isFinite = false := by
  cases negative <;> decide

theorem isFinite_of_isInfinite {number : Number} (hinfinite : number.isInfinite = true) :
    number.isFinite = false := by
  rw [isFinite_eq_not, hinfinite, Bool.not_true, Bool.and_false]

/-- A finite sum has finite operands. -/
theorem isFinite_of_add {left right : Number} (hsum : (left + right).isFinite = true) :
    left.isFinite = true ∧ right.isFinite = true := by
  change (add left right).isFinite = true at hsum
  rw [add] at hsum
  split_ifs at hsum with hnan hleft hsigns hright
  · simp [isFinite_nan] at hsum
  · simp [isFinite_nan] at hsum
  · simp [isFinite_of_isInfinite hleft] at hsum
  · simp [isFinite_of_isInfinite hright] at hsum
  all_goals
    rw [isFinite_eq_not left, isFinite_eq_not right]
    simp_all

/-! ## Products and quotients -/

theorem mul_of_isFinite {left right : Number} (hleft : left.isFinite = true)
    (hright : right.isFinite = true) :
    left * right =
      ofUnits (left.isNegative != right.isNegative) (left.magnitude * right.magnitude)
        unitsPerOne := by
  change mul left right = _
  simp only [mul, isNaN_of_isFinite hleft, isNaN_of_isFinite hright,
    isInfinite_of_isFinite hleft, isInfinite_of_isFinite hright, Bool.or_self,
    Bool.false_eq_true, if_false]

theorem isFinite_infinity (negative : Bool) : (infinity negative).isFinite = false := by
  cases negative <;> decide

/-- A finite product has finite operands. -/
theorem isFinite_of_mul {left right : Number} (hproduct : (left * right).isFinite = true) :
    left.isFinite = true ∧ right.isFinite = true := by
  change (mul left right).isFinite = true at hproduct
  simp only [mul] at hproduct
  split_ifs at hproduct with hnan hinfinite hzero
  · simp [isFinite_nan] at hproduct
  · simp [isFinite_nan] at hproduct
  · simp [isFinite_infinity] at hproduct
  · rw [isFinite_eq_not left, isFinite_eq_not right]
    simp_all

theorem isZero_mul_of_isZero {number other : Number} (hfinite : number.isFinite = true)
    (hzero : other.isZero = true) : (number * other).isZero = true := by
  rw [mul_of_isFinite hfinite (isFinite_of_isZero hzero), (isZero_iff other).mp hzero, mul_zero]
  exact isZero_ofUnits _ _

theorem isZero_of_isZero_mul {number other : Number} (hfinite : number.isFinite = true)
    (hzero : other.isZero = true) : (other * number).isZero = true := by
  rw [mul_of_isFinite (isFinite_of_isZero hzero) hfinite, (isZero_iff other).mp hzero, zero_mul]
  exact isZero_ofUnits _ _

theorem magnitude_one : one.magnitude = unitsPerOne := by
  decide +kernel

theorem isFinite_one : one.isFinite = true := by
  decide

theorem isZero_one : one.isZero = false := by
  decide +kernel

theorem units_one : one.units = unitsPerOne := by
  decide +kernel

theorem magnitude_of_isInfinite {number : Number} (hinfinite : number.isInfinite = true) :
    number.magnitude = (infinity false).magnitude := by
  simp only [isInfinite, Bool.and_eq_true, beq_iff_eq] at hinfinite
  apply magnitude_eq_of_bits
  rw [magnitudeBits_eq, hinfinite.1, hinfinite.2]
  decide

/-- Only the number one itself is numerically equal to one. -/
theorem eq_one_of_equals {number : Number} (hone : number.equals one = true) : number = one := by
  simp only [equals, Bool.and_eq_true, Bool.not_eq_true', beq_iff_eq, units_one] at hone
  obtain ⟨⟨hnan, -⟩, hunits⟩ := hone
  have hinfinite : number.isInfinite = false := by
    rw [Bool.eq_false_iff]
    intro hinfinite
    have hlarge : (unitsPerOne : Int).natAbs ≠ (infinity false).magnitude := by
      decide +kernel
    apply hlarge
    rw [← magnitude_of_isInfinite hinfinite, ← hunits, units]
    split <;> omega
  have hfinite : number.isFinite = true := by
    rw [isFinite_eq_not, hnan, hinfinite]
    rfl
  have hpositive : (unitsPerOne : Int) ≠ 0 := by
    decide +kernel
  rw [← ofUnits_units hfinite (hunits ▸ hpositive),
    ← ofUnits_units isFinite_one (units_one ▸ hpositive), hunits, units_one]

theorem unitsPerOne_pos : 0 < unitsPerOne := by
  decide +kernel

theorem mul_one_of_isFinite {number : Number} (hfinite : number.isFinite = true) :
    number * one = number := by
  have hsign : one.isNegative = false := by decide
  rw [mul_of_isFinite hfinite (by decide), hsign, Bool.bne_false, magnitude_one]
  exact ofUnits_magnitude_mul hfinite unitsPerOne_pos

theorem one_mul_of_isFinite {number : Number} (hfinite : number.isFinite = true) :
    one * number = number := by
  have hsign : one.isNegative = false := by decide
  rw [mul_of_isFinite (by decide) hfinite, hsign, Bool.false_bne, magnitude_one, mul_comm]
  exact ofUnits_magnitude_mul hfinite unitsPerOne_pos

theorem div_one_of_isFinite {number : Number} (hfinite : number.isFinite = true) :
    number / one = number := by
  have hsign : one.isNegative = false := by decide
  have hnan : one.isNaN = false := by decide
  have hinfinite : one.isInfinite = false := by decide
  change div number one = number
  simp only [div, isNaN_of_isFinite hfinite, isInfinite_of_isFinite hfinite, hsign, hnan,
    hinfinite, magnitude_one, unitsPerOne_pos.ne', Bool.or_self, Bool.bne_false,
    Bool.false_eq_true, if_false]
  exact ofUnits_magnitude_mul hfinite unitsPerOne_pos

/-- A finite quotient has a finite dividend. -/
theorem isFinite_of_div {left right : Number} (hquotient : (left / right).isFinite = true) :
    left.isFinite = true := by
  change (div left right).isFinite = true at hquotient
  simp only [div] at hquotient
  split_ifs at hquotient with hnan hleft
  · simp [isFinite_nan] at hquotient
  · simp [isFinite_nan] at hquotient
  · simp [isFinite_infinity] at hquotient
  all_goals
    rw [isFinite_eq_not left]
    simp_all

/-! ## Operations on the same values -/

theorem SameValue.neg {left right : Number} (hsame : SameValue left right) :
    SameValue (-left) (-right) := by
  rcases (sameValue_iff left right).mp hsame with rfl | ⟨hleft, hright⟩
  · exact SameValue.refl _
  · exact sameValue_of_isZero (isZero_neg hleft) (isZero_neg hright)

theorem SameValue.magnitude_eq {left right : Number} (hsame : SameValue left right) :
    left.magnitude = right.magnitude := by
  rcases (sameValue_iff left right).mp hsame with rfl | ⟨hleft, hright⟩
  · rfl
  · rw [(isZero_iff left).mp hleft, (isZero_iff right).mp hright]

theorem SameValue.eq_of_magnitude_ne_zero {left right : Number} (hsame : SameValue left right)
    (hmagnitude : left.magnitude ≠ 0) : left = right := by
  rcases (sameValue_iff left right).mp hsame with heq | ⟨hleft, -⟩
  · exact heq
  · exact absurd ((isZero_iff left).mp hleft) hmagnitude

/-- A finite sum depends on the units of its operands only. -/
theorem SameValue.add {left left' right right' : Number} (hleft : SameValue left left')
    (hright : SameValue right right') (hfinite : (left + right).isFinite = true) :
    SameValue (left + right) (left' + right') := by
  obtain ⟨hfiniteLeft, hfiniteRight⟩ := isFinite_of_add hfinite
  rw [add_of_isFinite hfiniteLeft hfiniteRight,
    add_of_isFinite (hleft.isFinite_eq ▸ hfiniteLeft) (hright.isFinite_eq ▸ hfiniteRight),
    hleft.units_eq, hright.units_eq]
  split
  · exact sameValue_of_isZero (isZero_ofParts _) (isZero_ofParts _)
  · exact SameValue.refl _

theorem SameValue.sub {left left' right right' : Number} (hleft : SameValue left left')
    (hright : SameValue right right') (hfinite : (left - right).isFinite = true) :
    SameValue (left - right) (left' - right') :=
  hleft.add hright.neg hfinite

/-- The signs matter to a finite product only when no operand is a zero. -/
theorem SameValue.mul {left left' right right' : Number} (hleft : SameValue left left')
    (hright : SameValue right right') (hfinite : (left * right).isFinite = true) :
    SameValue (left * right) (left' * right') := by
  obtain ⟨hfiniteLeft, hfiniteRight⟩ := isFinite_of_mul hfinite
  by_cases hproduct : left.magnitude * right.magnitude = 0
  · rw [mul_of_isFinite hfiniteLeft hfiniteRight,
      mul_of_isFinite (hleft.isFinite_eq ▸ hfiniteLeft) (hright.isFinite_eq ▸ hfiniteRight),
      ← hleft.magnitude_eq, ← hright.magnitude_eq, hproduct]
    exact sameValue_of_isZero (isZero_ofUnits _ _) (isZero_ofUnits _ _)
  · rw [Nat.mul_eq_zero, not_or] at hproduct
    rw [hleft.eq_of_magnitude_ne_zero hproduct.1, hright.eq_of_magnitude_ne_zero hproduct.2]
    exact SameValue.refl _

theorem isZero_div {left right : Number} (hleft : left.isZero = true)
    (hnan : right.isNaN = false) (hright : right.magnitude ≠ 0) :
    (left / right).isZero = true := by
  have hfinite := isFinite_of_isZero hleft
  change (div left right).isZero = true
  simp only [div, isNaN_of_isFinite hfinite, isInfinite_of_isFinite hfinite, hnan,
    (isZero_iff left).mp hleft, hright, Bool.or_self, Bool.false_eq_true, if_false, zero_mul]
  split
  · exact isZero_ofParts _
  · exact isZero_ofUnits _ _

theorem isZero_rem {left right : Number} (hleft : left.isZero = true)
    (hnan : right.isNaN = false) (hright : right.magnitude ≠ 0) :
    (left % right).isZero = true := by
  have hfinite := isFinite_of_isZero hleft
  change (rem left right).isZero = true
  simp only [rem, isNaN_of_isFinite hfinite, isInfinite_of_isFinite hfinite, hnan,
    (isZero_iff left).mp hleft, hright, Bool.or_self, decide_false, Bool.false_eq_true, if_false,
    Nat.zero_mod]
  split
  · exact hleft
  · exact isZero_ofUnits _ _

/-- The quotient by a number other than zero. -/
theorem SameValue.div {left left' right : Number} (hleft : SameValue left left')
    (hright : right.magnitude ≠ 0) : SameValue (left / right) (left' / right) := by
  rcases (sameValue_iff left left').mp hleft with rfl | ⟨hzero, hzero'⟩
  · exact SameValue.refl _
  · cases hnan : right.isNaN with
    | true =>
        change SameValue (Number.div left right) (Number.div left' right)
        simp [Number.div, hnan]
    | false =>
        exact sameValue_of_isZero (isZero_div hzero hnan hright) (isZero_div hzero' hnan hright)

/-- The remainder by a number other than zero. -/
theorem SameValue.rem {left left' right : Number} (hleft : SameValue left left')
    (hright : right.magnitude ≠ 0) : SameValue (left % right) (left' % right) := by
  rcases (sameValue_iff left left').mp hleft with rfl | ⟨hzero, hzero'⟩
  · exact SameValue.refl _
  · cases hnan : right.isNaN with
    | true =>
        change SameValue (Number.rem left right) (Number.rem left' right)
        simp [Number.rem, hnan]
    | false =>
        exact sameValue_of_isZero (isZero_rem hzero hnan hright) (isZero_rem hzero' hnan hright)

/-- An operation that gives zero for a right operand of zero respects the same values if it does so
for every other right operand. -/
theorem SameValue.unlessZero {operation : Number → Number → Number}
    {left left' right right' : Number} (hright : SameValue right right')
    (hoperation : right.magnitude ≠ 0 →
      SameValue (operation left right) (operation left' right)) :
    SameValue (if right.isZero then zero else operation left right)
      (if right'.isZero then zero else operation left' right') := by
  rw [← hright.isZero_eq]
  split
  case isTrue => exact SameValue.refl zero
  case isFalse hzero =>
    rw [isZero_iff] at hzero
    rw [← hright.eq_of_magnitude_ne_zero hzero]
    exact hoperation hzero

end Tide.Number
