import Tide.Number.Reading
import Tide.Proofs.Number.Exact
import Tide.Proofs.Token.Lexeme

/-!
# Decimals that read back

The decimal that is written for a finite number reads as the number itself: each candidate is read
before it is taken, and the exact decimal that is left when none is taken rounds to the number.
Moving zeros between the digits and the exponent changes nothing, and each layout of the digits is a
numeral that is read as the same decimal.
-/

namespace Tide.Number

/-! ## Decimals and bits -/

/-- The bits below the sign bit of the number nearest to `digits * 10 ^ exponent`. -/
def decimalBits (digits : Nat) (exponent : Int) : Nat :=
  if digits = 0 then 0
  else
    let order := exponent + (Nat.toDigits 10 digits).length
    if 310 < order then infinityBits
    else if order < -325 then 0
    else roundedBits (digits * Nat.pow 10 exponent.toNat * unitsPerOne)
      (Nat.pow 10 (-exponent).toNat)

theorem ofDecimal_eq_ofParts (negative : Bool) (digits : Nat) (exponent : Int) :
    ofDecimal negative digits exponent = ofParts negative (decimalBits digits exponent) := by
  simp only [ofDecimal, decimalBits, infinity, ofUnits]
  split_ifs <;> rfl

theorem decimalBits_lt (digits : Nat) (exponent : Int) : decimalBits digits exponent < 2 ^ 63 := by
  have hinfinity : infinityBits < 2 ^ 63 := by decide
  simp only [decimalBits]
  split_ifs
  · decide
  · exact hinfinity
  · decide
  · exact lt_of_le_of_lt (min_le_right _ _) hinfinity

theorem ofDecimal_eq_iff {number : Number} {digits : Nat} {exponent : Int} :
    ofDecimal number.isNegative digits exponent = number ↔
      decimalBits digits exponent = number.magnitudeBits := by
  rw [ofDecimal_eq_ofParts]
  constructor
  · intro heq
    rw [← heq, magnitudeBits_ofParts _ (decimalBits_lt digits exponent)]
  · intro hbits
    rw [hbits, ofParts_self]

theorem roundHalfEven_mul_mul {factor : Nat} (hpos : 0 < factor) (numerator denominator : Nat) :
    roundHalfEven (factor * numerator) (factor * denominator) =
      roundHalfEven numerator denominator := by
  simp only [roundHalfEven, Nat.mul_div_mul_left _ _ hpos, Nat.mul_mod_mul_left,
    Nat.mul_left_comm 2 factor, Nat.mul_lt_mul_left hpos]

theorem roundedBits_mul_mul {factor : Nat} (hpos : 0 < factor) (numerator denominator : Nat) :
    roundedBits (factor * numerator) (factor * denominator) =
      roundedBits numerator denominator := by
  simp only [roundedBits, Nat.mul_div_mul_left _ _ hpos, Nat.mul_assoc factor,
    roundHalfEven_mul_mul hpos]

theorem length_toDigits_mul_ten {digits : Nat} (hdigits : digits ≠ 0) :
    (Nat.toDigits 10 (digits * 10)).length = (Nat.toDigits 10 digits).length + 1 := by
  rw [Nat.toDigits_of_base_le (by decide) (by omega), Nat.mul_div_cancel _ (by decide)]
  simp

/-- A zero at the end of the digits is a step of the exponent. -/
theorem decimalBits_mul_ten (digits : Nat) (exponent : Int) :
    decimalBits (digits * 10) exponent = decimalBits digits (exponent + 1) := by
  by_cases hdigits : digits = 0
  · simp [hdigits, decimalBits]
  have horder : exponent + ((Nat.toDigits 10 (digits * 10)).length : Int) =
      exponent + 1 + (Nat.toDigits 10 digits).length := by
    rw [length_toDigits_mul_ten hdigits]
    omega
  have hround : roundedBits (digits * 10 * Nat.pow 10 exponent.toNat * unitsPerOne)
      (Nat.pow 10 (-exponent).toNat) =
      roundedBits (digits * Nat.pow 10 (exponent + 1).toNat * unitsPerOne)
        (Nat.pow 10 (-(exponent + 1)).toNat) := by
    simp only [Nat.pow_eq]
    rcases le_or_gt 0 exponent with hexponent | hexponent
    · rw [show (exponent + 1).toNat = exponent.toNat + 1 by omega,
        show (-(exponent + 1)).toNat = (-exponent).toNat by omega, pow_succ']
      ring_nf
    · rw [show (-exponent).toNat = (-(exponent + 1)).toNat + 1 by omega,
        show (exponent + 1).toNat = exponent.toNat by omega, pow_succ',
        ← roundedBits_mul_mul (by decide : 0 < 10) (digits * 10 ^ exponent.toNat * unitsPerOne),
        mul_comm digits 10, mul_assoc 10, mul_assoc 10]
  simp only [decimalBits, horder, hround, Nat.mul_eq_zero, hdigits, OfNat.ofNat_ne_zero, or_self]

theorem decimalBits_mul_pow (digits places : Nat) (exponent : Int) :
    decimalBits (digits * 10 ^ places) exponent = decimalBits digits (exponent + places) := by
  induction places generalizing exponent with
  | zero => simp
  | succ places ih =>
      rw [pow_succ, ← mul_assoc, decimalBits_mul_ten, ih]
      congr 1
      push_cast
      ring

theorem decimalBits_trimZeros (places : Nat) (decimal : Decimal) :
    decimalBits (decimal.trimZeros places).digits (decimal.trimZeros places).exponent =
      decimalBits decimal.digits decimal.exponent := by
  induction places generalizing decimal with
  | zero => rfl
  | succ places ih =>
      rw [Decimal.trimZeros]
      split
      case isTrue hzero =>
        rw [ih, ← decimalBits_mul_ten, Nat.div_mul_cancel (Nat.dvd_of_mod_eq_zero hzero)]
      case isFalse => rfl

/-! ## The shortest decimal -/

theorem magnitude_lt {number : Number} (hfinite : number.isFinite = true) :
    number.magnitude < 2 ^ 53 * 2 ^ 2045 := by
  have hfraction := number.fraction_lt
  have hexponent := number.exponentField_lt
  simp only [isFinite, bne_iff_ne] at hfinite
  have hsignificand : number.significand < 2 ^ 53 := by
    simp only [significand, Nat.pow_eq]
    split <;> omega
  have hscale : number.scale ≤ 2045 := by
    unfold scale
    omega
  calc number.magnitude
      = number.significand * 2 ^ number.scale := rfl
    _ < 2 ^ 53 * 2 ^ number.scale := by gcongr
    _ ≤ 2 ^ 53 * 2 ^ 2045 := by
        gcongr
        decide

theorem lt_length_toDigits {places digits : Nat} (hdigits : 10 ^ places ≤ digits) :
    places < (Nat.toDigits 10 digits).length := by
  rcases Nat.eq_zero_or_pos places with rfl | hplaces
  · exact Nat.length_toDigits_pos
  · by_contra hlength
    rw [Nat.not_lt, Nat.length_toDigits_le_iff (by decide) hplaces] at hlength
    omega

theorem decimalBits_eq_roundedBits {digits : Nat} {exponent : Int} (hdigits : digits ≠ 0)
    (hupper : exponent + (Nat.toDigits 10 digits).length ≤ 310)
    (hlower : -325 ≤ exponent + (Nat.toDigits 10 digits).length) :
    decimalBits digits exponent =
      roundedBits (digits * Nat.pow 10 exponent.toNat * unitsPerOne)
        (Nat.pow 10 (-exponent).toNat) := by
  rw [decimalBits, if_neg hdigits]
  dsimp only
  rw [if_neg (by omega), if_neg (by omega)]

/-- Every digit of a finite number, when a unit is `scale` with `places` digits after the point.
The bounds say that such a decimal is neither too large nor too small to be rounded. -/
theorem decimalBits_mul_scale {number : Number} (hfinite : number.isFinite = true)
    (hpositive : number.magnitude ≠ 0) (scale places low high : Nat)
    (hunits : scale * unitsPerOne = 10 ^ places) (hlow : places ≤ low + 325)
    (hlower : 10 ^ low ≤ scale) (hhigh : high < places + 310)
    (hupper : 2 ^ 53 * 2 ^ 2045 * scale < 10 ^ high) :
    decimalBits (number.magnitude * scale) (-(places : Int)) = number.magnitudeBits := by
  have hscale : scale ≤ number.magnitude * scale :=
    Nat.le_mul_of_pos_left _ (Nat.pos_of_ne_zero hpositive)
  have hlong := lt_length_toDigits (hlower.trans hscale)
  have hshort : (Nat.toDigits 10 (number.magnitude * scale)).length ≤ high + 1 := by
    rw [Nat.length_toDigits_le_iff (by decide) (Nat.succ_pos high)]
    refine lt_trans ?_ (Nat.pow_lt_pow_succ (by decide))
    exact lt_of_le_of_lt (Nat.mul_le_mul_right _ (magnitude_lt hfinite).le) hupper
  have hdigits : number.magnitude * scale ≠ 0 :=
    (((Nat.pow_pos (by decide)).trans_le hlower).trans_le hscale).ne'
  rw [decimalBits_eq_roundedBits hdigits (by omega) (by omega), Int.neg_neg, Int.toNat_natCast,
    show (-(places : Int)).toNat = 0 by omega]
  simp only [Nat.pow_eq]
  rw [pow_zero, mul_one, mul_assoc, hunits]
  exact roundedBits_magnitude_mul hfinite (by positivity)

theorem decimalBits_exactDecimal {number : Number} (hfinite : number.isFinite = true)
    (hpositive : number.magnitude ≠ 0) :
    decimalBits number.exactDecimal.digits number.exactDecimal.exponent =
      number.magnitudeBits :=
  decimalBits_mul_scale hfinite hpositive digitsPerUnit 1074 750 1383 (by decide +kernel)
    (by decide) (by decide +kernel) (by decide) (by decide +kernel)

theorem accepted_of_nearestAccepted? {accepted : Nat → Bool} {numerator denominator whole : Nat}
    (hnearest : nearestAccepted? accepted numerator denominator = some whole) :
    accepted whole = true := by
  unfold nearestAccepted? at hnearest
  dsimp only at hnearest
  split at hnearest
  case h_1 hlower hupper =>
    cases hnearest
    split
    · exact hupper
    · exact hlower
  case h_2 hlower _ =>
    cases hnearest
    exact hlower
  case h_3 _ hupper =>
    cases hnearest
    exact hupper
  case h_4 => cases hnearest

theorem decimalBits_of_decimalOfLength? {number : Number} {length : Nat} {decimal : Decimal}
    (hdecimal : number.decimalOfLength? length = some decimal) :
    decimalBits decimal.digits decimal.exponent = number.magnitudeBits := by
  rw [decimalOfLength?] at hdecimal
  obtain ⟨digits, hdigits, rfl⟩ := Option.map_eq_some_iff.mp hdecimal
  exact ofDecimal_eq_iff.mp (beq_iff_eq.mp (accepted_of_nearestAccepted? hdigits))

theorem decimalBits_shortestFrom {number : Number} (hfinite : number.isFinite = true)
    (hpositive : number.magnitude ≠ 0) (length attempts : Nat) :
    decimalBits (number.shortestFrom length attempts).digits
      (number.shortestFrom length attempts).exponent = number.magnitudeBits := by
  induction attempts generalizing length with
  | zero => exact decimalBits_exactDecimal hfinite hpositive
  | succ attempts ih =>
      rw [shortestFrom]
      cases hdecimal : number.decimalOfLength? length with
      | none => exact ih (length + 1)
      | some decimal => exact decimalBits_of_decimalOfLength? hdecimal

/-- The decimal that is written for a finite number reads as the number. -/
theorem decimalBits_shortest {number : Number} (hfinite : number.isFinite = true) :
    decimalBits number.shortest.digits number.shortest.exponent = number.magnitudeBits := by
  unfold shortest
  split
  case isTrue hzero =>
    have hbits := roundedBits_magnitude_mul hfinite Nat.one_pos
    rw [hzero, Nat.zero_mul, roundedBits_zero] at hbits
    exact hbits
  case isFalse hpositive =>
    rw [decimalBits_trimZeros, decimalBits_shortestFrom hfinite hpositive]

/-- A whole number below the bound for plain digits. -/
theorem decimalBits_whole {number : Number} (hfinite : number.isFinite = true) {whole : Nat}
    (hwhole : number.magnitude = whole * unitsPerOne) (hbelow : whole < 10 ^ 15) :
    decimalBits whole 0 = number.magnitudeBits := by
  have hround := roundedBits_magnitude_mul hfinite Nat.one_pos
  rw [hwhole, mul_one] at hround
  rw [← hround]
  by_cases hzero : whole = 0
  · rw [hzero, zero_mul, roundedBits_zero]
    rfl
  · have hlength : (Nat.toDigits 10 whole).length ≤ 15 :=
      (Nat.length_toDigits_le_iff (by decide) (by decide)).mpr hbelow
    rw [decimalBits_eq_roundedBits hzero (by omega) (by omega)]
    simp

/-! ## Opposite numbers -/

theorem isNegative_neg (number : Number) : (-number).isNegative = !number.isNegative :=
  isNegative_ofParts _ number.magnitudeBits_lt

theorem magnitude_neg (number : Number) : (-number).magnitude = number.magnitude :=
  magnitude_eq_of_bits number.magnitudeBits_neg

theorem isFinite_neg (number : Number) : (-number).isFinite = number.isFinite := by
  simp only [isFinite, exponentField_eq, magnitudeBits_neg]

theorem isNaN_neg (number : Number) : (-number).isNaN = number.isNaN := by
  simp only [isNaN, exponentField_eq, fraction_eq, magnitudeBits_neg]

theorem ofDecimal_beq (number : Number) (digits : Nat) (exponent : Int) :
    (ofDecimal number.isNegative digits exponent == number) =
      (decimalBits digits exponent == number.magnitudeBits) := by
  rw [Bool.eq_iff_iff, beq_iff_eq, beq_iff_eq, ofDecimal_eq_iff]

/-- The sign takes no part in the choice of digits. -/
theorem shortest_neg (number : Number) : (-number).shortest = number.shortest := by
  have hlength : ∀ length, (-number).decimalOfLength? length = number.decimalOfLength? length := by
    intro length
    simp only [decimalOfLength?, ofDecimal_beq, magnitude_neg, magnitudeBits_neg]
  have hfrom : ∀ attempts length,
      (-number).shortestFrom length attempts = number.shortestFrom length attempts := by
    intro attempts
    induction attempts with
    | zero =>
        intro length
        rw [shortestFrom, shortestFrom, exactDecimal, exactDecimal, magnitude_neg]
    | succ attempts ih =>
        intro length
        rw [shortestFrom, shortestFrom, hlength, ih]
  rw [shortest, shortest, magnitude_neg, hfrom]

/-! ## Digits -/

theorem digitsValue_eq (digits : List Char) :
    digitsValue digits = Nat.ofDigitChars 10 digits 0 := by
  rw [digitsValue, Nat.ofDigitChars_eq_foldl]
  congr 1
  funext value char
  rw [Nat.mul_comm]

theorem digitsValue_toDigits (value : Nat) : digitsValue (Nat.toDigits 10 value) = value := by
  rw [digitsValue_eq, Nat.ofDigitChars_ten_toDigits]

theorem digitsValue_append_zeros (digits : List Char) (places : Nat) :
    digitsValue (digits ++ List.replicate places '0') = digitsValue digits * 10 ^ places := by
  rw [digitsValue_eq, Nat.ofDigitChars_append, Nat.ofDigitChars_replicate_zero, ← digitsValue_eq,
    Nat.mul_comm]

theorem digitsValue_zeros_append (places : Nat) (digits : List Char) :
    digitsValue (List.replicate places '0' ++ digits) = digitsValue digits := by
  rw [digitsValue_eq, Nat.ofDigitChars_append, Nat.ofDigitChars_replicate_zero, Nat.mul_zero,
    ← digitsValue_eq]

theorem isDigits_toDigits (value : Nat) : Lexeme.isDigits (Nat.toDigits 10 value) = true := by
  have hall : (Nat.toDigits 10 value).all Lexeme.isDigit = true := by
    rw [List.all_eq_true]
    intro char hchar
    exact Nat.isDigit_of_mem_toDigits (by decide) (by decide) hchar
  have hne : Nat.toDigits 10 value ≠ [] := Nat.toDigits_ne_nil
  simp [Lexeme.isDigits, hall, hne]

/-! ## Reading numerals -/

/-- A point and the digits after it, if there are any. -/
def pointed (fraction : List Char) : List Char :=
  if fraction = [] then [] else '.' :: fraction

/-- The text is a numeral that is read as the number with these bits. -/
structure Writes (text : List Char) (bits : Nat) : Prop where
  numeral : Lexeme.IsNumeral text
  reads : ofText? text = some (ofParts false bits)

theorem toLower_of_isDigit {char : Char} (hdigit : isDecimalDigit char = true) :
    char.toLower = char := by
  have hupper : ¬ (char.val ≥ 'A'.val ∧ char.val ≤ 'Z'.val) := by
    intro hletter
    have hnine : char.val ≤ '9'.val := of_decide_eq_true (Bool.and_eq_true_iff.mp hdigit).2
    exact absurd (UInt32.le_trans hletter.1 hnine) (by decide)
  rw [Char.toLower, dif_neg hupper]

theorem signAndRest_of_isDigit {first : Char} (rest : List Char)
    (hdigit : isDecimalDigit first = true) :
    signAndRest (first :: rest) = (false, first :: rest) := by
  unfold signAndRest
  split
  case h_1 heq =>
    cases heq
    exact absurd hdigit (by decide)
  case h_2 heq =>
    cases heq
    exact absurd hdigit (by decide)
  case h_3 => rfl

theorem ofText?_of_isDigit {first : Char} (rest : List Char)
    (hdigit : isDecimalDigit first = true) :
    ofText? (first :: rest) = unsignedDecimal? false (first :: rest) := by
  have hword : ∀ {letter : Char} {more : List Char}, isDecimalDigit letter = false →
      String.ofList ((first :: rest).map Char.toLower) ≠ String.ofList (letter :: more) := by
    intro letter more hletter heq
    have hlist := congrArg String.toList heq
    rw [String.toList_ofList, String.toList_ofList, List.map_cons,
      toLower_of_isDigit hdigit] at hlist
    rw [← (List.cons.inj hlist).1, hdigit] at hletter
    cases hletter
  have hinf : String.ofList ((first :: rest).map Char.toLower) ≠ "inf" := hword (by decide)
  have hinfinity : String.ofList ((first :: rest).map Char.toLower) ≠ "infinity" :=
    hword (by decide)
  have hnan : String.ofList ((first :: rest).map Char.toLower) ≠ "nan" := hword (by decide)
  rw [ofText?, signAndRest_of_isDigit rest hdigit]
  dsimp only
  rw [decide_eq_false hinf, decide_eq_false hinfinity, if_neg (by decide), if_neg hnan]

theorem isDigit_head_of_isExponent {power : List Char} (hpower : Lexeme.IsExponent power) :
    power.head?.all (!isDecimalDigit ·) = true := by
  cases hpower with
  | none => rfl
  | power hmark hsign hdigits => rcases hmark with rfl | rfl <;> rfl

theorem unsignedDecimal?_numeral {whole fraction power : List Char}
    (hwhole : Lexeme.isDigits whole = true) (hfraction : fraction.all isDecimalDigit = true)
    (hpower : Lexeme.IsExponent power) :
    unsignedDecimal? false (whole ++ (pointed fraction ++ power)) =
      (exponent? power).map fun exponent =>
        ofDecimal false (digitsValue (whole ++ fraction)) (exponent - fraction.length) := by
  have hall : whole.all isDecimalDigit = true := Lexeme.all_of_isDigits hwhole
  have hne : whole.isEmpty = false := by
    simp only [Lexeme.isDigits, Bool.and_eq_true, Bool.not_eq_true'] at hwhole
    exact hwhole.1
  have hstop := isDigit_head_of_isExponent hpower
  unfold unsignedDecimal? pointed
  split
  case isTrue hempty =>
    -- Without a point the exponent follows the whole digits, and it starts with no point.
    rw [List.nil_append, Lexeme.takeWhile_append_of_stop hall hstop,
      Lexeme.dropWhile_append_of_stop hall hstop, hempty]
    cases hpower with
    | none => simp [hne]
    | power hmark hsign hdigits => rcases hmark with rfl | rfl <;> simp [hne]
  case isFalse hsome =>
    have hpoint : ('.' :: fraction ++ power).head?.all (!isDecimalDigit ·) = true := rfl
    rw [Lexeme.takeWhile_append_of_stop hall hpoint, Lexeme.dropWhile_append_of_stop hall hpoint]
    simp [hne, Lexeme.takeWhile_append_of_stop hfraction hstop,
      Lexeme.dropWhile_append_of_stop hfraction hstop]

theorem writes_numeral {whole fraction power : List Char} {exponent : Int}
    (hwhole : Lexeme.isDigits whole = true) (hfraction : fraction.all isDecimalDigit = true)
    (hpower : Lexeme.IsExponent power) (hexponent : exponent? power = some exponent) :
    Writes (whole ++ (pointed fraction ++ power))
      (decimalBits (digitsValue (whole ++ fraction)) (exponent - fraction.length)) where
  numeral := by
    refine .mk hwhole ?_ hpower
    unfold pointed
    split
    case isTrue => exact .none
    case isFalse hsome =>
      exact .digits (by simp_all [Lexeme.isDigits, isDecimalDigit, Lexeme.isDigit])
  reads := by
    have hread := unsignedDecimal?_numeral hwhole hfraction hpower
    obtain ⟨first, rest, rfl, hdigit⟩ := Lexeme.exists_cons_of_isDigits hwhole
    rw [hexponent, Option.map_some, ofDecimal_eq_ofParts] at hread
    rw [List.cons_append] at hread ⊢
    rw [ofText?_of_isDigit _ hdigit, hread]

/-! ## Layouts -/

/-- A numeral without an exponent. -/
theorem writes_fixed {whole fraction : List Char} (hwhole : Lexeme.isDigits whole = true)
    (hfraction : fraction.all isDecimalDigit = true) :
    Writes (whole ++ pointed fraction)
      (decimalBits (digitsValue (whole ++ fraction)) (-fraction.length)) := by
  have hwrites := writes_numeral hwhole hfraction .none rfl
  rwa [List.append_nil, Int.zero_sub] at hwrites

theorem isDigits_iff {text : List Char} :
    Lexeme.isDigits text = true ↔ 0 < text.length ∧ text.all isDecimalDigit = true := by
  rw [Lexeme.isDigits, Bool.and_eq_true_iff, Bool.not_eq_true', List.isEmpty_eq_false_iff,
    List.length_pos_iff]
  rfl

section

variable {digits : List Char} (hdigits : Lexeme.isDigits digits = true) (places : Nat)

include hdigits

theorem writes_append_zeros :
    Writes (digits ++ List.replicate places '0') (decimalBits (digitsValue digits) places) := by
  have hwhole : Lexeme.isDigits (digits ++ List.replicate places '0') = true := by
    obtain ⟨hpos, hall⟩ := isDigits_iff.mp hdigits
    refine isDigits_iff.mpr ⟨?_, ?_⟩
    · rw [List.length_append]
      omega
    · simp [hall, isDecimalDigit]
  have hwrites := writes_fixed hwhole (List.all_nil)
  rwa [pointed, if_pos rfl, List.append_nil, digitsValue_append_zeros, decimalBits_mul_pow,
    List.length_nil, Nat.cast_zero, Int.neg_zero, Int.zero_add] at hwrites

theorem writes_take_drop (hpositive : 0 < places) (hplaces : places < digits.length) :
    Writes (digits.take (digits.length - places) ++ '.' :: digits.drop (digits.length - places))
      (decimalBits (digitsValue digits) (-places)) := by
  obtain ⟨hpos, hall⟩ := isDigits_iff.mp hdigits
  rw [← List.take_append_drop (digits.length - places) digits, List.all_append,
    Bool.and_eq_true_iff] at hall
  obtain ⟨htake, hfraction⟩ := hall
  have hwhole : Lexeme.isDigits (digits.take (digits.length - places)) = true := by
    refine isDigits_iff.mpr ⟨?_, htake⟩
    rw [List.length_take]
    omega
  have hlength : (digits.drop (digits.length - places)).length = places := by
    rw [List.length_drop]
    omega
  have hsome : digits.drop (digits.length - places) ≠ [] := by
    intro hnil
    rw [hnil, List.length_nil] at hlength
    omega
  have hwrites := writes_fixed hwhole hfraction
  rwa [pointed, if_neg hsome, List.take_append_drop, hlength] at hwrites

theorem writes_zero_point (hplaces : digits.length ≤ places) :
    Writes ('0' :: '.' :: (List.replicate (places - digits.length) '0' ++ digits))
      (decimalBits (digitsValue digits) (-places)) := by
  obtain ⟨hpos, hall⟩ := isDigits_iff.mp hdigits
  have hfraction : (List.replicate (places - digits.length) '0' ++ digits).all isDecimalDigit =
      true := by
    simp [hall, isDecimalDigit]
  have hlength : (List.replicate (places - digits.length) '0' ++ digits).length = places := by
    rw [List.length_append, List.length_replicate]
    omega
  have hsome : List.replicate (places - digits.length) '0' ++ digits ≠ [] := by
    intro hnil
    rw [hnil, List.length_nil] at hlength
    omega
  have hzero : Lexeme.isDigits ['0'] = true := rfl
  have hwrites := writes_fixed hzero hfraction
  have hvalue : digitsValue (['0'] ++ (List.replicate (places - digits.length) '0' ++ digits)) =
      digitsValue digits := by
    rw [List.singleton_append, ← List.cons_append, ← List.replicate_succ, digitsValue_zeros_append]
  rwa [pointed, if_neg hsome, hvalue, hlength] at hwrites

end

theorem writes_plain (decimal : Decimal) :
    Writes decimal.plain (decimalBits decimal.digits decimal.exponent) := by
  have hdigits := isDigits_toDigits decimal.digits
  rw [← digitsValue_toDigits decimal.digits]
  unfold Decimal.plain Decimal.text
  dsimp only
  split
  case isTrue hexponent =>
    have hwrites := writes_append_zeros hdigits decimal.exponent.toNat
    rwa [Int.toNat_of_nonneg hexponent] at hwrites
  case isFalse hexponent =>
    have hplaces : decimal.exponent = -decimal.exponent.natAbs := by omega
    generalize decimal.exponent.natAbs = places at hplaces ⊢
    rw [hplaces]
    split
    case isTrue hshort => exact writes_take_drop hdigits _ (by omega) (by omega)
    case isFalse hlong => exact writes_zero_point hdigits _ (by omega)

theorem exponent?_toDigits (power : Int) :
    Lexeme.IsExponent ('e' :: ((if power < 0 then ['-'] else []) ++ Nat.toDigits 10 power.natAbs)) ∧
      exponent? ('e' :: ((if power < 0 then ['-'] else []) ++ Nat.toDigits 10 power.natAbs)) =
        some power := by
  have hdigits := isDigits_toDigits power.natAbs
  have hvalue := digitsValue_toDigits power.natAbs
  have hall := (isDigits_iff.mp hdigits).2
  refine ⟨.power (.inl rfl) (by split <;> simp) hdigits, ?_⟩
  have hsign : signAndRest ((if power < 0 then ['-'] else []) ++ Nat.toDigits 10 power.natAbs) =
      (decide (power < 0), Nat.toDigits 10 power.natAbs) := by
    obtain ⟨first, rest, hcons, hdigit⟩ := Lexeme.exists_cons_of_isDigits hdigits
    rw [hcons]
    split
    case isTrue hnegative => simp [signAndRest, hnegative]
    case isFalse hpositive =>
      rw [List.nil_append, signAndRest_of_isDigit rest hdigit, decide_eq_false hpositive]
  have hempty : (Nat.toDigits 10 power.natAbs).isEmpty = false := by simp
  rw [exponent?, if_pos (.inl rfl), hsign]
  simp only [hempty, hall, hvalue, Bool.not_true, Bool.or_false, Bool.false_eq_true, if_false,
    decide_eq_true_eq, Option.some.injEq]
  split <;> omega

theorem writes_scientific (decimal : Decimal) :
    Writes decimal.scientific (decimalBits decimal.digits decimal.exponent) := by
  have hdigits := isDigits_toDigits decimal.digits
  have hvalue := digitsValue_toDigits decimal.digits
  obtain ⟨hpos, hall⟩ := isDigits_iff.mp hdigits
  rw [← List.take_append_drop 1 (Nat.toDigits 10 decimal.digits), List.all_append,
    Bool.and_eq_true_iff] at hall
  obtain ⟨htake, hfraction⟩ := hall
  have hwhole : Lexeme.isDigits ((Nat.toDigits 10 decimal.digits).take 1) = true := by
    refine isDigits_iff.mpr ⟨?_, htake⟩
    rw [List.length_take]
    omega
  have hpointed : (if (Nat.toDigits 10 decimal.digits).length ≤ 1 then []
      else '.' :: (Nat.toDigits 10 decimal.digits).drop 1) =
        pointed ((Nat.toDigits 10 decimal.digits).drop 1) := by
    simp only [pointed, List.drop_eq_nil_iff]
  obtain ⟨hpower, hexponent⟩ := exponent?_toDigits
    (decimal.exponent + ((Nat.toDigits 10 decimal.digits).length - 1 : Nat))
  have hwrites := writes_numeral hwhole hfraction hpower hexponent
  rw [List.take_append_drop, hvalue, List.length_drop, Int.add_sub_cancel] at hwrites
  unfold Decimal.scientific Decimal.text
  dsimp only
  rw [hpointed]
  simpa only [List.append_assoc, List.cons_append] using hwrites

/-- A whole number is written with a zero after the point. -/
theorem writes_whole (value : Nat) :
    Writes (Nat.toDigits 10 value ++ ['.', '0']) (decimalBits value 0) := by
  have hzero : ['0'].all isDecimalDigit = true := rfl
  have hwrites := writes_fixed (isDigits_toDigits value) hzero
  have hvalue : digitsValue (Nat.toDigits 10 value ++ ['0']) = value * 10 := by
    simpa [digitsValue_toDigits] using digitsValue_append_zeros (Nat.toDigits 10 value) 1
  rwa [hvalue, decimalBits_mul_ten] at hwrites

end Tide.Number
