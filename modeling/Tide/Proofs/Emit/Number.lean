import Tide.Emit.Expression
import Tide.Proofs.Number.Decimal

/-!
# Numbers as C++

The text of a finite number without a sign is one numeral, and reading it gives the number back.
The text of its opposite is the same numeral after a minus, in parentheses.
-/

namespace Tide.Number

/-- The numeral for the absolute value. -/
def unsignedText (number : Number) : List Char :=
  if number.isWhole then
    if number.isBelow (Nat.pow 10 15) then
      Nat.toDigits 10 (number.magnitude / unitsPerOne) ++ ['.', '0']
    else number.shortest.scientific
  else number.shortest.plain

theorem natAbs_truncate (number : Number) :
    number.truncate.natAbs = number.magnitude / unitsPerOne := by
  unfold truncate
  dsimp only
  split
  · rw [Int.natAbs_neg, Int.natAbs_natCast]
  · rw [Int.natAbs_natCast]

theorem toList_wholeText (number : Number) :
    number.wholeText.toList =
      if number.isNegative then '-' :: (Nat.toDigits 10 number.truncate.natAbs ++ ['.', '0'])
      else Nat.toDigits 10 number.truncate.natAbs ++ ['.', '0'] :=
  String.toList_ofList

theorem toList_scientificText (number : Number) :
    number.scientificText.toList =
      if number.isNegative then '-' :: number.shortest.scientific
      else number.shortest.scientific :=
  String.toList_ofList

theorem toList_plainText {number : Number} (hfinite : number.isFinite = true) :
    number.plainText.toList =
      if number.isNegative then '-' :: number.shortest.plain else number.shortest.plain := by
  rw [plainText, isNaN_of_isFinite hfinite, isInfinite_of_isFinite hfinite,
    if_neg Bool.false_ne_true, if_neg Bool.false_ne_true]
  exact String.toList_ofList

theorem toList_cppText {number : Number} (hfinite : number.isFinite = true) :
    number.cppText.toList =
      if number.isNegative then '(' :: '-' :: (number.unsignedText ++ [')'])
      else number.unsignedText := by
  rw [cppText, isNaN_of_isFinite hfinite, isInfinite_of_isFinite hfinite, if_neg Bool.false_ne_true,
    if_neg Bool.false_ne_true]
  have hwhole := number.toList_wholeText
  have hscientific := number.toList_scientificText
  have hplain := toList_plainText hfinite
  rw [natAbs_truncate] at hwhole
  -- Each of the three texts is a numeral, with a minus before it when the number is negative.
  unfold unsignedText
  split_ifs at hwhole hscientific hplain ⊢
  all_goals simp [hwhole, hscientific, hplain]

theorem unsignedText_neg (number : Number) : (-number).unsignedText = number.unsignedText := by
  have hwhole : (-number).isWhole = number.isWhole := by
    rw [isWhole, isWhole, isFinite_neg, magnitude_neg]
  have hbelow : ∀ bound, (-number).isBelow bound = number.isBelow bound := by
    intro bound
    rw [isBelow, isBelow, isNaN_neg, magnitude_neg]
  rw [unsignedText, unsignedText, hwhole, hbelow, shortest_neg, magnitude_neg]

theorem writes_unsignedText {number : Number} (hfinite : number.isFinite = true) :
    Writes number.unsignedText number.magnitudeBits := by
  unfold unsignedText
  split
  case isTrue hwhole =>
    split
    case isTrue hbelow =>
      have hmultiple := eq_of_beq (Bool.and_eq_true_iff.mp hwhole).2
      have hlt := of_decide_eq_true (Bool.and_eq_true_iff.mp hbelow).2
      have hmagnitude : number.magnitude = number.magnitude / unitsPerOne * unitsPerOne :=
        (Nat.div_mul_cancel (Nat.dvd_of_mod_eq_zero hmultiple)).symm
      rw [mul_comm] at hlt
      have hquotient := Nat.div_lt_of_lt_mul hlt
      rw [← decimalBits_whole hfinite hmagnitude hquotient]
      exact writes_whole _
    case isFalse =>
      rw [← decimalBits_shortest hfinite]
      exact writes_scientific number.shortest
  case isFalse =>
    rw [← decimalBits_shortest hfinite]
    exact writes_plain number.shortest

/-- A finite number that is not negative is written as a numeral that is read as it. -/
theorem writes_cppText {number : Number} (hfinite : number.isFinite = true)
    (hpositive : number.isNegative = false) :
    Lexeme.IsNumeral number.cppText.toList ∧ ofText? number.cppText.toList = some number := by
  have hwrites := writes_unsignedText hfinite
  have hself := ofParts_self number
  rw [hpositive] at hself
  rw [toList_cppText hfinite, hpositive, if_neg Bool.false_ne_true]
  exact ⟨hwrites.numeral, by rw [hwrites.reads, hself]⟩

/-- A negative number is written as its opposite after a minus, in parentheses. -/
theorem toList_cppText_of_isNegative {number : Number} (hfinite : number.isFinite = true)
    (hnegative : number.isNegative = true) :
    number.cppText.toList = '(' :: '-' :: ((-number).cppText.toList ++ [')']) := by
  have hfinite' : (-number).isFinite = true := by rw [isFinite_neg, hfinite]
  rw [toList_cppText hfinite, toList_cppText hfinite', isNegative_neg, hnegative, unsignedText_neg]
  rfl

end Tide.Number
