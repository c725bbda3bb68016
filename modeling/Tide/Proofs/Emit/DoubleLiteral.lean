import Tide.Grammar.Cursor
import Tide.Proofs.Emit.Number
import Tide.Proofs.Number.Whole
import Tide.Proofs.Token.Layout

/-!
# Double literals

C++ takes a numeral without a point and without an exponent for an integer.  No finite number is
written so: small whole numbers end in a point and a zero, large ones have an exponent, and the
plain digits of all others hold a point, since a decimal without one would be read as a whole
number.

What is written for a number without a sign is one token of the language itself, whose value is the
number.
-/

namespace Tide

namespace Number

/-! ## Points and exponents -/

/-- C++ takes a numeral that holds one of these characters for a double. -/
def MarksDouble (text : List Char) : Prop :=
  '.' ∈ text ∨ 'e' ∈ text

theorem Decimal.marksDouble_scientific (decimal : Decimal) : MarksDouble decimal.scientific :=
  .inr (by simp [scientific])

theorem Decimal.marksDouble_plain {decimal : Decimal} (hexponent : decimal.exponent < 0) :
    MarksDouble decimal.plain := by
  refine .inl ?_
  rw [plain]
  dsimp only
  rw [if_neg (by omega)]
  split <;> simp

theorem marksDouble_unsignedText {number : Number} (hfinite : number.isFinite = true) :
    MarksDouble number.unsignedText := by
  unfold unsignedText
  split
  case isTrue =>
    split
    case isTrue => exact .inl (by simp)
    case isFalse => exact number.shortest.marksDouble_scientific
  case isFalse hfraction =>
    have hexponent := exponent_shortest_neg hfinite (Bool.eq_false_iff.mpr hfraction)
    exact Decimal.marksDouble_plain hexponent

end Number

/-! ## Reading a literal -/

theorem Token.scan_of_isNumeral {text : String} (hnumeral : Lexeme.IsNumeral text.toList) :
    scan text = .ok [⟨.number, text, 1⟩, .finish 1] := by
  have hwritten : Spelling.WrittenAs ⟨.number, text⟩ text.toList := .number hnumeral
  have hscan := scanFrom_append 1 hwritten (TokenKind.endsBefore_nil .number)
  rw [List.append_nil, List.count_eq_zero.mpr hnumeral.lineFeed_not_mem, scanFrom_nil] at hscan
  exact hscan

theorem Parser.numberValue_of_ofText? {token : Token} {value : Number}
    (hvalue : Number.ofText? token.text.toList = some value) (cursor : Cursor) :
    numberValue token cursor = .ok value cursor := by
  rw [numberValue, hvalue]
  rfl

/-- A finite number is written as a double, which is one token with the number for its value; one
with a sign is its opposite after a minus, in parentheses. -/
theorem Number.cppText_reads_as_double {number : Number} (hfinite : number.isFinite = true) :
    (number.isNegative = false →
      ('.' ∈ number.cppText.toList ∨ 'e' ∈ number.cppText.toList) ∧
      ∃ token, Token.scan number.cppText = .ok [token, .finish 1] ∧
        token.kind = .number ∧ token.text = number.cppText ∧
        ∀ cursor, Parser.numberValue token cursor = .ok number cursor) ∧
    (number.isNegative = true → number.cppText = "(-" ++ (-number).cppText ++ ")") := by
  constructor
  · intro hpositive
    obtain ⟨hnumeral, hreads⟩ := writes_cppText hfinite hpositive
    refine ⟨?_, _, Token.scan_of_isNumeral hnumeral, rfl, rfl, Parser.numberValue_of_ofText? hreads⟩
    rw [toList_cppText hfinite, hpositive, if_neg Bool.false_ne_true]
    exact marksDouble_unsignedText hfinite
  · intro hnegative
    apply String.toList_injective
    rw [toList_cppText_of_isNegative hfinite hnegative]
    simp

/-- The least whole number with an exponent, and the zero with a sign. -/
theorem Number.cppText_reads_as_double_limits :
    ((⟨0x430c6bf526340000⟩ : Number).isFinite = true ∧
      (⟨0x430c6bf526340000⟩ : Number).isNegative = false ∧
      (⟨0x430c6bf526340000⟩ : Number).cppText = "1e15" ∧
      ('.' ∈ "1e15".toList ∨ 'e' ∈ "1e15".toList) ∧
      ∃ token, Token.scan "1e15" = .ok [token, .finish 1] ∧
        token.kind = .number ∧ token.text = "1e15" ∧
        ∀ cursor, Parser.numberValue token cursor = .ok ⟨0x430c6bf526340000⟩ cursor) ∧
    ((⟨0x8000000000000000⟩ : Number).isFinite = true ∧
      (⟨0x8000000000000000⟩ : Number).isNegative = true ∧
      (⟨0x8000000000000000⟩ : Number).cppText = "(-" ++ "0.0" ++ ")") := by
  have hfinite : (⟨0x430c6bf526340000⟩ : Number).isFinite = true := by decide
  have hlarge : (⟨0x430c6bf526340000⟩ : Number).cppText = "1e15" := by decide +kernel
  have hsigned : (⟨0x8000000000000000⟩ : Number).isFinite = true := by decide
  have hzero : (-⟨0x8000000000000000⟩ : Number).cppText = "0.0" := by decide +kernel
  have hdouble := (cppText_reads_as_double hfinite).1 (by decide)
  have hopposite := (cppText_reads_as_double hsigned).2 (by decide)
  rw [hlarge] at hdouble
  rw [hzero] at hopposite
  exact ⟨⟨hfinite, by decide, hlarge, hdouble⟩, hsigned, by decide, hopposite⟩

end Tide
