import Tide.Proofs.Emit.Number
import Tide.Proofs.Text.Terminal

/-!
# Characters of numbers

Numbers are written in printable ASCII, in every layout and in either language.
-/

namespace Tide

open Text.Terminal

theorem isPlain_of_mem_toDigits {base : Nat} (hbase : 1 < base) (hlimit : base ≤ 16) {value : Nat}
    {char : Char} (hchar : char ∈ Nat.toDigits base value) : IsPlain char := by
  have hdigit : ∀ digit < 16, IsPlain (Nat.digitChar digit) := by decide
  induction value using Nat.strongRecOn with
  | ind value ih =>
      by_cases hvalue : value < base
      · rw [Nat.toDigits_of_lt_base hvalue, List.mem_singleton] at hchar
        exact hchar ▸ hdigit value (by omega)
      · have hle := Nat.le_of_not_lt hvalue
        rw [Nat.toDigits_of_base_le hbase hle, List.mem_append, List.mem_singleton] at hchar
        rcases hchar with hchar | rfl
        · exact ih _ (Nat.div_lt_self (by omega) hbase) hchar
        · exact hdigit _ (lt_of_lt_of_le (Nat.mod_lt value (by omega)) hlimit)

namespace Number

namespace Decimal

variable {decimal : Decimal} {char : Char}

theorem isPlain_of_mem_text (hchar : char ∈ decimal.text) : IsPlain char :=
  isPlain_of_mem_toDigits (by decide) (by decide) hchar

theorem isPlain_of_mem_plain (hchar : char ∈ decimal.plain) : IsPlain char := by
  have hzero : IsPlain '0' := by decide
  have hpoint : IsPlain '.' := by decide
  simp only [plain] at hchar
  grind [isPlain_of_mem_text]

theorem isPlain_of_mem_scientific (hchar : char ∈ decimal.scientific) : IsPlain char := by
  have hpoint : IsPlain '.' := by decide
  have hminus : IsPlain '-' := by decide
  have hpower : IsPlain 'e' := by decide
  have hdigits : ∀ value, ∀ char ∈ Nat.toDigits 10 value, IsPlain char :=
    fun _ _ => isPlain_of_mem_toDigits (by decide) (by decide)
  simp only [scientific] at hchar
  grind [isPlain_of_mem_text]

end Decimal

/-- All characters are plain, whichever layout is chosen. -/
theorem isPlain_of_mem_unsignedText {number : Number} {char : Char}
    (hchar : char ∈ number.unsignedText) : IsPlain char := by
  have hpoint : IsPlain '.' := by decide
  have hzero : IsPlain '0' := by decide
  have hdigits : ∀ value, ∀ char ∈ Nat.toDigits 10 value, IsPlain char :=
    fun _ _ => isPlain_of_mem_toDigits (by decide) (by decide)
  unfold unsignedText at hchar
  grind [Decimal.isPlain_of_mem_plain, Decimal.isPlain_of_mem_scientific]

variable (number : Number)

theorem inert_plainText : Inert number.plainText := by
  by_cases hfinite : number.isFinite = true
  · apply inert_of_isPlain
    intro char hchar
    rw [toList_plainText hfinite] at hchar
    have hminus : IsPlain '-' := by decide
    grind [Decimal.isPlain_of_mem_plain]
  · by_cases hnan : number.isNaN = true
    · rw [plainText, if_pos hnan]
      decide
    · have hinfinite : number.isInfinite = true := by simpa [isFinite_eq_not, hnan] using hfinite
      have htext : number.plainText.toList =
          if number.isNegative then ['-', 'i', 'n', 'f'] else ['i', 'n', 'f'] := by
        rw [plainText, if_neg hnan, if_pos hinfinite]
        exact String.toList_ofList
      rw [Inert, htext]
      split_ifs <;> decide

theorem inert_cppText : Inert number.cppText := by
  by_cases hfinite : number.isFinite = true
  · apply inert_of_isPlain
    intro char hchar
    rw [toList_cppText hfinite] at hchar
    have hopen : IsPlain '(' := by decide
    have hclose : IsPlain ')' := by decide
    have hminus : IsPlain '-' := by decide
    grind [isPlain_of_mem_unsignedText]
  · have hother : number.isNaN = true ∨ number.isInfinite = true := by
      simpa [isFinite_eq_not, or_iff_not_imp_left] using hfinite
    rw [cppText]
    split_ifs with hnan hinfinite
    · decide
    · decide
    · decide
    all_goals exact absurd hother (by simp [hnan, hinfinite])

end Number

end Tide
