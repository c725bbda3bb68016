import Tide.Emit.Expression
import Tide.Optimize.Passes
import Tide.Proofs.Fold.NormalForm

/-!
# Folding of what is printed

A print statement inserts the operands of a text one after the other, and any other value whole.
Folding keeps these insertions, each folded on its own, except where it lays a `+` open at the start
of a text: then the operands of that `+` are inserted one by one in place of their sum.
-/

namespace Tide.Expr

/-- The expression is a `+` of two operands. -/
def isSum : Expr → Bool
  | binary _ .add _ _ => true
  | _ => false

/-- Folding lays a `+` open at the start of a text: what is printed is a text or folds to one, and
what is inserted first folds to a `+`. -/
def splitsWhenFolded (value : Expr) : Bool :=
  (value.concatenatesText || value.fold.concatenatesText) &&
    value.printed.head?.any (·.fold.isSum)

theorem chain_of_not_isSum {expression : Expr} (hsum : expression.isSum = false) :
    expression.chain = [expression] := by
  fun_cases chain expression with
  | case1 line left right => simp [isSum] at hsum
  | case2 expression hother => rfl

theorem length_chain_of_isSum {expression : Expr} (hsum : expression.isSum = true) :
    1 < expression.chain.length := by
  fun_cases isSum expression with
  | case1 line left right => simp [chain, chain_eq_cons left]
  | case2 expression hother => simp_all [isSum]

/-- What is printed starts with some insertion. -/
theorem exists_printed_eq_cons (value : Expr) :
    ∃ first rest, value.printed = first :: rest := by
  rw [printed]
  split
  · exact ⟨value.chainHead, value.chainTail, value.chain_eq_cons⟩
  · exact ⟨value, [], rfl⟩

/-- The insertions of a folded value: all but the first are folded where they stand, and the first
is split when it folds to a chain of a text. -/
theorem printed_foldPrinted {value first : Expr} {rest : List Expr}
    (hprinted : value.printed = first :: rest) :
    value.foldPrinted.printed =
      (if value.concatenatesText || value.fold.concatenatesText then first.fold.chain
        else [first.fold]) ++ rest.map fold := by
  rw [printed] at hprinted
  by_cases htext : value.concatenatesText = true
  · rw [if_pos htext, chain_eq_cons, List.cons.injEq] at hprinted
    obtain ⟨rfl, rfl⟩ := hprinted
    have hfolded : value.foldPrinted = value.foldChain := if_pos htext
    rw [hfolded, printed, if_pos (concatenatesText_foldChain htext), chain_foldChain, htext]
    rfl
  · rw [if_neg htext, List.cons.injEq] at hprinted
    obtain ⟨rfl, rfl⟩ := hprinted
    have hfolded : value.foldPrinted = value.fold := if_neg htext
    rw [Bool.not_eq_true] at htext
    rw [hfolded, printed, htext, Bool.false_or, List.map_nil, List.append_nil]

theorem splitsWhenFolded_eq {value first : Expr} {rest : List Expr}
    (hprinted : value.printed = first :: rest) :
    value.splitsWhenFolded =
      ((value.concatenatesText || value.fold.concatenatesText) && first.fold.isSum) := by
  simp only [splitsWhenFolded, hprinted, List.head?_cons, Option.any_some]

/-- Without a `+` laid open at the start of a text, each insertion is folded where it stands. -/
theorem printed_foldPrinted_eq_map {value : Expr} (hsplits : value.splitsWhenFolded = false) :
    value.foldPrinted.printed = value.printed.map fold := by
  obtain ⟨first, rest, hprinted⟩ := exists_printed_eq_cons value
  rw [splitsWhenFolded_eq hprinted, Bool.and_eq_false_iff] at hsplits
  rw [printed_foldPrinted hprinted, hprinted, List.map_cons]
  rcases hsplits with htext | hsum
  · rw [htext]
    rfl
  · rw [chain_of_not_isSum hsum, ite_self]
    rfl

/-- A `+` laid open at the start of a text makes for more insertions. -/
theorem length_printed_lt_foldPrinted {value : Expr} (hsplits : value.splitsWhenFolded = true) :
    value.printed.length < value.foldPrinted.printed.length := by
  obtain ⟨first, rest, hprinted⟩ := exists_printed_eq_cons value
  rw [splitsWhenFolded_eq hprinted, Bool.and_eq_true] at hsplits
  have hlength := length_chain_of_isSum hsplits.2
  rw [printed_foldPrinted hprinted, hprinted, if_pos hsplits.1, List.length_append, List.length_map,
    List.length_cons]
  omega

theorem concatenatesText_foldPrinted (value : Expr) :
    value.foldPrinted.concatenatesText =
      (value.concatenatesText || value.fold.concatenatesText) := by
  rw [foldPrinted]
  split
  case isTrue htext => rw [concatenatesText_foldChain htext, htext, Bool.true_or]
  case isFalse htext =>
    rw [Bool.not_eq_true] at htext
    rw [htext, Bool.false_or]

/-- Folding a print statement folds each insertion on its own exactly when it lays no `+` open at
the start of a text, and only then are there as many insertions as before. -/
theorem printed_fold_eq_map_iff (line : Nat) (value : Expr) :
    ∃ folded,
      Optimize.folding.stmt (.simple line (.print (some value))) =
        .simple line (.print (some folded)) ∧
      (folded.printed = value.printed.map fold ↔ value.splitsWhenFolded = false) ∧
      (folded.printed.length = value.printed.length ↔ value.splitsWhenFolded = false) ∧
      (folded.concatenatesText = value.concatenatesText ↔
        value.concatenatesText = true ∨ value.fold.concatenatesText = false) := by
  have hlength : value.foldPrinted.printed.length = value.printed.length →
      value.splitsWhenFolded = false := by
    intro hlength
    rw [← Bool.not_eq_true]
    intro hsplits
    exact (length_printed_lt_foldPrinted hsplits).ne' hlength
  refine ⟨value.foldPrinted, rfl, ⟨?_, printed_foldPrinted_eq_map⟩, ⟨hlength, ?_⟩, ?_⟩
  · intro hprinted
    apply hlength
    rw [hprinted, List.length_map]
  · intro hsplits
    rw [printed_foldPrinted_eq_map hsplits, List.length_map]
  · rw [concatenatesText_foldPrinted]
    cases value.concatenatesText <;> simp

/-- `(p + q) - 0 + "s"` prints a sum and a text, but `p`, `q` and the text once it is folded. -/
theorem printed_fold_ne_map_sum_minus_zero :
    let sum := binary 1 .add (name 1 "p") (name 1 "q")
    let text := literal 1 (.string "s")
    let value := binary 1 .add (binary 1 .subtract sum (literal 1 (.number .zero))) text
    Optimize.folding.stmt (.simple 1 (.print (some value))) =
        .simple 1 (.print (some (binary 1 .add sum text))) ∧
      value.printed.map fold = [sum, text] ∧
      (binary 1 .add sum text).printed = [name 1 "p", name 1 "q", text] ∧
      (binary 1 .add sum text).printed ≠ value.printed.map fold := by
  refine ⟨rfl, rfl, rfl, ?_⟩
  intro hprinted
  exact absurd (congrArg List.length hprinted) (by decide)

end Tide.Expr
