import Tide.Analysis.Typing
import Tide.Proofs.Fold.NormalForm
import Tide.Proofs.ValueClass.Inference

/-!
# Numbers that are folded

Arithmetic is a number whatever its operands are, and folding may put an operand in its place.  The
operands that the check of operators lets through are numbers or of unknown class.  So an accepted
number stays one, or becomes unknown, as long as no operand of unknown class turns out to be a text
or a truth value.  Only a choice with a known condition can bring that about.
-/

namespace Tide

/-- A folded operation is its value, or what simplifying its folded operands gives. -/
theorem Expr.fold_binary_cases (line : Nat) (operator : BinaryOp) (left right : Expr) :
    (∃ value, binaryConstant? operator left.fold right.fold = some value ∧
      (binary line operator left right).fold = literal line value) ∨
    (binary line operator left right).fold = simplify line operator left.fold right.fold := by
  rw [fold]
  split
  case h_1 value hconstant => exact .inl ⟨value, hconstant, rfl⟩
  case h_2 => exact .inr rfl

/-! ## Texts and truth values that come to light -/

namespace Environment

/-- Folding brings the class `kind` to light: the expression has it from the start, or what is left
of the expression has it. -/
inductive Uncovers (environment : Environment) (kind : ValueClass) : Expr → Prop
  | same {expression : Expr} (hinfer : environment.infer expression = kind) :
      Uncovers environment kind expression
  | left {line : Nat} {operator : BinaryOp} {left right : Expr}
      (hleaves : Expr.LeavesLeft operator left.fold right.fold)
      (hleft : Uncovers environment kind left) :
      Uncovers environment kind (.binary line operator left right)
  | right {line : Nat} {operator : BinaryOp} {left right : Expr}
      (hleaves : Expr.LeavesRight operator left.fold right.fold)
      (hright : Uncovers environment kind right) :
      Uncovers environment kind (.binary line operator left right)
  | sum {line : Nat} {left right : Expr} (htext : kind = .string)
      (hleft : Uncovers environment kind left) (hright : Uncovers environment kind right) :
      Uncovers environment kind (.binary line .add left right)
  | positive {line : Nat} {condition positive negative : Expr}
      (htruth : condition.fold.truth? = some true)
      (hpositive : Uncovers environment kind positive) :
      Uncovers environment kind (.ternary line condition positive negative)
  | negative {line : Nat} {condition positive negative : Expr}
      (htruth : condition.fold.truth? = some false)
      (hnegative : Uncovers environment kind negative) :
      Uncovers environment kind (.ternary line condition positive negative)
  | both {line : Nat} {condition positive negative : Expr}
      (hpositive : Uncovers environment kind positive)
      (hnegative : Uncovers environment kind negative) :
      Uncovers environment kind (.ternary line condition positive negative)

variable {environment : Environment} {kind : ValueClass}

/-- A sum of operands that are folded to texts is folded to a text. -/
theorem infer_fold_sum_of_texts (line : Nat) {left right : Expr}
    (hleft : environment.infer left.fold = .string)
    (hright : environment.infer right.fold = .string) :
    environment.infer (Expr.binary line .add left right).fold = .string := by
  have hresult : BinaryOp.resultClass .add (environment.infer left.fold)
      (environment.infer right.fold) = .string := by
    rw [hleft, hright]
    rfl
  rw [Expr.fold]
  split
  case h_1 value hconstant => exact (ofLiteral_binaryConstant? hconstant).trans hresult
  case h_2 => exact infer_simplify line (.inl rfl) hresult

/-- Beside an operand of another class than a number, a number that changes nothing goes. -/
theorem fold_of_leavesLeft (line : Nat) {operator : BinaryOp} {left right : Expr}
    (hleaves : Expr.LeavesLeft operator left.fold right.fold)
    (hclass : environment.infer left.fold ≠ .number) :
    (Expr.binary line operator left right).fold = left.fold := by
  obtain ⟨neutral, -, hright⟩ := hleaves.1
  have hnumber : environment.infer right.fold = .number := infer_of_isNumber hright
  rw [Expr.fold, binaryConstant?_of_infer_ne operator (hnumber ▸ hclass)]
  exact hleaves.simplify_eq line

theorem fold_of_leavesRight (line : Nat) {operator : BinaryOp} {left right : Expr}
    (hleaves : Expr.LeavesRight operator left.fold right.fold)
    (hclass : environment.infer right.fold ≠ .number) :
    (Expr.binary line operator left right).fold = right.fold := by
  obtain ⟨neutral, -, hleft⟩ := hleaves.1
  have hnumber : environment.infer left.fold = .number := infer_of_isNumber hleft
  rw [Expr.fold, binaryConstant?_of_infer_ne operator (hnumber ▸ hclass.symm)]
  exact hleaves.simplify_eq line (isNumber_of_infer_ne hclass)

/-- A text or a truth value that is brought to light is the class after folding. -/
theorem Uncovers.infer_fold {expression : Expr} (hkind : kind = .string ∨ kind = .boolean)
    (huncovers : environment.Uncovers kind expression) :
    environment.infer expression.fold = kind := by
  have hnumber : kind ≠ .number := by rcases hkind with rfl | rfl <;> decide
  induction huncovers with
  | same hinfer => exact infer_fold_of_infer hkind hinfer
  | left hleaves _ ih => rw [fold_of_leavesLeft _ hleaves (ih ▸ hnumber), ih]
  | right hleaves _ ih => rw [fold_of_leavesRight _ hleaves (ih ▸ hnumber), ih]
  | sum htext _ _ ihLeft ihRight =>
      subst htext
      exact infer_fold_sum_of_texts _ ihLeft ihRight
  | positive htruth _ ih | negative htruth _ ih => rw [Expr.fold, htruth, ih]
  | both _ _ ihPositive ihNegative =>
      rw [Expr.fold]
      split
      case h_1 => exact ihPositive
      case h_2 => exact ihNegative
      case h_3 =>
        rw [infer, ihPositive, ihNegative]
        exact ValueClass.join_self kind

/-- The class of a unary operation does not depend on its operand. -/
theorem infer_fold_unary (environment : Environment) (line : Nat) (operator : UnaryOp)
    (operand : Expr) :
    environment.infer (Expr.unary line operator operand).fold =
      environment.infer (.unary line operator operand) := by
  rw [Expr.fold]
  split
  case h_1 value hconstant =>
    obtain ⟨literal, -, hvalue⟩ := Option.bind_eq_some_iff.mp hconstant
    exact operator.ofLiteral_onLiteral environment line operand hvalue
  case h_2 => cases operator <;> rfl

/-- The class of an operation on folded operands is brought to light by the operands, or it is there
from the start. -/
theorem Uncovers.of_resultClass {line : Nat} {operator : BinaryOp} {left right : Expr}
    (hkind : kind = .string ∨ kind = .boolean)
    (hleft : environment.infer left.fold = kind → environment.Uncovers kind left)
    (hright : environment.infer right.fold = kind → environment.Uncovers kind right)
    (hresult : operator.resultClass (environment.infer left.fold)
      (environment.infer right.fold) = kind) :
    environment.Uncovers kind (.binary line operator left right) := by
  by_cases hadd : operator = .add
  · subst hadd
    obtain ⟨hleftText, hrightText, rfl⟩ := eq_string_of_sumClass hkind hresult
    exact .sum rfl (hleft hleftText) (hright hrightText)
  · apply Uncovers.same
    rw [BinaryOp.resultClass, if_neg hadd] at hresult
    rw [infer_binary, BinaryOp.resultClass, if_neg hadd, hresult]

/-- Where the class after folding is a text or a truth value, folding brings it to light. -/
theorem uncovers_of_infer_fold (hkind : kind = .string ∨ kind = .boolean) {expression : Expr}
    (hinfer : environment.infer expression.fold = kind) :
    environment.Uncovers kind expression := by
  have hnumber : kind ≠ .number := by rcases hkind with rfl | rfl <;> decide
  have hknown : kind.isKnown = true := by rcases hkind with rfl | rfl <;> rfl
  induction expression with
  | literal | name | call | index | member => exact .same hinfer
  | unary line operator operand =>
      rw [infer_fold_unary] at hinfer
      exact .same hinfer
  | binary line operator left right ihLeft ihRight =>
      rcases Expr.fold_binary_cases line operator left right with ⟨value, hconstant, hfold⟩ | hfold
      · rw [hfold] at hinfer
        exact .of_resultClass hkind ihLeft ihRight
          ((ofLiteral_binaryConstant? hconstant).symm.trans hinfer)
      · rcases Expr.simplify_cases line operator left.fold right.fold with
          ⟨heq, hleaves⟩ | ⟨heq, hleaves⟩ | ⟨heq, -⟩ | heq <;> rw [hfold, heq] at hinfer
        · exact .left hleaves (ihLeft hinfer)
        · exact .right hleaves (ihRight hinfer)
        · exact absurd hinfer.symm hnumber
        · exact .of_resultClass hkind ihLeft ihRight ((infer_binary ..).symm.trans hinfer)
  | ternary line condition positive negative _ ihPositive ihNegative =>
      rw [Expr.fold] at hinfer
      split at hinfer
      case h_1 htruth => exact .positive htruth (ihPositive hinfer)
      case h_2 htruth => exact .negative htruth (ihNegative hinfer)
      case h_3 =>
        obtain ⟨hpositive, hnegative⟩ := ValueClass.eq_of_join_eq hknown hinfer
        exact .both (ihPositive hpositive) (ihNegative hnegative)

end Environment

/-! ## Numbers that become unknown -/

namespace ValueClass

/-- The class stays, or a number becomes unknown. -/
def Fades (before after : ValueClass) : Prop :=
  after = before ∨ (before = number ∧ after = unknown)

instance decidableFades (before after : ValueClass) : Decidable (before.Fades after) :=
  inferInstanceAs (Decidable (_ ∨ _))

variable {left right leftAfter rightAfter : ValueClass}

theorem Fades.refl (kind : ValueClass) : kind.Fades kind := .inl rfl

/-- What is a number afterwards was one before. -/
theorem Fades.eq_number (hfades : left.Fades number) : left = number := by
  rcases hfades with heq | ⟨-, hunknown⟩
  · exact heq.symm
  · cases hunknown

theorem Fades.number_or_unknown (hfades : number.Fades right) :
    right = number ∨ right = unknown :=
  hfades.imp id And.right

theorem Fades.join (hleft : left.Fades leftAfter) (hright : right.Fades rightAfter) :
    (left.join right).Fades (leftAfter.join rightAfter) := by
  rcases hleft with rfl | ⟨rfl, rfl⟩ <;> rcases hright with rfl | ⟨rfl, rfl⟩
  · exact .refl _
  · cases leftAfter <;> decide
  · cases rightAfter <;> decide
  · decide

end ValueClass

namespace BinaryOp

open ValueClass (Fades)

variable {operator : BinaryOp} {left right leftAfter rightAfter : ValueClass}

theorem resultClass_fades (operator : BinaryOp) (hleft : left.Fades leftAfter)
    (hright : right.Fades rightAfter) :
    (operator.resultClass left right).Fades (operator.resultClass leftAfter rightAfter) := by
  by_cases hadd : operator = .add
  · subst hadd
    rcases hleft with rfl | ⟨rfl, rfl⟩ <;> rcases hright with rfl | ⟨rfl, rfl⟩
    · exact .refl _
    · cases leftAfter <;> decide
    · cases rightAfter <;> decide
    · decide
  · rw [resultClass, resultClass, if_neg hadd, if_neg hadd]
    exact .refl _

theorem resultClass_comm (operator : BinaryOp) (left right : ValueClass) :
    operator.resultClass left right = operator.resultClass right left := by
  by_cases hadd : operator = .add
  · subst hadd
    cases left <;> cases right <;> rfl
  · rw [resultClass, resultClass, if_neg hadd, if_neg hadd]

theorem accepts_comm (operator : BinaryOp) (left right : ValueClass) :
    Analysis.accepts operator left right = Analysis.accepts operator right left := by
  have hboth : ∀ expected,
      left.bothOrUnknown right expected = right.bothOrUnknown left expected := by
    intro expected
    rw [ValueClass.bothOrUnknown, ValueClass.bothOrUnknown, Bool.or_comm (!left.isKnown),
      Bool.and_comm]
  cases operator <;> simp only [Analysis.accepts, hboth]

/-- Beside a number, arithmetic accepts numbers and what is unknown. -/
theorem number_or_unknown_of_accepts (harithmetic : operator.isArithmetic = true)
    (haccepts : Analysis.accepts operator left .number = true) :
    left = .number ∨ left = .unknown := by
  cases operator with
  | add | subtract | multiply | divide | modulus =>
      cases left with
      | number => exact .inl rfl
      | unknown => exact .inr rfl
      | string | boolean => cases haccepts
  | _ => cases harithmetic

/-- Arithmetic that is accepted with a number beside an operand has the class of the operand, or is
a number where the operand is unknown. -/
theorem resultClass_fades_operand (harithmetic : operator.isArithmetic = true)
    (haccepts : Analysis.accepts operator left .number = true) (hleft : left.Fades leftAfter) :
    (operator.resultClass left .number).Fades leftAfter := by
  rcases number_or_unknown_of_accepts harithmetic haccepts with rfl | rfl
  · have hnumber : operator.resultClass .number .number = .number := by
      cases operator with
      | add | subtract | multiply | divide | modulus => rfl
      | _ => cases harithmetic
    rw [hnumber]
    exact hleft
  · obtain rfl : leftAfter = .unknown := hleft.elim id And.right
    by_cases hadd : operator = .add
    · subst hadd
      exact .refl _
    · rw [resultClass, if_neg hadd, if_pos harithmetic]
      exact .inr ⟨rfl, rfl⟩

end BinaryOp

/-! ## Accepted expressions -/

namespace Environment

/-- A choice with a known condition has the class of the branch that it takes. -/
def TakesOwnClass (environment : Environment) : Expr → Prop
  | .ternary line condition positive negative => ∀ holds, condition.fold.truth? = some holds →
      environment.infer (.ternary line condition positive negative) =
        environment.infer (if holds then positive else negative)
  | _ => True

variable {environment : Environment}

/-- Folding an accepted operation on operands whose classes stay or fade. -/
theorem infer_fold_binary_fades (line : Nat) {operator : BinaryOp} {left right : Expr}
    (haccepts : Analysis.accepts operator (environment.infer left) (environment.infer right) = true)
    (hleft : (environment.infer left).Fades (environment.infer left.fold))
    (hright : (environment.infer right).Fades (environment.infer right.fold)) :
    (environment.infer (.binary line operator left right)).Fades
      (environment.infer (Expr.binary line operator left right).fold) := by
  have hresult := operator.resultClass_fades hleft hright
  rw [infer_binary]
  rcases Expr.fold_binary_cases line operator left right with ⟨value, hconstant, hfold⟩ | hfold
  · rw [hfold, infer, ofLiteral_binaryConstant? hconstant]
    exact hresult
  rw [hfold]
  rcases Expr.simplify_cases line operator left.fold right.fold with
    ⟨heq, hleaves⟩ | ⟨heq, hleaves⟩ | ⟨heq, rfl, -⟩ | heq
  · obtain ⟨neutral, -, hnumber⟩ := hleaves.1
    rw [infer_of_isNumber hnumber] at hright
    rw [hright.eq_number] at haccepts ⊢
    rw [heq]
    exact BinaryOp.resultClass_fades_operand hleaves.isArithmetic haccepts hleft
  · obtain ⟨neutral, -, hnumber⟩ := hleaves.1
    rw [infer_of_isNumber hnumber] at hleft
    rw [hleft.eq_number] at haccepts ⊢
    rw [heq, operator.resultClass_comm]
    rw [operator.accepts_comm] at haccepts
    exact BinaryOp.resultClass_fades_operand hleaves.isArithmetic haccepts hright
  · rw [heq]
    exact .refl _
  · rw [heq, infer_binary]
    exact hresult

/-- Where all operators fit and all known conditions take the class of the choice, folding keeps
every class, except that a number may become unknown. -/
theorem infer_fold_fades {expression : Expr}
    (haccepted : ∀ part ∈ expression.subterms, Analysis.wrongOperands environment part = [])
    (htakes : ∀ part ∈ expression.subterms, environment.TakesOwnClass part) :
    (environment.infer expression).Fades (environment.infer expression.fold) := by
  induction expression with
  | literal | name | call | index | member => exact .refl _
  | unary line operator operand =>
      rw [infer_fold_unary]
      exact .refl _
  | binary line operator left right ihLeft ihRight =>
      simp only [Expr.subterms, List.forall_mem_cons, List.forall_mem_append] at haccepted htakes
      refine infer_fold_binary_fades line ?_ (ihLeft haccepted.2.1 htakes.2.1)
        (ihRight haccepted.2.2 htakes.2.2)
      simpa [Analysis.wrongOperands] using haccepted.1
  | ternary line condition positive negative _ ihPositive ihNegative =>
      simp only [Expr.subterms, List.forall_mem_cons, List.forall_mem_append] at haccepted htakes
      have hpositive := ihPositive haccepted.2.1.2 htakes.2.1.2
      have hnegative := ihNegative haccepted.2.2 htakes.2.2
      rw [Expr.fold]
      split
      case h_1 htruth =>
        rw [htakes.1 true htruth]
        exact hpositive
      case h_2 htruth =>
        rw [htakes.1 false htruth]
        exact hnegative
      case h_3 => exact hpositive.join hnegative

/-- An accepted number is a number or unknown after folding, exactly when folding brings no text and
no truth value to light.  It brings none to light where every choice with a known condition has the
class of the branch that it takes. -/
theorem infer_fold_of_accepted_number (environment : Environment) (expression : Expr)
    (haccepted : Analysis.operators.expression environment expression = [])
    (hnumber : environment.infer expression = .number) :
    ((environment.infer expression.fold = .number ∨ environment.infer expression.fold = .unknown) ↔
      ¬ environment.Uncovers .string expression ∧ ¬ environment.Uncovers .boolean expression) ∧
    ((∀ part ∈ expression.subterms, environment.TakesOwnClass part) →
      environment.infer expression.fold = .number ∨
        environment.infer expression.fold = .unknown) := by
  refine ⟨⟨fun hkept => ⟨fun htext => ?_, fun htruth => ?_⟩, fun hcovered => ?_⟩, fun htakes => ?_⟩
  · rw [htext.infer_fold (.inl rfl)] at hkept
    rcases hkept with hkept | hkept <;> cases hkept
  · rw [htruth.infer_fold (.inr rfl)] at hkept
    rcases hkept with hkept | hkept <;> cases hkept
  · cases hafter : environment.infer expression.fold with
    | number => exact .inl rfl
    | unknown => exact .inr rfl
    | string => exact absurd (uncovers_of_infer_fold (.inl rfl) hafter) hcovered.1
    | boolean => exact absurd (uncovers_of_infer_fold (.inr rfl) hafter) hcovered.2
  · have hfades := infer_fold_fades (List.flatMap_eq_nil_iff.mp haccepted) htakes
    rw [hnumber] at hfades
    exact hfades.number_or_unknown

/-- `((true ? x : y) - 0) + n` for a number `n` and two unknown names is a number that is folded to
`x + n`. -/
theorem infer_fold_of_accepted_number_unknown :
    let environment : Environment := Scopes.empty.bind "n" .number
    let choice : Expr := .ternary 1 (.literal 1 (.boolean true)) (.name 1 "x") (.name 1 "y")
    let expression : Expr := .binary 1 .add
      (.binary 1 .subtract choice (.literal 1 (.number .zero))) (.name 1 "n")
    Analysis.operators.expression environment expression = [] ∧
      environment.infer expression = .number ∧
      (∀ part ∈ expression.subterms, environment.TakesOwnClass part) ∧
      (environment.infer expression.fold = .number ∨
        environment.infer expression.fold = .unknown) := by
  intro environment choice expression
  have htakes : ∀ part ∈ expression.subterms, environment.TakesOwnClass part := by
    have hchoice : environment.TakesOwnClass choice := by
      intro holds htruth
      cases htruth
      rfl
    simpa [expression, choice, Expr.subterms, TakesOwnClass] using hchoice
  exact ⟨rfl, rfl, htakes,
    (infer_fold_of_accepted_number environment expression rfl rfl).2 htakes⟩

/-- `(true ? "a" : 1) - 0` is an accepted number, and it is folded to a text. -/
theorem infer_fold_string_of_known_choice :
    let choice : Expr := .ternary 1 (.literal 1 (.boolean true)) (.literal 1 (.string "a"))
      (.literal 1 (.number .one))
    let expression : Expr := .binary 1 .subtract choice (.literal 1 (.number .zero))
    Analysis.operators.expression .empty expression = [] ∧
      infer .empty expression = .number ∧
      infer .empty expression.fold = .string :=
  ⟨rfl, rfl, rfl⟩

end Environment

end Tide
