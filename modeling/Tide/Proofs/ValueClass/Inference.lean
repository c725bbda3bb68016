import Tide.Analysis.ValueClass
import Tide.Proofs.Evaluation
import Tide.Proofs.Tree.Induction

/-!
# Inferred classes

The class of an expression is read off the classes of its parts, while its value is computed from
their values.  Operators treat classes as they treat values, so where a class is inferred, every
value of the expression has it.  Folding may put one part in the place of the whole, but never where
that would change a text or a truth value into something else.
-/

namespace Tide

namespace ValueClass

/-- The class is unknown, or it is the actual one. -/
def Covers (kind actual : ValueClass) : Prop := kind = unknown ∨ kind = actual

variable {left right actual : ValueClass}

theorem Covers.refl (kind : ValueClass) : Covers kind kind := .inr rfl

theorem Covers.eq (hcovers : Covers left actual) (hknown : left.isKnown = true) :
    actual = left := by
  rcases hcovers with rfl | rfl
  · cases hknown
  · rfl

/-- Each branch of a choice may be the one that gives the value. -/
theorem Covers.join_left (hcovers : Covers left actual) : Covers (left.join right) actual := by
  rw [join]
  split
  case isTrue => exact hcovers
  case isFalse => exact .inl rfl

theorem Covers.join_right (hcovers : Covers right actual) : Covers (left.join right) actual := by
  rw [join]
  split
  case isTrue heq => exact heq ▸ hcovers
  case isFalse => exact .inl rfl

theorem eq_of_join_eq {kind : ValueClass} (hknown : kind.isKnown = true)
    (hjoin : left.join right = kind) : left = kind ∧ right = kind := by
  rw [join] at hjoin
  split at hjoin
  case isTrue heq => exact ⟨hjoin, heq ▸ hjoin⟩
  case isFalse =>
    subst hjoin
    cases hknown

theorem join_self (kind : ValueClass) : kind.join kind = kind := if_pos rfl

end ValueClass

open ValueClass (Covers)

/-! ## Operators -/

/-- The class that an operator gives for operands of these classes. -/
def BinaryOp.resultClass (operator : BinaryOp) (left right : ValueClass) : ValueClass :=
  if operator = .add then Environment.sumClass left right
  else if operator.isArithmetic then .number
  else .boolean

namespace Environment

theorem infer_binary (environment : Environment) (line : Nat) (operator : BinaryOp)
    (left right : Expr) :
    environment.infer (.binary line operator left right) =
      operator.resultClass (environment.infer left) (environment.infer right) := by
  cases operator <;> rfl

theorem sumClass_covers {left right leftActual rightActual : ValueClass}
    (hleft : Covers left leftActual) (hright : Covers right rightActual) :
    Covers (sumClass left right) (sumClass leftActual rightActual) := by
  rcases hleft with rfl | rfl
  · exact .inl rfl
  · rcases hright with rfl | rfl
    · left
      cases left <;> rfl
    · exact .refl _

/-- No sum is a truth value, and only the sum of two texts is a text. -/
theorem eq_string_of_sumClass {left right kind : ValueClass}
    (hkind : kind = .string ∨ kind = .boolean) (hsum : sumClass left right = kind) :
    left = .string ∧ right = .string ∧ kind = .string := by
  subst hsum
  cases left <;> cases right <;> simp_all [sumClass]

end Environment

namespace BinaryOp

/-- What is known of the operands of an operator says what is known of its result. -/
theorem resultClass_covers (operator : BinaryOp)
    {left right leftActual rightActual : ValueClass} (hleft : Covers left leftActual)
    (hright : Covers right rightActual) :
    Covers (operator.resultClass left right) (operator.resultClass leftActual rightActual) := by
  by_cases hadd : operator = .add
  · rw [resultClass, resultClass, if_pos hadd, if_pos hadd]
    exact Environment.sumClass_covers hleft hright
  · rw [resultClass, resultClass, if_neg hadd, if_neg hadd]
    exact .refl _

theorem ofLiteral_onNumbers (operator : BinaryOp) {left right : Number} {value : Literal}
    (hvalue : operator.onNumbers left right = some value) :
    ValueClass.ofLiteral value = operator.resultClass .number .number := by
  -- Arithmetic gives a number where it is finite, a comparison gives a truth value.
  cases operator with
  | add | subtract | multiply | divide | modulus =>
      simp only [onNumbers, Option.ite_none_right_eq_some, Option.some.injEq] at hvalue
      rw [← hvalue.2]
      rfl
  | lessThan | greaterThan | lessOrEqual | greaterOrEqual | equals | notEquals =>
      cases hvalue
      rfl
  | logicalAnd | logicalOr => cases hvalue

/-- The value of an operator has the class that the operator gives for those of its operands. -/
theorem ofLiteral_onLiterals (operator : BinaryOp) {left right value : Literal}
    (hvalue : operator.onLiterals left right = some value) :
    ValueClass.ofLiteral value =
      operator.resultClass (.ofLiteral left) (.ofLiteral right) := by
  cases left with
  | number left =>
      cases right with
      | number right => exact operator.ofLiteral_onNumbers hvalue
      | string | boolean => cases hvalue
  | string left =>
      cases right with
      | string right =>
          cases operator with
          | add | equals | notEquals =>
              cases hvalue
              rfl
          | _ => cases hvalue
      | number | boolean => cases hvalue
  | boolean left =>
      cases right with
      | boolean right =>
          cases operator with
          | logicalAnd | logicalOr =>
              cases hvalue
              rfl
          | _ => cases hvalue
      | number | string => cases hvalue

end BinaryOp

/-- Negation gives numbers and complement gives truth values, whatever the operand is. -/
theorem UnaryOp.ofLiteral_onLiteral (environment : Environment) (line : Nat) (operator : UnaryOp)
    (operand : Expr) {literal value : Literal} (hvalue : operator.onLiteral literal = some value) :
    ValueClass.ofLiteral value = environment.infer (.unary line operator operand) := by
  cases operator <;> cases literal <;> cases hvalue <;> rfl

/-! ## Values -/

namespace Environment

/-- No name of a known class has a value of another class. -/
def Admits (environment : Environment) (valuation : String → Option Literal) : Prop :=
  ∀ name kind, environment.get? name = some kind → kind.isKnown = true →
    ∀ value, valuation name = some value → ValueClass.ofLiteral value = kind

theorem Admits.covers {environment : Environment} {valuation : String → Option Literal}
    (hadmits : environment.Admits valuation) {name : String} {value : Literal}
    (hvalue : valuation name = some value) (line : Nat) :
    Covers (environment.infer (.name line name)) (.ofLiteral value) := by
  rw [infer]
  cases hkind : environment.get? name with
  | none => exact .inl rfl
  | some kind =>
      by_cases hknown : kind.isKnown = true
      · exact .inr (hadmits name kind hkind hknown value hvalue).symm
      · left
        simpa [ValueClass.isKnown] using hknown

/-- Of an expression that has a value, the class is not inferred or it is that of the value. -/
theorem infer_covers {environment : Environment} {valuation : String → Option Literal}
    (hadmits : environment.Admits valuation) (meaning : Interpretation) {expression : Expr}
    {value : Literal} (hvalue : expression.eval meaning valuation = some value) :
    Covers (environment.infer expression) (.ofLiteral value) := by
  induction expression generalizing value with
  | literal line literal =>
      cases hvalue
      exact .refl _
  | name line text => exact hadmits.covers hvalue line
  | unary line operator operand _ =>
      obtain ⟨literal, -, hresult⟩ := Option.bind_eq_some_iff.mp hvalue
      rw [operator.ofLiteral_onLiteral environment line operand hresult]
      exact .refl _
  | binary line operator left right ihLeft ihRight =>
      simp only [Expr.eval, Option.bind_eq_some_iff] at hvalue
      obtain ⟨leftValue, hleft, rightValue, hright, hresult⟩ := hvalue
      rw [infer_binary, operator.ofLiteral_onLiterals hresult]
      exact operator.resultClass_covers (ihLeft hleft) (ihRight hright)
  | ternary line condition positive negative _ ihPositive ihNegative =>
      obtain ⟨holds, -, hbranch⟩ := Option.bind_eq_some_iff.mp hvalue
      rw [infer]
      cases holds with
      | true => exact (ihPositive hbranch).join_left
      | false => exact (ihNegative hbranch).join_right
  | call | index | member => exact .inl rfl

/-- Where the class of an expression is inferred, it is the class of every value that the expression
has, whatever calls, indexing and member access give. -/
theorem ofLiteral_eval_eq_infer (environment : Environment) (meaning : Interpretation)
    (valuation : String → Option Literal) (hadmits : environment.Admits valuation)
    (expression : Expr) (value : Literal)
    (hvalue : expression.eval meaning valuation = some value)
    (hknown : (environment.infer expression).isKnown = true) :
    ValueClass.ofLiteral value = environment.infer expression :=
  (infer_covers hadmits meaning hvalue).eq hknown

/-- `n < 1 ? s + "b" : s` for a number `n` in an outer scope and a text `s` in an inner one, with a
negative `n`. -/
theorem ofLiteral_eval_eq_infer_choice :
    let environment : Environment := (Scopes.empty.bind "n" .number).push.bind "s" .string
    let meaning : Interpretation := ⟨fun _ _ => none, fun _ _ => none, fun _ _ => none⟩
    let valuation : String → Option Literal := fun name =>
      if name = "n" then some (.number (-.one)) else if name = "s" then some (.string "a") else none
    let expression : Expr := .ternary 1
      (.binary 1 .lessThan (.name 1 "n") (.literal 1 (.number .one)))
      (.binary 1 .add (.name 1 "s") (.literal 1 (.string "b"))) (.name 1 "s")
    environment.Admits valuation ∧
      expression.eval meaning valuation = some (.string "ab") ∧
      ValueClass.ofLiteral (.string "ab") = environment.infer expression := by
  intro environment meaning valuation expression
  have hadmits : environment.Admits valuation := by
    intro name kind hkind _ value hvalue
    by_cases hnumber : name = "n"
    · subst hnumber
      cases hkind
      cases hvalue
      rfl
    · by_cases htext : name = "s"
      · subst htext
        cases hkind
        cases hvalue
        rfl
      · simp [valuation, hnumber, htext] at hvalue
  have hvalue : expression.eval meaning valuation = some (.string "ab") := by decide +kernel
  exact ⟨hadmits, hvalue,
    ofLiteral_eval_eq_infer environment meaning valuation hadmits expression _ hvalue rfl⟩

end Environment

/-! ## Folding -/

namespace Environment

variable {environment : Environment}

theorem infer_of_literal? {expression : Expr} {value : Literal}
    (hliteral : expression.literal? = some value) :
    environment.infer expression = .ofLiteral value := by
  cases expression with
  | literal =>
      cases hliteral
      rfl
  | _ => cases hliteral

theorem infer_of_isNumber {expression : Expr} {number : Number}
    (hnumber : expression.isNumber number = true) : environment.infer expression = .number := by
  rw [Expr.isNumber, Option.any_eq_true] at hnumber
  obtain ⟨value, hvalue, -⟩ := hnumber
  cases expression with
  | literal line literal =>
      cases literal with
      | number => rfl
      | string | boolean => cases hvalue
  | _ => cases hvalue

theorem isNumber_of_infer_ne {expression : Expr}
    (hclass : environment.infer expression ≠ .number) (number : Number) :
    expression.isNumber number = false :=
  Bool.eq_false_iff.mpr fun hnumber => hclass (infer_of_isNumber hnumber)

/-- The value that an operation is replaced by has the class of the operation. -/
theorem ofLiteral_binaryConstant? {operator : BinaryOp} {left right : Expr} {value : Literal}
    (hconstant : Expr.binaryConstant? operator left right = some value) :
    ValueClass.ofLiteral value =
      operator.resultClass (environment.infer left) (environment.infer right) := by
  simp only [Expr.binaryConstant?, Option.bind_eq_some_iff] at hconstant
  obtain ⟨leftValue, hleft, rightValue, hright, hresult⟩ := hconstant
  rw [infer_of_literal? hleft, infer_of_literal? hright]
  exact operator.ofLiteral_onLiterals hresult

/-- Operands of different classes have no value that an operation could be replaced by. -/
theorem binaryConstant?_of_infer_ne (operator : BinaryOp) {left right : Expr}
    (hclasses : environment.infer left ≠ environment.infer right) :
    Expr.binaryConstant? operator left right = none := by
  apply Option.eq_none_iff_forall_ne_some.mpr
  intro value hconstant
  simp only [Expr.binaryConstant?, Option.bind_eq_some_iff] at hconstant
  obtain ⟨leftValue, hleft, rightValue, hright, hresult⟩ := hconstant
  rw [infer_of_literal? hleft, infer_of_literal? hright] at hclasses
  cases leftValue <;> cases rightValue <;> simp_all [BinaryOp.onLiterals, ValueClass.ofLiteral]

/-- An operation whose result is a text or a truth value is never replaced by an operand. -/
theorem infer_simplify (line : Nat) {operator : BinaryOp} {left right : Expr} {kind : ValueClass}
    (hkind : kind = .string ∨ kind = .boolean)
    (hresult : operator.resultClass (environment.infer left) (environment.infer right) = kind) :
    environment.infer (Expr.simplify line operator left right) = kind := by
  have hkept : environment.infer (.binary line operator left right) = kind :=
    (environment.infer_binary line operator left right).trans hresult
  cases operator with
  | add =>
      obtain ⟨hleftText, hrightText, -⟩ := eq_string_of_sumClass hkind hresult
      have hleft := isNumber_of_infer_ne (hleftText.trans_ne nofun) .zero
      have hright := isNumber_of_infer_ne (hrightText.trans_ne nofun) .zero
      simpa only [Expr.simplify, hleft, hright, Bool.false_and, Bool.false_eq_true, if_false]
        using hkept
  | subtract | multiply | divide | modulus =>
      subst hresult
      rcases hkind with hkind | hkind <;> cases hkind
  | _ => exact hkept

/-- Folding keeps texts texts and truth values truth values, whether or not the operators in the
expression fit their operands. -/
theorem infer_fold_of_infer {kind : ValueClass} (hkind : kind = .string ∨ kind = .boolean)
    {expression : Expr} (hinfer : environment.infer expression = kind) :
    environment.infer expression.fold = kind := by
  have hknown : kind.isKnown = true := by rcases hkind with rfl | rfl <;> rfl
  induction expression with
  | literal | name => exact hinfer
  | unary line operator operand _ =>
      rw [Expr.fold]
      split
      case h_1 value hconstant =>
        obtain ⟨literal, -, hvalue⟩ := Option.bind_eq_some_iff.mp hconstant
        exact (operator.ofLiteral_onLiteral environment line operand hvalue).trans hinfer
      case h_2 =>
        -- The class of a unary operation does not depend on its operand.
        cases operator <;> exact hinfer
  | binary line operator left right ihLeft ihRight =>
      rw [infer_binary] at hinfer
      have hfolded : operator.resultClass (environment.infer left.fold)
          (environment.infer right.fold) = kind := by
        by_cases hadd : operator = .add
        · subst hadd
          obtain ⟨hleft, hright, rfl⟩ := eq_string_of_sumClass hkind hinfer
          rw [ihLeft hleft, ihRight hright]
          rfl
        · rw [BinaryOp.resultClass, if_neg hadd] at hinfer ⊢
          exact hinfer
      rw [Expr.fold]
      split
      case h_1 value hconstant => exact (ofLiteral_binaryConstant? hconstant).trans hfolded
      case h_2 => exact infer_simplify line hkind hfolded
  | ternary line condition positive negative _ ihPositive ihNegative =>
      obtain ⟨hpositive, hnegative⟩ := ValueClass.eq_of_join_eq hknown hinfer
      rw [Expr.fold]
      split
      case h_1 => exact ihPositive hpositive
      case h_2 => exact ihNegative hnegative
      case h_3 =>
        rw [infer, ihPositive hpositive, ihNegative hnegative]
        exact ValueClass.join_self kind
  | call | index | member =>
      subst hinfer
      cases hknown

/-- Folding keeps the class of a text and that of a truth value. -/
theorem infer_fold_string_boolean (environment : Environment) (expression : Expr) :
    (environment.infer expression = .string → environment.infer expression.fold = .string) ∧
      (environment.infer expression = .boolean → environment.infer expression.fold = .boolean) :=
  ⟨infer_fold_of_infer (.inl rfl), infer_fold_of_infer (.inr rfl)⟩

/-- `(true ? s : "b") + ""` is folded to `s + ""`, and `!(x - "a" < 0)` keeps its comparison, even
if the difference of an unknown and a text is no number. -/
theorem infer_fold_string_boolean_mixed :
    let environment : Environment := Scopes.empty.bind "s" .string
    let text : Expr := .binary 1 .add
      (.ternary 1 (.literal 1 (.boolean true)) (.name 1 "s") (.literal 1 (.string "b")))
      (.literal 1 (.string ""))
    let truth : Expr := .unary 1 .complement (.binary 1 .lessThan
      (.binary 1 .subtract (.name 1 "x") (.literal 1 (.string "a"))) (.literal 1 (.number .zero)))
    environment.infer text.fold = .string ∧ environment.infer truth.fold = .boolean :=
  ⟨(infer_fold_string_boolean _ _).1 rfl, (infer_fold_string_boolean _ _).2 rfl⟩

end Environment

end Tide
