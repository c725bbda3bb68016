import Tide.Proofs.Evaluation
import Tide.Proofs.Tree.Induction

/-!
# Folding keeps values

Wherever an expression has a value, the folded expression has the same one.  Folding evaluates
operators on literals as evaluation does.  Each identity is checked on the values that its operands
can have: where the whole operation has a value, the operand it is replaced by is a finite number.
-/

namespace Tide

/-! ## Identities on values -/

namespace BinaryOp

theorem exists_number_of_onLiterals_right {operator : BinaryOp} {left value : Literal}
    {right : Number} (hvalue : operator.onLiterals left (.number right) = some value) :
    ∃ leftNumber, left = .number leftNumber ∧ operator.onNumbers leftNumber right = some value := by
  cases left with
  | number leftNumber => exact ⟨leftNumber, rfl, hvalue⟩
  | string | boolean => simp [onLiterals] at hvalue

theorem exists_number_of_onLiterals_left {operator : BinaryOp} {right value : Literal}
    {left : Number} (hvalue : operator.onLiterals (.number left) right = some value) :
    ∃ rightNumber, right = .number rightNumber ∧
      operator.onNumbers left rightNumber = some value := by
  cases right with
  | number rightNumber => exact ⟨rightNumber, rfl, hvalue⟩
  | string | boolean => simp [onLiterals] at hvalue

theorem eq_number_of_finite {result : Number} {value : Literal}
    (hvalue : (if result.isFinite then some (Literal.number result) else none) = some value) :
    result.isFinite = true ∧ value = .number result := by
  split at hvalue
  case isTrue hfinite => exact ⟨hfinite, (Option.some.inj hvalue).symm⟩
  case isFalse => simp at hvalue

theorem sameValue_of_add_zero {left value : Literal} {right : Number}
    (hzero : right.isZero = true) (hvalue : add.onLiterals left (.number right) = some value) :
    left.SameValue value := by
  obtain ⟨leftNumber, rfl, hnumbers⟩ := exists_number_of_onLiterals_right hvalue
  obtain ⟨hfinite, rfl⟩ := eq_number_of_finite hnumbers
  rw [Literal.sameValue_number_iff]
  exact (Number.sameValue_add_of_isZero (Number.isFinite_of_add hfinite).1 hzero).symm

theorem sameValue_of_zero_add {right value : Literal} {left : Number}
    (hzero : left.isZero = true) (hvalue : add.onLiterals (.number left) right = some value) :
    right.SameValue value := by
  obtain ⟨rightNumber, rfl, hnumbers⟩ := exists_number_of_onLiterals_left hvalue
  obtain ⟨hfinite, rfl⟩ := eq_number_of_finite hnumbers
  rw [Literal.sameValue_number_iff]
  exact (Number.sameValue_of_isZero_add (Number.isFinite_of_add hfinite).2 hzero).symm

theorem sameValue_of_subtract_zero {left value : Literal} {right : Number}
    (hzero : right.isZero = true)
    (hvalue : subtract.onLiterals left (.number right) = some value) : left.SameValue value := by
  obtain ⟨leftNumber, rfl, hnumbers⟩ := exists_number_of_onLiterals_right hvalue
  obtain ⟨hfinite, rfl⟩ := eq_number_of_finite hnumbers
  rw [Literal.sameValue_number_iff]
  exact (Number.sameValue_sub_of_isZero (Number.isFinite_of_add hfinite).1 hzero).symm

theorem eq_of_multiply_one {left value : Literal}
    (hvalue : multiply.onLiterals left (.number .one) = some value) : value = left := by
  obtain ⟨leftNumber, rfl, hnumbers⟩ := exists_number_of_onLiterals_right hvalue
  obtain ⟨hfinite, rfl⟩ := eq_number_of_finite hnumbers
  rw [Number.mul_one_of_isFinite (Number.isFinite_of_mul hfinite).1]

theorem eq_of_one_multiply {right value : Literal}
    (hvalue : multiply.onLiterals (.number .one) right = some value) : value = right := by
  obtain ⟨rightNumber, rfl, hnumbers⟩ := exists_number_of_onLiterals_left hvalue
  obtain ⟨hfinite, rfl⟩ := eq_number_of_finite hnumbers
  rw [Number.one_mul_of_isFinite (Number.isFinite_of_mul hfinite).2]

theorem zero_sameValue_of_multiply_zero {left value : Literal} {right : Number}
    (hzero : right.isZero = true)
    (hvalue : multiply.onLiterals left (.number right) = some value) :
    (Literal.number .zero).SameValue value := by
  obtain ⟨leftNumber, rfl, hnumbers⟩ := exists_number_of_onLiterals_right hvalue
  obtain ⟨hfinite, rfl⟩ := eq_number_of_finite hnumbers
  rw [Literal.sameValue_number_iff]
  exact Number.sameValue_of_isZero (by decide)
    (Number.isZero_mul_of_isZero (Number.isFinite_of_mul hfinite).1 hzero)

theorem zero_sameValue_of_zero_multiply {right value : Literal} {left : Number}
    (hzero : left.isZero = true)
    (hvalue : multiply.onLiterals (.number left) right = some value) :
    (Literal.number .zero).SameValue value := by
  obtain ⟨rightNumber, rfl, hnumbers⟩ := exists_number_of_onLiterals_left hvalue
  obtain ⟨hfinite, rfl⟩ := eq_number_of_finite hnumbers
  rw [Literal.sameValue_number_iff]
  exact Number.sameValue_of_isZero (by decide)
    (Number.isZero_of_isZero_mul (Number.isFinite_of_mul hfinite).2 hzero)

theorem eq_of_divide_one {left value : Literal}
    (hvalue : divide.onLiterals left (.number .one) = some value) : value = left := by
  obtain ⟨leftNumber, rfl, hnumbers⟩ := exists_number_of_onLiterals_right hvalue
  obtain ⟨hfinite, rfl⟩ := eq_number_of_finite hnumbers
  rw [Number.isZero_one, if_neg Bool.false_ne_true] at hfinite ⊢
  rw [Number.div_one_of_isFinite (Number.isFinite_of_div hfinite)]

end BinaryOp

/-! ## The folded expression -/

namespace Expr

variable {meaning : Interpretation} {valuation : String → Option Literal}

theorem exists_literal_of_isNumber {expression : Expr} {value : Number}
    (hnumber : expression.isNumber value = true) :
    ∃ line number, expression = .literal line (.number number) ∧ number.equals value = true := by
  cases expression with
  | literal line literal =>
      cases literal with
      | number number => exact ⟨line, number, rfl, by simpa [isNumber, number?] using hnumber⟩
      | string | boolean => simp [isNumber, number?] at hnumber
  | _ => simp [isNumber, number?] at hnumber

/-- Simplifying an operation whose operands have values keeps its value. -/
theorem exists_eval_simplify (line : Nat) (operator : BinaryOp) {left right : Expr}
    {leftValue rightValue value : Literal}
    (hleft : left.eval meaning valuation = some leftValue)
    (hright : right.eval meaning valuation = some rightValue)
    (hvalue : operator.onLiterals leftValue rightValue = some value) :
    ∃ simplified, (simplify line operator left right).eval meaning valuation = some simplified ∧
      simplified.SameValue value := by
  have hkept : ∃ simplified,
      (binary line operator left right).eval meaning valuation = some simplified ∧
        simplified.SameValue value :=
    ⟨value, by simp [eval, hleft, hright, hvalue], Literal.SameValue.refl value⟩
  cases operator with
  | add =>
      simp only [simplify]
      split_ifs with hrightZero hleftZero
      · rw [Bool.and_eq_true] at hrightZero
        obtain ⟨_, number, rfl, hzero⟩ := exists_literal_of_isNumber hrightZero.1
        cases hright
        exact ⟨leftValue, hleft, BinaryOp.sameValue_of_add_zero hzero hvalue⟩
      · rw [Bool.and_eq_true] at hleftZero
        obtain ⟨_, number, rfl, hzero⟩ := exists_literal_of_isNumber hleftZero.1
        cases hleft
        exact ⟨rightValue, hright, BinaryOp.sameValue_of_zero_add hzero hvalue⟩
      · exact hkept
  | subtract =>
      simp only [simplify]
      split_ifs with hrightZero
      · obtain ⟨_, number, rfl, hzero⟩ := exists_literal_of_isNumber hrightZero
        cases hright
        exact ⟨leftValue, hleft, BinaryOp.sameValue_of_subtract_zero hzero hvalue⟩
      · exact hkept
  | multiply =>
      simp only [simplify]
      split_ifs with hrightOne hleftOne hanyZero
      · obtain ⟨_, number, rfl, hone⟩ := exists_literal_of_isNumber hrightOne
        cases hright
        cases Number.eq_one_of_equals hone
        exact ⟨leftValue, hleft, BinaryOp.eq_of_multiply_one hvalue ▸ Literal.SameValue.refl _⟩
      · obtain ⟨_, number, rfl, hone⟩ := exists_literal_of_isNumber hleftOne
        cases hleft
        cases Number.eq_one_of_equals hone
        exact ⟨rightValue, hright, BinaryOp.eq_of_one_multiply hvalue ▸ Literal.SameValue.refl _⟩
      · refine ⟨.number .zero, rfl, ?_⟩
        rcases (Bool.or_eq_true _ _).mp hanyZero with hleftZero | hrightZero
        · obtain ⟨_, number, rfl, hzero⟩ := exists_literal_of_isNumber hleftZero
          cases hleft
          exact BinaryOp.zero_sameValue_of_zero_multiply hzero hvalue
        · obtain ⟨_, number, rfl, hzero⟩ := exists_literal_of_isNumber hrightZero
          cases hright
          exact BinaryOp.zero_sameValue_of_multiply_zero hzero hvalue
      · exact hkept
  | divide =>
      simp only [simplify]
      split_ifs with hrightOne
      · obtain ⟨_, number, rfl, hone⟩ := exists_literal_of_isNumber hrightOne
        cases hright
        cases Number.eq_one_of_equals hone
        exact ⟨leftValue, hleft, BinaryOp.eq_of_divide_one hvalue ▸ Literal.SameValue.refl _⟩
      · exact hkept
  | _ => exact hkept

theorem eq_literal_of_literal? {expression : Expr} {value : Literal}
    (hliteral : expression.literal? = some value) : ∃ line, expression = .literal line value := by
  cases expression with
  | literal line literal => exact ⟨line, congrArg _ (Option.some.inj hliteral)⟩
  | _ => simp [literal?] at hliteral

/-- A literal has no value but itself. -/
theorem eq_of_literal?_of_eval {expression : Expr} {literal value : Literal}
    (hliteral : expression.literal? = some literal)
    (hvalue : expression.eval meaning valuation = some value) : literal = value := by
  obtain ⟨line, rfl⟩ := eq_literal_of_literal? hliteral
  exact Option.some.inj hvalue

/-- Folding an operation on folded operands keeps its value. -/
theorem exists_eval_foldBinary (line : Nat) (operator : BinaryOp) {left right : Expr}
    {leftValue rightValue value : Literal}
    (hleft : left.eval meaning valuation = some leftValue)
    (hright : right.eval meaning valuation = some rightValue)
    (hvalue : operator.onLiterals leftValue rightValue = some value) :
    ∃ folded,
      (match binaryConstant? operator left right with
        | some value => literal line value
        | none => simplify line operator left right).eval meaning valuation = some folded ∧
      folded.SameValue value := by
  cases hconstant : binaryConstant? operator left right with
  | none => exact exists_eval_simplify line operator hleft hright hvalue
  | some constant =>
      simp only [binaryConstant?, Option.bind_eq_some_iff] at hconstant
      obtain ⟨leftLiteral, hleftLiteral, rightLiteral, hrightLiteral, hresult⟩ := hconstant
      rw [eq_of_literal?_of_eval hleftLiteral hleft, eq_of_literal?_of_eval hrightLiteral hright,
        hvalue] at hresult
      cases hresult
      exact ⟨value, rfl, Literal.SameValue.refl value⟩

theorem exists_eval_foldUnary (line : Nat) (operator : UnaryOp) {operand : Expr}
    {operandValue value : Literal} (hoperand : operand.eval meaning valuation = some operandValue)
    (hvalue : operator.onLiteral operandValue = some value) :
    (match unaryConstant? operator operand with
      | some value => literal line value
      | none => unary line operator operand).eval meaning valuation = some value := by
  cases hconstant : unaryConstant? operator operand with
  | none => simp [eval, hoperand, hvalue]
  | some constant =>
      simp only [unaryConstant?, Option.bind_eq_some_iff] at hconstant
      obtain ⟨literal, hliteral, hresult⟩ := hconstant
      rw [eq_of_literal?_of_eval hliteral hoperand, hvalue] at hresult
      cases hresult
      rfl

theorem eval_foldTernary (line : Nat) {condition : Expr} (positive negative : Expr)
    {conditionValue : Literal} {holds : Bool}
    (hcondition : condition.eval meaning valuation = some conditionValue)
    (htruth : conditionValue.truth? = some holds) :
    (match condition.truth? with
      | some true => positive
      | some false => negative
      | none => ternary line condition positive negative).eval meaning valuation =
    (if holds then positive else negative).eval meaning valuation := by
  cases hknown : condition.truth? with
  | none => cases holds <;> simp [eval, hcondition, htruth]
  | some known =>
      simp only [truth?, Option.bind_eq_some_iff] at hknown
      obtain ⟨literal, hliteral, hresult⟩ := hknown
      rw [eq_of_literal?_of_eval hliteral hcondition, htruth] at hresult
      cases hresult
      cases holds <;> rfl

/-- If each argument keeps its value, so does the list of them. -/
theorem exists_evalAll_foldAll {arguments : List Expr} {values : List Literal}
    (hkeeps : ∀ argument ∈ arguments, ∀ value, argument.eval meaning valuation = some value →
      ∃ folded, argument.fold.eval meaning valuation = some folded ∧ folded.SameValue value)
    (hvalues : evalAll meaning valuation arguments = some values) :
    ∃ folded, evalAll meaning valuation (foldAll arguments) = some folded ∧
      folded.map Literal.unsignedZero = values.map Literal.unsignedZero := by
  induction arguments generalizing values with
  | nil => exact ⟨values, hvalues, rfl⟩
  | cons head tail ih =>
      simp only [evalAll, Option.bind_eq_some_iff, Option.some.injEq] at hvalues
      obtain ⟨headValue, hhead, tailValues, htail, rfl⟩ := hvalues
      obtain ⟨headFolded, hheadFolded, hheadSame⟩ := hkeeps head List.mem_cons_self _ hhead
      obtain ⟨tailFolded, htailFolded, htailSame⟩ :=
        ih (fun argument hargument => hkeeps argument (List.mem_cons_of_mem _ hargument)) htail
      refine ⟨headFolded :: tailFolded, by simp [foldAll, evalAll, hheadFolded, htailFolded], ?_⟩
      rw [List.map_cons, List.map_cons, htailSame, hheadSame]

/-- Folding keeps the value of every expression that has one. -/
theorem exists_eval_fold_sameValue (meaning : Interpretation)
    (valuation : String → Option Literal) (expression : Expr) (value : Literal)
    (hvalue : expression.eval meaning valuation = some value) :
    ∃ folded, expression.fold.eval meaning valuation = some folded ∧ folded.SameValue value := by
  induction expression generalizing value with
  | literal line literal => exact ⟨value, hvalue, Literal.SameValue.refl value⟩
  | name line text => exact ⟨value, hvalue, Literal.SameValue.refl value⟩
  | unary line operator operand ih =>
      simp only [eval, Option.bind_eq_some_iff] at hvalue
      obtain ⟨operandValue, hoperand, hresult⟩ := hvalue
      obtain ⟨operandFolded, hfolded, hsame⟩ := ih _ hoperand
      obtain ⟨result, hresultFolded, hresultSame⟩ :=
        operator.exists_onLiteral_of_sameValue hsame.symm hresult
      rw [fold]
      exact ⟨result, exists_eval_foldUnary line operator hfolded hresultFolded, hresultSame.symm⟩
  | binary line operator left right ihLeft ihRight =>
      simp only [eval, Option.bind_eq_some_iff] at hvalue
      obtain ⟨leftValue, hleft, rightValue, hright, hresult⟩ := hvalue
      obtain ⟨leftFolded, hleftFolded, hleftSame⟩ := ihLeft _ hleft
      obtain ⟨rightFolded, hrightFolded, hrightSame⟩ := ihRight _ hright
      obtain ⟨result, hresultFolded, hresultSame⟩ :=
        operator.exists_onLiterals_of_sameValue hleftSame.symm hrightSame.symm hresult
      obtain ⟨folded, hfolded, hsame⟩ :=
        exists_eval_foldBinary line operator hleftFolded hrightFolded hresultFolded
      rw [fold]
      exact ⟨folded, hfolded, hsame.trans hresultSame.symm⟩
  | ternary line condition positive negative ihCondition ihPositive ihNegative =>
      simp only [eval, Option.bind_eq_some_iff] at hvalue
      obtain ⟨holds, ⟨conditionValue, hcondition, htruth⟩, hresult⟩ := hvalue
      obtain ⟨conditionFolded, hconditionFolded, hsame⟩ := ihCondition _ hcondition
      have hbranch := eval_foldTernary line positive.fold negative.fold hconditionFolded
        (hsame.truth?_eq.trans htruth)
      rw [fold]
      cases holds with
      | true =>
          obtain ⟨folded, hfolded, hfoldedSame⟩ := ihPositive value hresult
          exact ⟨folded, hbranch.trans hfolded, hfoldedSame⟩
      | false =>
          obtain ⟨folded, hfolded, hfoldedSame⟩ := ihNegative value hresult
          exact ⟨folded, hbranch.trans hfolded, hfoldedSame⟩
  | call line callee arguments ihCallee ihArguments =>
      simp only [eval, Option.bind_eq_some_iff] at hvalue
      obtain ⟨calleeValue, hcallee, values, hvalues, hresult⟩ := hvalue
      obtain ⟨calleeFolded, hcalleeFolded, hcalleeSame⟩ := ihCallee _ hcallee
      obtain ⟨folded, hfolded, hsame⟩ := exists_evalAll_foldAll ihArguments hvalues
      refine ⟨value, ?_, Literal.SameValue.refl value⟩
      rw [fold, eval, hcalleeFolded, hfolded, Option.bind_some, Option.bind_some, hcalleeSame,
        hsame, hresult]
  | index line target place ihTarget ihPlace =>
      simp only [eval, Option.bind_eq_some_iff] at hvalue
      obtain ⟨targetValue, htarget, placeValue, hplace, hresult⟩ := hvalue
      obtain ⟨targetFolded, htargetFolded, htargetSame⟩ := ihTarget _ htarget
      obtain ⟨placeFolded, hplaceFolded, hplaceSame⟩ := ihPlace _ hplace
      refine ⟨value, ?_, Literal.SameValue.refl value⟩
      rw [fold, eval, htargetFolded, hplaceFolded, Option.bind_some, Option.bind_some, htargetSame,
        hplaceSame, hresult]
  | member line target field ih =>
      simp only [eval, Option.bind_eq_some_iff] at hvalue
      obtain ⟨targetValue, htarget, hresult⟩ := hvalue
      obtain ⟨targetFolded, htargetFolded, hsame⟩ := ih _ htarget
      refine ⟨value, ?_, Literal.SameValue.refl value⟩
      rw [fold, eval, htargetFolded, Option.bind_some, hsame, hresult]

/-- `f(x * 0) - 0` for an `x` of minus one and an `f` that gives its argument back: the product is
a negative zero before folding and a positive one after. -/
theorem exists_eval_fold_sameValue_negative_product :
    let meaning : Interpretation :=
      ⟨fun _ arguments => arguments.head?, fun _ _ => none, fun _ _ => none⟩
    let valuation : String → Option Literal := fun text =>
      if text = "x" then some (.number (-.one)) else some (.string text)
    let product := binary 1 .multiply (name 1 "x") (literal 1 (.number .zero))
    let expression := binary 1 .subtract (call 1 (name 1 "f") [product])
      (literal 1 (.number .zero))
    product.eval meaning valuation = some (.number (-.zero)) ∧
      expression.eval meaning valuation = some (.number .zero) ∧
      ∃ folded, expression.fold.eval meaning valuation = some folded ∧
        folded.SameValue (.number .zero) :=
  ⟨by decide +kernel, by decide +kernel,
    exists_eval_fold_sameValue _ _ _ _ (by decide +kernel)⟩

end Expr

end Tide
