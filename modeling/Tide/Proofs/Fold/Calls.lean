import Tide.Proofs.Fold.NormalForm
import Tide.Proofs.Tree.Occurrence

/-!
# Calls of folded expressions

Folding keeps the calls of an expression and their order, except for those in a part that it leaves
out.  There are two such parts: the branch that a known condition does not take, and the operands of
a product with zero.
-/

namespace Tide.Expr

def isCall : Expr → Bool
  | call _ _ _ => true
  | _ => false

/-- The calls in an expression from left to right, each before those in its callee and its
arguments. -/
def calls (expression : Expr) : List Expr := expression.subterms.filter isCall

/-! ## Calls that are left -/

mutual

/-- The calls in an expression, less those in a branch that a known condition does not take and
those in the operands of an operation that `omits` tells to leave out. -/
def callsLeft (omits : BinaryOp → (left right : Expr) → Bool) : Expr → List Expr
  | literal _ _ | name _ _ => []
  | unary _ _ operand => operand.callsLeft omits
  | binary _ operator left right =>
    if omits operator left right then [] else left.callsLeft omits ++ right.callsLeft omits
  | ternary _ condition positive negative =>
    condition.callsLeft omits ++
      condition.fold.truth?.elim (positive.callsLeft omits ++ negative.callsLeft omits) fun holds =>
        if holds then positive.callsLeft omits else negative.callsLeft omits
  | call line callee arguments =>
    call line callee arguments :: (callee.callsLeft omits ++ callsLeftAll omits arguments)
  | index _ target place => target.callsLeft omits ++ place.callsLeft omits
  | member _ target _ => target.callsLeft omits

def callsLeftAll (omits : BinaryOp → (left right : Expr) → Bool) : List Expr → List Expr
  | [] => []
  | expression :: rest => expression.callsLeft omits ++ callsLeftAll omits rest

end

/-- The operation is a product, and one of its operands is folded to zero. -/
def isZeroProduct (operator : BinaryOp) (left right : Expr) : Bool :=
  operator = .multiply && (left.fold.isNumber .zero || right.fold.isNumber .zero)

theorem callsLeftAll_eq_flatMap (omits : BinaryOp → (left right : Expr) → Bool)
    (expressions : List Expr) :
    callsLeftAll omits expressions = expressions.flatMap (callsLeft omits) := by
  induction expressions with
  | nil => rfl
  | cons head tail ih => rw [callsLeftAll, ih, List.flatMap_cons]

/-! ## Calls of each form -/

section

variable (line : Nat)

@[simp]
theorem calls_literal (value : Literal) : (literal line value).calls = [] := rfl

@[simp]
theorem calls_name (text : String) : (name line text).calls = [] := rfl

@[simp]
theorem calls_unary (operator : UnaryOp) (operand : Expr) :
    (unary line operator operand).calls = operand.calls := rfl

@[simp]
theorem calls_binary (operator : BinaryOp) (left right : Expr) :
    (binary line operator left right).calls = left.calls ++ right.calls := by
  simp [calls, subterms, isCall]

@[simp]
theorem calls_ternary (condition positive negative : Expr) :
    (ternary line condition positive negative).calls =
      condition.calls ++ (positive.calls ++ negative.calls) := by
  simp [calls, subterms, isCall]

@[simp]
theorem calls_call (callee : Expr) (arguments : List Expr) :
    (call line callee arguments).calls =
      call line callee arguments :: (callee.calls ++ arguments.flatMap calls) := by
  rw [calls, subterms, List.filter_cons_of_pos rfl, List.filter_append, subtermsAll_eq_flatMap,
    List.filter_flatMap]
  rfl

@[simp]
theorem calls_index (target place : Expr) :
    (index line target place).calls = target.calls ++ place.calls := by
  simp [calls, subterms, isCall]

@[simp]
theorem calls_member (target : Expr) (field : String) :
    (member line target field).calls = target.calls := rfl

end

theorem calls_of_literal? {expression : Expr} {value : Literal}
    (hliteral : expression.literal? = some value) : expression.calls = [] := by
  cases expression with
  | literal => rfl
  | _ => cases hliteral

theorem calls_of_isNumber {expression : Expr} {number : Number}
    (hnumber : expression.isNumber number = true) : expression.calls = [] := by
  rw [isNumber, Option.any_eq_true] at hnumber
  obtain ⟨value, hvalue, -⟩ := hnumber
  cases expression with
  | literal => rfl
  | _ => cases hvalue

/-- A condition that is known makes no call. -/
theorem calls_of_truth? {condition : Expr} {holds : Bool}
    (htruth : condition.truth? = some holds) : condition.calls = [] := by
  obtain ⟨value, hliteral, -⟩ := Option.bind_eq_some_iff.mp htruth
  exact calls_of_literal? hliteral

/-- Operands with a known value make no calls. -/
theorem calls_of_binaryConstant? {operator : BinaryOp} {left right : Expr} {value : Literal}
    (hconstant : binaryConstant? operator left right = some value) :
    left.calls = [] ∧ right.calls = [] := by
  simp only [binaryConstant?, Option.bind_eq_some_iff] at hconstant
  obtain ⟨leftValue, hleft, rightValue, hright, -⟩ := hconstant
  exact ⟨calls_of_literal? hleft, calls_of_literal? hright⟩

/-! ## One operation -/

theorem isNumber_zero_of_isNumber_one {expression : Expr}
    (hone : expression.isNumber .one = true) : expression.isNumber .zero = false := by
  simp only [isNumber, Option.any_eq_true, Option.any_eq_false, Number.equals, Bool.and_eq_true,
    beq_iff_eq] at hone ⊢
  obtain ⟨value, hvalue, -, hunits⟩ := hone
  intro other hother
  obtain rfl : value = other := Option.some.inj (hvalue.symm.trans hother)
  have hzero : Number.one.units ≠ Number.zero.units := by decide +kernel
  simp [hunits, hzero]

/-- A product with zero is folded to a number. -/
theorem calls_simplify_of_zero (line : Nat) {left right : Expr}
    (hzero : left.isNumber .zero = true ∨ right.isNumber .zero = true) :
    (simplify line .multiply left right).calls = [] := by
  simp only [simplify]
  split_ifs with hright hleft hother
  · -- The right operand is one, so the zero is the left one.
    have hnot := isNumber_zero_of_isNumber_one hright
    rw [hnot] at hzero
    exact calls_of_isNumber (hzero.resolve_right Bool.false_ne_true)
  · have hnot := isNumber_zero_of_isNumber_one hleft
    rw [hnot] at hzero
    exact calls_of_isNumber (hzero.resolve_left Bool.false_ne_true)
  · rfl
  · exact absurd (Bool.or_eq_true_iff.mpr hzero) hother

/-- Apart from products with zero, an operand that disappears makes no call. -/
theorem calls_simplify (line : Nat) {operator : BinaryOp} {left right : Expr}
    (hzero : operator = .multiply → (left.isNumber .zero || right.isNumber .zero) = false) :
    (simplify line operator left right).calls = left.calls ++ right.calls := by
  rcases simplify_cases line operator left right with
    ⟨heq, ⟨neutral, -, hright⟩, -⟩ | ⟨heq, ⟨neutral, -, hleft⟩, -⟩ | ⟨-, hproduct, hisZero⟩ | heq
  · rw [heq, calls_of_isNumber hright, List.append_nil]
  · rw [heq, calls_of_isNumber hleft, List.nil_append]
  · exact absurd hisZero (Bool.eq_false_iff.mp (hzero hproduct))
  · rw [heq, calls_binary]

/-- The calls of an operation on folded operands are those of the operands, unless the operation is
a product with zero. -/
theorem calls_fold_binary (line : Nat) (operator : BinaryOp) (left right : Expr) :
    (binary line operator left right).fold.calls =
      if isZeroProduct operator left right then [] else left.fold.calls ++ right.fold.calls := by
  rw [fold]
  split
  case h_1 value hconstant =>
    obtain ⟨hleft, hright⟩ := calls_of_binaryConstant? hconstant
    rw [hleft, hright, List.append_nil, ite_self, calls_literal]
  case h_2 =>
    by_cases hproduct : isZeroProduct operator left right = true
    · rw [if_pos hproduct]
      rw [isZeroProduct, Bool.and_eq_true, decide_eq_true_iff, Bool.or_eq_true] at hproduct
      obtain ⟨rfl, hzero⟩ := hproduct
      exact calls_simplify_of_zero line hzero
    · rw [if_neg hproduct]
      apply calls_simplify
      rintro rfl
      rw [Bool.not_eq_true] at hproduct
      exact hproduct

/-! ## Whole expressions -/

/-- What is left are calls of the expression, in their order. -/
theorem callsLeft_sublist (omits : BinaryOp → (left right : Expr) → Bool) (expression : Expr) :
    (expression.callsLeft omits).Sublist expression.calls := by
  induction expression with
  | literal | name => exact List.Sublist.refl _
  | unary line operator operand ih => exact ih
  | binary line operator left right ihLeft ihRight =>
      rw [callsLeft, calls_binary]
      split
      case isTrue => exact List.nil_sublist _
      case isFalse => exact ihLeft.append ihRight
  | ternary line condition positive negative ihCondition ihPositive ihNegative =>
      rw [callsLeft, calls_ternary]
      refine ihCondition.append ?_
      cases condition.fold.truth? with
      | none => exact ihPositive.append ihNegative
      | some holds =>
          cases holds with
          | true => exact ihPositive.trans (List.sublist_append_left ..)
          | false => exact ihNegative.trans (List.sublist_append_right ..)
  | call line callee arguments ihCallee ihArguments =>
      rw [callsLeft, calls_call, callsLeftAll_eq_flatMap]
      exact (ihCallee.append (List.Sublist.flatMap_right _ ihArguments)).cons_cons _
  | index line target place ihTarget ihPlace =>
      rw [callsLeft, calls_index]
      exact ihTarget.append ihPlace
  | member line target field ih => exact ih

theorem calls_fold (expression : Expr) :
    expression.fold.calls = (expression.callsLeft isZeroProduct).map fold := by
  induction expression with
  | literal | name => rfl
  | unary line operator operand ih =>
      rw [callsLeft, ← ih, fold]
      split
      case h_1 value hconstant =>
        obtain ⟨literal, hliteral, -⟩ := Option.bind_eq_some_iff.mp hconstant
        rw [calls_of_literal? hliteral, calls_literal]
      case h_2 => rfl
  | binary line operator left right ihLeft ihRight =>
      rw [calls_fold_binary, callsLeft]
      split
      case isTrue => rfl
      case isFalse => rw [List.map_append, ihLeft, ihRight]
  | ternary line condition positive negative ihCondition ihPositive ihNegative =>
      rw [callsLeft, List.map_append, ← ihCondition, fold]
      cases htruth : condition.fold.truth? with
      | none => simp [ihPositive, ihNegative]
      | some holds =>
          rw [calls_of_truth? htruth]
          cases holds with
          | true => exact ihPositive
          | false => exact ihNegative
  | call line callee arguments ihCallee ihArguments =>
      have harguments : (foldAll arguments).flatMap calls =
          (callsLeftAll isZeroProduct arguments).map fold := by
        rw [foldAll_eq_map, callsLeftAll_eq_flatMap, List.flatMap_map, List.map_flatMap]
        exact List.flatMap_congr ihArguments
      rw [fold, calls_call, callsLeft, List.map_cons, List.map_append, ihCallee, harguments, fold]
  | index line target place ihTarget ihPlace =>
      rw [fold, calls_index, callsLeft, List.map_append, ihTarget, ihPlace]
  | member line target field ih => exact ih

/-- Folding keeps each call, with callee and arguments folded, in its place among the others, except
for those in a branch that a known condition does not take and those in a product with zero. -/
theorem calls_fold_eq_map (expression : Expr) :
    (expression.callsLeft isZeroProduct).Sublist expression.calls ∧
      expression.fold.calls = (expression.callsLeft isZeroProduct).map fold :=
  ⟨callsLeft_sublist isZeroProduct expression, calls_fold expression⟩

/-- `f() * 0` makes a call, and the zero it is folded to makes none. -/
theorem calls_fold_ne_map_zero_product :
    let product := binary 1 .multiply (call 1 (name 1 "f") []) (literal 1 (.number .zero))
    product.callsLeft (fun _ _ _ => false) = [call 1 (name 1 "f") []] ∧
      product.fold.calls = [] ∧
      product.fold.calls ≠ (product.callsLeft fun _ _ _ => false).map fold := by
  intro product
  have hcalls : product.fold.calls = [] := by
    have hproduct : isZeroProduct .multiply (call 1 (name 1 "f") [])
        (literal 1 (.number .zero)) = true := by decide +kernel
    rw [calls_fold_binary, if_pos hproduct]
  refine ⟨rfl, hcalls, ?_⟩
  rw [hcalls]
  exact (List.cons_ne_nil _ _).symm

end Tide.Expr
