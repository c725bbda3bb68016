import Tide.Optimize.Fold
import Tide.Proofs.Tree.Induction

/-!
# Folded expressions

An expression is in normal form when no rule of folding applies anywhere in it.  Folding leads to a
normal form and leaves normal forms alone, so folding again changes nothing.  The same holds of what
is printed, although its chain of operands may have grown.  An operation is replaced by one of its
operands where the other is a number that changes nothing, and each operator has such a number on
one side, on both or on none.
-/

namespace Tide.BinaryOp

/-- The number that changes nothing on the right of the operator. -/
def rightNeutral? : BinaryOp → Option Number
  | add | subtract => some .zero
  | multiply | divide => some .one
  | _ => none

/-- The number that changes nothing on the left of the operator. -/
def leftNeutral? : BinaryOp → Option Number
  | add => some .zero
  | multiply => some .one
  | _ => none

end Tide.BinaryOp

namespace Tide.Expr

/-! ## Operands that change nothing -/

/-- The right operand is a number that changes nothing.  A sum with a text on the left keeps its
zero. -/
def LeavesLeft (operator : BinaryOp) (left right : Expr) : Prop :=
  (∃ neutral ∈ operator.rightNeutral?, right.isNumber neutral = true) ∧
    (operator = .add → left.concatenatesText = false)

/-- The left operand is a number that changes nothing. -/
def LeavesRight (operator : BinaryOp) (left right : Expr) : Prop :=
  (∃ neutral ∈ operator.leftNeutral?, left.isNumber neutral = true) ∧
    (operator = .add → right.concatenatesText = false)

section

variable {operator : BinaryOp} {left right : Expr}

theorem LeavesLeft.isArithmetic (hleaves : LeavesLeft operator left right) :
    operator.isArithmetic = true := by
  obtain ⟨⟨neutral, hneutral, -⟩, -⟩ := hleaves
  cases operator with
  | add | subtract | multiply | divide => rfl
  | _ => cases hneutral

theorem LeavesRight.isArithmetic (hleaves : LeavesRight operator left right) :
    operator.isArithmetic = true := by
  obtain ⟨⟨neutral, hneutral, -⟩, -⟩ := hleaves
  cases operator with
  | add | multiply => rfl
  | _ => cases hneutral

theorem LeavesLeft.simplify_eq (line : Nat) (hleaves : LeavesLeft operator left right) :
    simplify line operator left right = left := by
  obtain ⟨⟨neutral, hneutral, hright⟩, htext⟩ := hleaves
  cases operator with
  | add =>
      cases hneutral
      simp [simplify, hright, htext]
  | subtract | multiply | divide =>
      cases hneutral
      simp [simplify, hright]
  | _ => cases hneutral

/-- What is on the right goes first if it is such a number too. -/
theorem LeavesRight.simplify_eq (line : Nat) (hleaves : LeavesRight operator left right)
    (hright : ∀ number, right.isNumber number = false) :
    simplify line operator left right = right := by
  obtain ⟨⟨neutral, hneutral, hleft⟩, htext⟩ := hleaves
  cases operator with
  | add =>
      cases hneutral
      simp [simplify, hleft, hright, htext]
  | multiply =>
      cases hneutral
      simp [simplify, hleft, hright]
  | _ => cases hneutral

end

/-- Simplifying gives one operand where the other changes nothing, a zero for a product with zero,
or the operation as it stands. -/
theorem simplify_cases (line : Nat) (operator : BinaryOp) (left right : Expr) :
    (simplify line operator left right = left ∧ LeavesLeft operator left right) ∨
    (simplify line operator left right = right ∧ LeavesRight operator left right) ∨
    (simplify line operator left right = .literal line (.number .zero) ∧ operator = .multiply ∧
      (left.isNumber .zero || right.isNumber .zero) = true) ∨
    simplify line operator left right = .binary line operator left right := by
  cases operator with
  | add =>
      simp only [simplify]
      split_ifs with hright hleft
      · rw [Bool.and_eq_true, Bool.not_eq_true'] at hright
        exact .inl ⟨rfl, ⟨.zero, rfl, hright.1⟩, fun _ => hright.2⟩
      · rw [Bool.and_eq_true, Bool.not_eq_true'] at hleft
        exact .inr (.inl ⟨rfl, ⟨.zero, rfl, hleft.1⟩, fun _ => hleft.2⟩)
      · exact .inr (.inr (.inr rfl))
  | subtract | divide =>
      simp only [simplify]
      split_ifs with hright
      · exact .inl ⟨rfl, ⟨_, rfl, hright⟩, nofun⟩
      · exact .inr (.inr (.inr rfl))
  | multiply =>
      simp only [simplify]
      split_ifs with hright hleft hzero
      · exact .inl ⟨rfl, ⟨.one, rfl, hright⟩, nofun⟩
      · exact .inr (.inl ⟨rfl, ⟨.one, rfl, hleft⟩, nofun⟩)
      · exact .inr (.inr (.inl ⟨rfl, trivial, hzero⟩))
      · exact .inr (.inr (.inr rfl))
  | _ => exact .inr (.inr (.inr rfl))

/-! ## Normal forms -/

/-- No operator in the expression has a known value, no condition is known, and no operation is one
that changes nothing. -/
inductive IsNormal : Expr → Prop
  | literal (line : Nat) (value : Literal) : IsNormal (.literal line value)
  | name (line : Nat) (text : String) : IsNormal (.name line text)
  | unary (line : Nat) {operator : UnaryOp} {operand : Expr} (hoperand : IsNormal operand)
      (hconstant : unaryConstant? operator operand = none) :
      IsNormal (.unary line operator operand)
  | binary {line : Nat} {operator : BinaryOp} {left right : Expr} (hleft : IsNormal left)
      (hright : IsNormal right) (hconstant : binaryConstant? operator left right = none)
      (hsimplify : simplify line operator left right = .binary line operator left right) :
      IsNormal (.binary line operator left right)
  | ternary (line : Nat) {condition positive negative : Expr} (hcondition : IsNormal condition)
      (hpositive : IsNormal positive) (hnegative : IsNormal negative)
      (htruth : condition.truth? = none) : IsNormal (.ternary line condition positive negative)
  | call (line : Nat) {callee : Expr} {arguments : List Expr} (hcallee : IsNormal callee)
      (harguments : ∀ argument ∈ arguments, IsNormal argument) :
      IsNormal (.call line callee arguments)
  | index (line : Nat) {target place : Expr} (htarget : IsNormal target)
      (hplace : IsNormal place) : IsNormal (.index line target place)
  | member (line : Nat) {target : Expr} (field : String) (htarget : IsNormal target) :
      IsNormal (.member line target field)

theorem foldAll_eq_map (expressions : List Expr) : foldAll expressions = expressions.map fold := by
  induction expressions with
  | nil => rfl
  | cons head tail ih => rw [foldAll, ih, List.map_cons]

/-- Simplifying operands in normal form that have no known value gives a normal form. -/
theorem IsNormal.simplify (line : Nat) {operator : BinaryOp} {left right : Expr}
    (hleft : IsNormal left) (hright : IsNormal right)
    (hconstant : binaryConstant? operator left right = none) :
    IsNormal (simplify line operator left right) := by
  rcases simplify_cases line operator left right with ⟨heq, -⟩ | ⟨heq, -⟩ | ⟨heq, -⟩ | heq
  · rw [heq]
    exact hleft
  · rw [heq]
    exact hright
  · rw [heq]
    exact IsNormal.literal line _
  · rw [heq]
    exact IsNormal.binary hleft hright hconstant heq

theorem isNormal_fold (expression : Expr) : IsNormal expression.fold := by
  induction expression with
  | literal line value => exact IsNormal.literal line value
  | name line text => exact IsNormal.name line text
  | unary line operator operand ih =>
      rw [fold]
      split
      case h_1 value hconstant => exact IsNormal.literal line value
      case h_2 hconstant => exact IsNormal.unary line ih hconstant
  | binary line operator left right ihLeft ihRight =>
      rw [fold]
      split
      case h_1 value hconstant => exact IsNormal.literal line value
      case h_2 hconstant => exact ihLeft.simplify line ihRight hconstant
  | ternary line condition positive negative ihCondition ihPositive ihNegative =>
      rw [fold]
      split
      case h_1 => exact ihPositive
      case h_2 => exact ihNegative
      case h_3 htruth => exact IsNormal.ternary line ihCondition ihPositive ihNegative htruth
  | call line callee arguments ihCallee ihArguments =>
      rw [fold, foldAll_eq_map]
      apply IsNormal.call line ihCallee
      intro argument hargument
      obtain ⟨original, horiginal, rfl⟩ := List.mem_map.mp hargument
      exact ihArguments original horiginal
  | index line target place ihTarget ihPlace => exact IsNormal.index line ihTarget ihPlace
  | member line target field ih => exact IsNormal.member line field ih

theorem IsNormal.fold_eq {expression : Expr} (hnormal : IsNormal expression) :
    expression.fold = expression := by
  induction hnormal with
  | literal | name => rfl
  | unary line hoperand hconstant ih => rw [fold, ih, hconstant]
  | binary hleft hright hconstant hsimplify ihLeft ihRight =>
      rw [fold, ihLeft, ihRight, hconstant]
      exact hsimplify
  | ternary line hcondition hpositive hnegative htruth ihCondition ihPositive ihNegative =>
      rw [fold, ihCondition, ihPositive, ihNegative, htruth]
  | call line hcallee harguments ihCallee ihArguments =>
      rw [fold, ihCallee, foldAll_eq_map, List.map_congr_left ihArguments, List.map_id']
  | index line htarget hplace ihTarget ihPlace => rw [fold, ihTarget, ihPlace]
  | member line field htarget ih => rw [fold, ih]

/-- Folding an expression again changes nothing. -/
theorem fold_fold (expression : Expr) : expression.fold.fold = expression.fold :=
  (isNormal_fold expression).fold_eq

/-! ## What is printed -/

/-- The leftmost operand of the `+` chain with this root. -/
def chainHead : Expr → Expr
  | binary _ .add left _ => left.chainHead
  | expression => expression

/-- The operands of the `+` chain with this root after the leftmost one. -/
def chainTail : Expr → List Expr
  | binary _ .add left right => left.chainTail ++ [right]
  | _ => []

theorem chain_eq_cons (expression : Expr) :
    expression.chain = expression.chainHead :: expression.chainTail := by
  fun_induction chain expression with
  | case1 line left right ih => rw [ih, chainHead, chainTail, List.cons_append]
  | case2 expression hother => simp [chainHead, chainTail]

/-- Folding the operands of a chain one by one lets it grow on the left only, by the chain that its
leftmost operand folds to. -/
theorem chain_foldChain (expression : Expr) :
    expression.foldChain.chain =
      expression.chainHead.fold.chain ++ expression.chainTail.map fold := by
  fun_induction foldChain expression with
  | case1 line left right ih =>
      rw [chain, ih, chainHead, chainTail, List.map_append, List.append_assoc]
      rfl
  | case2 expression hother => simp [chainHead, chainTail]

theorem fold_of_isStringLiteral {expression : Expr} (hstring : expression.isStringLiteral = true) :
    expression.fold = expression := by
  cases expression with
  | literal line value => rfl
  | _ => simp [isStringLiteral] at hstring

/-- A text stays a text when its operands are folded. -/
theorem concatenatesText_foldChain {expression : Expr}
    (htext : expression.concatenatesText = true) :
    expression.foldChain.concatenatesText = true := by
  rw [concatenatesText, List.any_eq_true] at htext ⊢
  obtain ⟨operand, hoperand, hstring⟩ := htext
  refine ⟨operand, ?_, hstring⟩
  have hfold := fold_of_isStringLiteral hstring
  rw [chain_foldChain, List.mem_append]
  rw [chain_eq_cons, List.mem_cons] at hoperand
  rcases hoperand with rfl | hoperand
  · left
    rw [hfold]
    cases hhead : expression.chainHead with
    | literal line value => exact List.mem_singleton_self _
    | _ => simp [hhead, isStringLiteral] at hstring
  · right
    exact List.mem_map.mpr ⟨operand, hoperand, hfold⟩

theorem IsNormal.foldChain_eq {expression : Expr} (hnormal : IsNormal expression) :
    expression.foldChain = expression := by
  fun_induction foldChain expression with
  | case1 line left right ih =>
      cases hnormal with
      | binary hleft hright => rw [ih hleft, hright.fold_eq]
  | case2 expression hother => exact hnormal.fold_eq

theorem foldChain_foldChain (expression : Expr) :
    expression.foldChain.foldChain = expression.foldChain := by
  fun_induction foldChain expression with
  | case1 line left right ih => rw [foldChain, ih, fold_fold]
  | case2 expression hother => exact (isNormal_fold expression).foldChain_eq

/-- Folding what is printed again changes nothing, also when the first time has made it a text. -/
theorem foldPrinted_foldPrinted (value : Expr) :
    value.foldPrinted.foldPrinted = value.foldPrinted := by
  by_cases htext : value.concatenatesText = true
  · have hfolded : value.foldPrinted = value.foldChain := if_pos htext
    rw [hfolded, foldPrinted, if_pos (concatenatesText_foldChain htext), foldChain_foldChain]
  · have hfolded : value.foldPrinted = value.fold := if_neg htext
    rw [hfolded, foldPrinted, (isNormal_fold value).foldChain_eq, fold_fold, ite_self]

end Tide.Expr
