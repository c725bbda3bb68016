import Tide.Number.Rounding
import Tide.Tree.Expr

/-!
# Constant folding

Operators on literals are replaced by their value, bottom up, and operations that change nothing by
their operand.  A number that would not be finite is left to be computed when the program runs.
-/

namespace Tide

/-- The value of an operator on two numbers.  Division by zero gives zero. -/
def BinaryOp.onNumbers (operator : BinaryOp) (left right : Number) : Option Literal :=
  let finite (value : Number) : Option Literal :=
    if value.isFinite then some (.number value) else none
  match operator with
  | .add => finite (left + right)
  | .subtract => finite (left - right)
  | .multiply => finite (left * right)
  | .divide => finite (if right.isZero then .zero else left / right)
  | .modulus => finite (if right.isZero then .zero else left % right)
  | .lessThan => some (.boolean (left.lessThan right))
  | .greaterThan => some (.boolean (right.lessThan left))
  | .lessOrEqual => some (.boolean (left.atMost right))
  | .greaterOrEqual => some (.boolean (right.atMost left))
  | .equals => some (.boolean (left.equals right))
  | .notEquals => some (.boolean (!left.equals right))
  | .logicalAnd | .logicalOr => none

/-- The value of an operator on two literals, where it has one. -/
def BinaryOp.onLiterals (operator : BinaryOp) : Literal → Literal → Option Literal
  | .number left, .number right => operator.onNumbers left right
  | .string left, .string right =>
    match operator with
    | .add => some (.string (left ++ right))
    | .equals => some (.boolean (left == right))
    | .notEquals => some (.boolean (left != right))
    | _ => none
  | .boolean left, .boolean right =>
    match operator with
    | .logicalAnd => some (.boolean (left && right))
    | .logicalOr => some (.boolean (left || right))
    | _ => none
  | _, _ => none

/-- The value of an operator on a literal, where it has one. -/
def UnaryOp.onLiteral : UnaryOp → Literal → Option Literal
  | .negate, .number value => some (.number (-value))
  | .complement, .boolean value => some (.boolean (!value))
  | _, _ => none

/-- The branch that a condition takes: numbers other than zero hold. -/
def Literal.truth? : Literal → Option Bool
  | .number value => some (!value.isZero)
  | .boolean value => some value
  | .string _ => none

namespace Expr

/-- The expression is a number literal equal to `value`. -/
def isNumber (expression : Expr) (value : Number) : Bool :=
  expression.number?.any (·.equals value)

/-- An operation that changes nothing is its operand, and a product with zero is zero.  Sums with
zero are kept when the other operand is text, where the zero is appended. -/
def simplify (line : Nat) (operator : BinaryOp) (left right : Expr) : Expr :=
  let kept := binary line operator left right
  match operator with
  | .add =>
    if right.isNumber .zero && !left.concatenatesText then left
    else if left.isNumber .zero && !right.concatenatesText then right
    else kept
  | .subtract => if right.isNumber .zero then left else kept
  | .multiply =>
    if right.isNumber .one then left
    else if left.isNumber .one then right
    else if left.isNumber .zero || right.isNumber .zero then literal line (.number .zero)
    else kept
  | .divide => if right.isNumber .one then left else kept
  | _ => kept

/-- The value of a unary operator on a folded operand, if it is a literal. -/
def unaryConstant? (operator : UnaryOp) (operand : Expr) : Option Literal :=
  operand.literal?.bind operator.onLiteral

/-- The value of a binary operator on folded operands, if it is a literal. -/
def binaryConstant? (operator : BinaryOp) (left right : Expr) : Option Literal :=
  left.literal?.bind fun leftValue =>
    right.literal?.bind fun rightValue => operator.onLiterals leftValue rightValue

/-- The branch that a folded condition takes, if it is known. -/
def truth? (condition : Expr) : Option Bool :=
  condition.literal?.bind Literal.truth?

mutual

/-- The expression with its constant parts replaced by their values. -/
def fold : Expr → Expr
  | literal line value => literal line value
  | name line text => name line text
  | unary line operator operand =>
    match unaryConstant? operator operand.fold with
    | some value => literal line value
    | none => unary line operator operand.fold
  | binary line operator left right =>
    match binaryConstant? operator left.fold right.fold with
    | some value => literal line value
    | none => simplify line operator left.fold right.fold
  | ternary line condition positive negative =>
    match condition.fold.truth? with
    | some true => positive.fold
    | some false => negative.fold
    | none => ternary line condition.fold positive.fold negative.fold
  | call line callee arguments => call line callee.fold (foldAll arguments)
  | index line target place => index line target.fold place.fold
  | member line target field => member line target.fold field

def foldAll : List Expr → List Expr
  | [] => []
  | expression :: rest => expression.fold :: foldAll rest

end

mutual

/-- How many nodes folding replaces by a value or a branch. -/
def foldCount : Expr → Nat
  | literal _ _ | name _ _ => 0
  | unary _ operator operand =>
    operand.foldCount + (unaryConstant? operator operand.fold).isSome.toNat
  | binary _ operator left right =>
    left.foldCount + right.foldCount
      + (binaryConstant? operator left.fold right.fold).isSome.toNat
  | ternary _ condition positive negative =>
    condition.foldCount + positive.foldCount + negative.foldCount
      + condition.fold.truth?.isSome.toNat
  | call _ callee arguments => callee.foldCount + foldCountAll arguments
  | index _ target place => target.foldCount + place.foldCount
  | member _ target _ => target.foldCount

def foldCountAll : List Expr → Nat
  | [] => 0
  | expression :: rest => expression.foldCount + foldCountAll rest

end

/-- The chain of a printed text with its operands folded one by one. -/
def foldChain : Expr → Expr
  | binary line .add left right => binary line .add left.foldChain right.fold
  | expression => expression.fold

def foldChainCount : Expr → Nat
  | binary _ .add left right => left.foldChainCount + right.foldCount
  | expression => expression.foldCount

/-- What is printed, folded.  The operands of a text are printed one after the other, so the chain
itself stays. -/
def foldPrinted (expression : Expr) : Expr :=
  if expression.concatenatesText then expression.foldChain else expression.fold

def foldPrintedCount (expression : Expr) : Nat :=
  if expression.concatenatesText then expression.foldChainCount else expression.foldCount

end Expr

end Tide
