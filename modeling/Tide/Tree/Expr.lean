import Tide.Number.Basic

/-!
# Expressions

An expression is a tree of operators, calls and accesses over literals and names.  Every node has
the line it was written on.
-/

namespace Tide

inductive Literal where
  | number (value : Number)
  | string (value : String)
  | boolean (value : Bool)
  deriving DecidableEq

def Literal.isString : Literal → Bool
  | string _ => true
  | _ => false

inductive UnaryOp where
  | negate
  | complement
  deriving DecidableEq

def UnaryOp.text : UnaryOp → String
  | negate => "-"
  | complement => "!"

inductive BinaryOp where
  | logicalOr
  | logicalAnd
  | equals
  | notEquals
  | lessThan
  | greaterThan
  | lessOrEqual
  | greaterOrEqual
  | add
  | subtract
  | multiply
  | divide
  | modulus
  deriving DecidableEq

namespace BinaryOp

def text : BinaryOp → String
  | logicalOr => "||"
  | logicalAnd => "&&"
  | equals => "=="
  | notEquals => "!="
  | lessThan => "<"
  | greaterThan => ">"
  | lessOrEqual => "<="
  | greaterOrEqual => ">="
  | add => "+"
  | subtract => "-"
  | multiply => "*"
  | divide => "/"
  | modulus => "%"

def all : List BinaryOp :=
  [logicalOr, logicalAnd, equals, notEquals, lessThan, greaterThan, lessOrEqual, greaterOrEqual,
   add, subtract, multiply, divide, modulus]

def ofText? (text : String) : Option BinaryOp :=
  all.find? (·.text == text)

/-- How tightly the operator binds; a higher level binds tighter. -/
def precedence : BinaryOp → Nat
  | logicalOr => 1
  | logicalAnd => 2
  | equals | notEquals => 3
  | lessThan | greaterThan | lessOrEqual | greaterOrEqual => 4
  | add | subtract => 5
  | multiply | divide | modulus => 6

def isArithmetic : BinaryOp → Bool
  | add | subtract | multiply | divide | modulus => true
  | _ => false

def isRelational : BinaryOp → Bool
  | lessThan | greaterThan | lessOrEqual | greaterOrEqual => true
  | _ => false

end BinaryOp

inductive Expr where
  | literal (line : Nat) (value : Literal)
  /-- An identifier, or several joined by `::`. -/
  | name (line : Nat) (name : String)
  | unary (line : Nat) (operator : UnaryOp) (operand : Expr)
  | binary (line : Nat) (operator : BinaryOp) (left right : Expr)
  | ternary (line : Nat) (condition positive negative : Expr)
  | call (line : Nat) (callee : Expr) (arguments : List Expr)
  | index (line : Nat) (target index : Expr)
  | member (line : Nat) (target : Expr) (name : String)
  deriving Inhabited

namespace Expr

def line : Expr → Nat
  | literal line _ | name line _ | unary line _ _ | binary line _ _ _ | ternary line _ _ _
  | call line _ _ | index line _ _ | member line _ _ => line

def literal? : Expr → Option Literal
  | literal _ value => some value
  | _ => none

def number? : Expr → Option Number
  | literal _ (.number value) => some value
  | _ => none

/-- The operands of the left leaning `+` chain with this root: `a`, `b` and `c` for `a + b + c`.
Anything else is a chain of one. -/
def chain : Expr → List Expr
  | binary _ .add left right => left.chain ++ [right]
  | expression => [expression]

def isStringLiteral : Expr → Bool
  | literal _ value => value.isString
  | _ => false

/-- Some operand of the `+` chain is a string literal. -/
def concatenatesText (expression : Expr) : Bool :=
  expression.chain.any isStringLiteral

/-- The variable that an access like `a.b[c]` starts from. -/
def rootName : Expr → Option String
  | name _ text => some text
  | index _ target _ | member _ target _ => target.rootName
  | _ => none

/-- The name that a call goes by: that of a variable or of a member. -/
def calleeName : Expr → Option String
  | name _ text | member _ _ text => some text
  | _ => none

mutual

/-- How many nodes the tree has. -/
def size : Expr → Nat
  | literal _ _ | name _ _ => 1
  | unary _ _ operand => operand.size + 1
  | binary _ _ left right => left.size + right.size + 1
  | ternary _ condition positive negative =>
    condition.size + positive.size + negative.size + 1
  | call _ callee arguments => callee.size + sizeAll arguments + 1
  | index _ target place => target.size + place.size + 1
  | member _ target _ => target.size + 1

def sizeAll : List Expr → Nat
  | [] => 0
  | expression :: rest => expression.size + sizeAll rest

end

mutual

/-- Every node, each before its operands and these from left to right. -/
def subterms : Expr → List Expr
  | literal line value => [literal line value]
  | name line text => [name line text]
  | unary line operator operand => unary line operator operand :: operand.subterms
  | binary line operator left right =>
    binary line operator left right :: (left.subterms ++ right.subterms)
  | ternary line condition positive negative =>
    ternary line condition positive negative ::
      (condition.subterms ++ positive.subterms ++ negative.subterms)
  | call line callee arguments =>
    call line callee arguments :: (callee.subterms ++ subtermsAll arguments)
  | index line target place => index line target place :: (target.subterms ++ place.subterms)
  | member line target field => member line target field :: target.subterms

def subtermsAll : List Expr → List Expr
  | [] => []
  | expression :: rest => expression.subterms ++ subtermsAll rest

end

/-- The calls in the tree that go by a name, each with its line. -/
def namedCalls (expression : Expr) : List (Nat × String) :=
  expression.subterms.filterMap fun
    | call line callee _ => callee.calleeName.map (line, ·)
    | _ => none

end Expr

end Tide
