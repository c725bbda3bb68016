import Tide.Analysis.Finding

/-!
# Checks against value classes

Both checks walk the program in the same way and keep the same environment: a block, a function and
a class open a scope each, and statements bind names as they go.  They differ in what they look at.
-/

namespace Tide

/-- What to look at on the way, in the environment before it. -/
structure ClassCheck where
  expression : Environment → Expr → List Diagnostic
  action : Environment → (line : Nat) → Action → List Diagnostic

namespace ClassCheck

mutual

/-- The environment after a statement, and the findings in it. -/
def stmt (check : ClassCheck) (environment : Environment) :
    Stmt → Environment × List Diagnostic
  | .simple line action => (environment.afterAction action, check.action environment line action)
  | .function _ declaration => check.function environment declaration
  | .classDecl _ ⟨_, _, _, _, classMembers⟩ =>
    let (inside, found) := check.members environment.push classMembers
    (inside.leave, found)
  | .nested _ opener body =>
    let head := opener.expressions.flatMap (check.expression environment)
    let (after, found) := check.block environment body
    (after, head ++ found)
  | .branch _ condition positive negative =>
    let head := check.expression environment condition
    let (afterPositive, foundPositive) := check.block environment positive
    let (after, foundNegative) := check.negative afterPositive negative
    (after, head ++ foundPositive ++ foundNegative)
  | .switch _ scrutinee clauses fallback =>
    let head := check.expression environment scrutinee
    let (afterCases, foundCases) := check.cases environment clauses
    let (after, foundFallback) := check.fallback afterCases fallback
    (after, head ++ foundCases ++ foundFallback)
  | .select _ scrutinee clauses fallback =>
    let head := check.expression environment scrutinee
    let (afterArms, foundArms) := check.arms environment clauses
    let (after, foundFallback) := check.fallback afterArms fallback
    (after, head ++ foundArms ++ foundFallback)
  | .attempt _ body _ handler =>
    let (afterBody, foundBody) := check.block environment body
    let (after, foundHandler) := check.block afterBody handler
    (after, foundBody ++ foundHandler)

def stmts (check : ClassCheck) (environment : Environment) :
    List Stmt → Environment × List Diagnostic
  | [] => (environment, [])
  | first :: rest =>
    let (afterFirst, foundFirst) := check.stmt environment first
    let (after, foundRest) := check.stmts afterFirst rest
    (after, foundFirst ++ foundRest)

def block (check : ClassCheck) (environment : Environment) :
    Block → Environment × List Diagnostic
  | ⟨_, statements⟩ =>
    let (inside, found) := check.stmts environment.push statements
    (inside.leave, found)

def function (check : ClassCheck) (environment : Environment) :
    FunctionDecl → Environment × List Diagnostic
  | ⟨line, flavor, name, parameters, result, overlays, body⟩ =>
    let declaration : FunctionDecl := ⟨line, flavor, name, parameters, result, overlays, body⟩
    let (inside, found) :=
      check.block (Environment.bindParameters environment.push declaration) body
    (inside.leave, found)

def members (check : ClassCheck) (environment : Environment) :
    List ClassMember → Environment × List Diagnostic
  | [] => (environment, [])
  | .field _ binding :: rest =>
    let head := binding.value.toList.flatMap (check.expression environment)
    let (after, found) := check.members (environment.bindLocal binding) rest
    (after, head ++ found)
  | .method _ declaration :: rest =>
    let (afterMethod, foundMethod) := check.function environment declaration
    let (after, foundRest) := check.members afterMethod rest
    (after, foundMethod ++ foundRest)

def negative (check : ClassCheck) (environment : Environment) :
    Option Stmt → Environment × List Diagnostic
  | none => (environment, [])
  | some statement => check.stmt environment statement

def cases (check : ClassCheck) (environment : Environment) :
    List SwitchCase → Environment × List Diagnostic
  | [] => (environment, [])
  | ⟨_, body⟩ :: rest =>
    let (afterFirst, foundFirst) := check.block environment body
    let (after, foundRest) := check.cases afterFirst rest
    (after, foundFirst ++ foundRest)

def arms (check : ClassCheck) (environment : Environment) :
    List MatchArm → Environment × List Diagnostic
  | [] => (environment, [])
  | ⟨_, body⟩ :: rest =>
    let (afterFirst, foundFirst) := check.block environment body
    let (after, foundRest) := check.arms afterFirst rest
    (after, foundFirst ++ foundRest)

def fallback (check : ClassCheck) (environment : Environment) :
    Option Block → Environment × List Diagnostic
  | none => (environment, [])
  | some body => check.block environment body

end

/-- The findings of a check in a whole program. -/
def run (check : ClassCheck) (program : Program) : List Diagnostic :=
  (check.stmts .empty program).2

end ClassCheck

namespace Analysis

/-- A text that is negated. -/
def negatedText (environment : Environment) : Expr → List Diagnostic
  | .unary line .negate operand =>
    if environment.infer operand = .string then [⟨line, .negatedText⟩] else []
  | _ => []

/-- A text that is taken into a variable by an operator that works on numbers. -/
def textOperand (environment : Environment) (line : Nat) : Action → List Diagnostic
  | .assign _ operator value =>
    match operator with
    | .subtract | .multiply | .divide | .modulus =>
      if environment.infer value = .string then [⟨line, .textOperand operator⟩] else []
    | .assign | .add => []
  | _ => []

/-- Warns where a text stands in for a number. -/
def inference : ClassCheck where
  expression environment expression := expression.subterms.flatMap (negatedText environment)
  action environment line action :=
    textOperand environment line action
      ++ action.expressions.flatMap fun expression =>
        expression.subterms.flatMap (negatedText environment)

/-- A sum takes two numbers or two texts, other arithmetic and order take two numbers, and the rest
takes anything. -/
def accepts (operator : BinaryOp) (left right : ValueClass) : Bool :=
  match operator with
  | .add => left.bothOrUnknown right .number || left.bothOrUnknown right .string
  | operator =>
    if operator.isArithmetic || operator.isRelational then
      left.bothOrUnknown right .number
    else true

/-- An operator whose operands have the wrong classes. -/
def wrongOperands (environment : Environment) : Expr → List Diagnostic
  | .binary line operator left right =>
    let leftClass := environment.infer left
    let rightClass := environment.infer right
    if accepts operator leftClass rightClass then []
    else [⟨line, .operands operator leftClass rightClass⟩]
  | _ => []

def wrongOperandsIn (environment : Environment) (expression : Expr) : List Diagnostic :=
  expression.subterms.flatMap (wrongOperands environment)

/-- Checks operators against the classes of their operands.  A printed text is written operand by
operand, so of its chain only the operands are checked. -/
def operators : ClassCheck where
  expression := wrongOperandsIn
  action environment _ action :=
    match action with
    | .print (some value) =>
      if value.concatenatesText then value.chain.flatMap (wrongOperandsIn environment)
      else wrongOperandsIn environment value
    | action => action.expressions.flatMap (wrongOperandsIn environment)

end Analysis

end Tide
