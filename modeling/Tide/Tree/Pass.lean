import Tide.Tree.Stmt

/-!
# Passes over the tree

A pass over the tree says what becomes of an expression, of what is printed, and of the statements
of a block once the pass is through with each of them.  Everything else stays in place.
-/

namespace Tide

structure Pass where
  expression : Expr → Expr
  /-- The expression of a print statement. -/
  printed : Expr → Expr
  /-- The statements of a block, after each of them. -/
  statements : List Stmt → List Stmt

namespace Pass

def binding (pass : Pass) (binding : Local) : Local :=
  { binding with value := binding.value.map pass.expression }

def action (pass : Pass) : Action → Action
  | .declare binding => .declare (pass.binding binding)
  | .assign target operator value =>
    .assign (pass.expression target) operator (pass.expression value)
  | .step target operator => .step (pass.expression target) operator
  | .mutate target value => .mutate (pass.expression target) (pass.expression value)
  | .leave value => .leave (value.map pass.expression)
  | .raise value => .raise (pass.expression value)
  | .evaluate value => .evaluate (pass.expression value)
  | .print value => .print (value.map pass.printed)
  | .readInto path name => .readInto (pass.expression path) name
  | .writeOut path value mode =>
    .writeOut (pass.expression path) (pass.expression value) mode
  | .send channel value => .send channel (pass.expression value)
  | .scale name fromLow fromHigh toLow toHigh =>
    .scale name (pass.expression fromLow) (pass.expression fromHigh)
      (pass.expression toLow) (pass.expression toHigh)
  | .bounds name low high => .bounds name (pass.expression low) (pass.expression high)
  | .duration name amount unit => .duration name (pass.expression amount) unit
  | .derivative name body argument => .derivative name (pass.expression body) argument
  | .directive overlays => .directive overlays
  | .breakLoop => .breakLoop
  | .continueLoop => .continueLoop
  | .input name => .input name
  | .channel name element => .channel name element
  | .receive channel name => .receive channel name
  | .sync => .sync
  | .checkpoint label => .checkpoint label
  | .splice text => .splice text
  | .unknown kind text => .unknown kind text

def opener (pass : Pass) : Opener → Opener
  | .whileLoop condition => .whileLoop (pass.expression condition)
  | .schedule priority => .schedule (pass.expression priority)
  | .block => .block
  | .pureRegion => .pureRegion
  | .forLoop header => .forLoop header

mutual

def stmt (pass : Pass) : Stmt → Stmt
  | .simple line action => .simple line (pass.action action)
  | .function line declaration => .function line (pass.function declaration)
  | .classDecl line ⟨classLine, kind, name, bases, members⟩ =>
    .classDecl line ⟨classLine, kind, name, bases, pass.members members⟩
  | .nested line opener body => .nested line (pass.opener opener) (pass.block body)
  | .branch line condition positive negative =>
    .branch line (pass.expression condition) (pass.block positive)
      (pass.negative negative)
  | .switch line scrutinee cases fallback =>
    .switch line (pass.expression scrutinee) (pass.cases cases) (pass.fallback fallback)
  | .select line scrutinee arms fallback =>
    .select line (pass.expression scrutinee) (pass.arms arms) (pass.fallback fallback)
  | .attempt line body binding handler =>
    .attempt line (pass.block body) binding (pass.block handler)

def stmts (pass : Pass) : List Stmt → List Stmt
  | [] => []
  | first :: rest => pass.stmt first :: pass.stmts rest

def block (pass : Pass) : Block → Block
  | ⟨line, statements⟩ => ⟨line, pass.statements (pass.stmts statements)⟩

def function (pass : Pass) : FunctionDecl → FunctionDecl
  | ⟨line, flavor, name, parameters, result, overlays, body⟩ =>
    ⟨line, flavor, name, parameters, result, overlays, pass.block body⟩

def members (pass : Pass) : List ClassMember → List ClassMember
  | [] => []
  | .field access binding :: rest =>
    .field access (pass.binding binding) :: pass.members rest
  | .method access declaration :: rest =>
    .method access (pass.function declaration) :: pass.members rest

def negative (pass : Pass) : Option Stmt → Option Stmt
  | none => none
  | some statement => some (pass.stmt statement)

def cases (pass : Pass) : List SwitchCase → List SwitchCase
  | [] => []
  | ⟨label, body⟩ :: rest => ⟨label, pass.block body⟩ :: pass.cases rest

def arms (pass : Pass) : List MatchArm → List MatchArm
  | [] => []
  | ⟨patterns, body⟩ :: rest => ⟨patterns, pass.block body⟩ :: pass.arms rest

def fallback (pass : Pass) : Option Block → Option Block
  | none => none
  | some body => some (pass.block body)

end

/-- The statements at top level form no block. -/
def program (pass : Pass) (program : Program) : Program :=
  pass.stmts program

end Pass

end Tide
