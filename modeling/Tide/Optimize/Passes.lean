import Tide.Optimize.Fold
import Tide.Tree.Node
import Tide.Tree.Pass

/-!
# Optimizing programs

Folding replaces constant expressions by their values.  Pruning drops what stands after a return in
the same block.  A round does one after the other, and two rounds are made.
-/

namespace Tide

/-- The statement returns. -/
def Stmt.isReturn : Stmt → Bool
  | .simple _ (.leave _) => true
  | _ => false

namespace Optimize

def folding : Pass where
  expression := Expr.fold
  printed := Expr.foldPrinted
  statements := id

/-- The statements up to the first return, with it. -/
def throughReturn : List Stmt → List Stmt
  | [] => []
  | first :: rest => if first.isReturn then [first] else first :: throughReturn rest

def pruning : Pass where
  expression := id
  printed := id
  statements := throughReturn

/-- How many expressions of an action folding replaces. -/
def actionFoldCount : Action → Nat
  | .print value => total Expr.foldPrintedCount value.toList
  | action => total Expr.foldCount action.expressions

/-- How many of its own expressions folding a statement replaces.  Those of the statements in it
count there. -/
def ownFoldCount : Stmt → Nat
  | .simple _ action => actionFoldCount action
  | .classDecl _ declaration =>
    total
      (fun
        | .field _ binding => total Expr.foldCount binding.value.toList
        | .method _ _ => 0)
      declaration.members
  | .nested _ opener _ => total Expr.foldCount opener.expressions
  | .branch _ condition _ _ => condition.foldCount
  | .switch _ scrutinee _ _ | .select _ scrutinee _ _ => scrutinee.foldCount
  | .function _ _ | .attempt _ _ _ _ => 0

/-- How many of the statements stand after a return. -/
def unreachableCount (block : Block) : Nat :=
  block.statements.length - (throughReturn block.statements).length

/-- The blocks that a statement holds directly. -/
def ownBlocks : Stmt → List Block
  | .simple _ _ => []
  | .function _ declaration => [declaration.body]
  | .classDecl _ declaration =>
    declaration.members.filterMap fun
      | .field _ _ => none
      | .method _ method => some method.body
  | .nested _ _ body => [body]
  | .branch _ _ positive _ => [positive]
  | .switch _ _ cases fallback => cases.map (·.body) ++ fallback.toList
  | .select _ _ arms fallback => arms.map (·.body) ++ fallback.toList
  | .attempt _ body _ handler => [body, handler]

end Optimize

namespace Program

/-- The program with its constant expressions folded. -/
def fold (program : Program) : Program := Optimize.folding.program program

/-- The program without the statements after a return. -/
def prune (program : Program) : Program := Optimize.pruning.program program

/-- How many expressions folding replaces. -/
def foldCount (program : Program) : Nat :=
  total Optimize.ownFoldCount program.allStatements

/-- How many statements pruning drops. -/
def pruneCount (program : Program) : Nat :=
  total Optimize.unreachableCount (program.allStatements.flatMap Optimize.ownBlocks)

/-- One round: fold, then prune. -/
def round (program : Program) : Program := program.fold.prune

/-- Two rounds, of which the second finds nothing left to do. -/
def optimize (program : Program) : Program := program.round.round

end Program

end Tide
