import Tide.Proofs.Fold.Printing
import Tide.Proofs.Optimize.Pruning

/-!
# What folding leaves in place

Folding replaces expressions and nothing else.  Every statement stays where it is with all its other
parts, an assignment still goes to the same variable, and no expression grows.  So a program has as
many statements after folding as before and no more expressions, and optimizing makes neither more.
-/

namespace Tide

/-! ## Folded expressions -/

namespace Expr

/-- What is assigned to keeps the variable it starts from. -/
theorem rootName_fold {expression : Expr} {name : String}
    (hroot : expression.rootName = some name) : expression.fold.rootName = some name := by
  induction expression with
  | name line text => exact hroot
  | index line target place ihTarget ihPlace => exact ihTarget hroot
  | member line target field ih => exact ih hroot
  | literal | unary | binary | ternary | call => cases hroot

theorem sizeAll_eq_sum (expressions : List Expr) :
    sizeAll expressions = (expressions.map size).sum := by
  induction expressions with
  | nil => rfl
  | cons head tail ih => rw [sizeAll, ih, List.map_cons, List.sum_cons]

theorem size_simplify_le (line : Nat) (operator : BinaryOp) (left right : Expr) :
    (simplify line operator left right).size ≤ left.size + right.size + 1 := by
  rcases simplify_cases line operator left right with ⟨heq, -⟩ | ⟨heq, -⟩ | ⟨heq, -⟩ | heq
  · rw [heq]
    omega
  · rw [heq]
    omega
  · rw [heq, size]
    omega
  · rw [heq, size]

/-- A fold keeps a part, puts a literal in its place, or keeps its form. -/
theorem size_fold_le (expression : Expr) : expression.fold.size ≤ expression.size := by
  induction expression with
  | literal | name => exact le_rfl
  | unary line operator operand ih =>
      rw [fold, size]
      split
      · rw [size]
        omega
      · rw [size]
        omega
  | binary line operator left right ihLeft ihRight =>
      rw [fold, size]
      split
      · rw [size]
        omega
      · have hsimplify := size_simplify_le line operator left.fold right.fold
        omega
  | ternary line condition positive negative ihCondition ihPositive ihNegative =>
      rw [fold, size]
      split
      · omega
      · omega
      · rw [size]
        omega
  | call line callee arguments ihCallee ihArguments =>
      have hsum : ((arguments.map fold).map size).sum ≤ (arguments.map size).sum := by
        rw [List.map_map]
        exact List.sum_le_sum ihArguments
      rw [fold, size, size, foldAll_eq_map, sizeAll_eq_sum, sizeAll_eq_sum]
      omega
  | index line target place ihTarget ihPlace =>
      rw [fold, size, size]
      omega
  | member line target field ih =>
      rw [fold, size, size]
      omega

theorem size_foldChain_le (expression : Expr) : expression.foldChain.size ≤ expression.size := by
  fun_induction foldChain expression with
  | case1 line left right ih =>
      have hright := size_fold_le right
      rw [size, size]
      omega
  | case2 expression hother => exact size_fold_le expression

theorem size_foldPrinted_le (expression : Expr) :
    expression.foldPrinted.size ≤ expression.size := by
  rw [foldPrinted]
  split
  · exact size_foldChain_le expression
  · exact size_fold_le expression

/-- The second expression is the `+` chain of the first with each operand folded on its own. -/
inductive OperandsFolded : Expr → Expr → Prop
  | operand {expression} (hsum : expression.isSum = false) :
      OperandsFolded expression expression.fold
  | sum {line left left' right} (hleft : OperandsFolded left left') :
      OperandsFolded (.binary line .add left right) (.binary line .add left' right.fold)

theorem operandsFolded_foldChain (expression : Expr) :
    OperandsFolded expression expression.foldChain := by
  fun_induction foldChain expression with
  | case1 line left right ih => exact .sum ih
  | case2 expression hother =>
      apply OperandsFolded.operand
      fun_cases isSum expression with
      | case1 line left right => exact absurd rfl (hother line left right)
      | case2 expression => rfl

theorem operandsFolded_iff {before after : Expr} :
    OperandsFolded before after ↔ after = before.foldChain := by
  constructor
  · intro hfolded
    induction hfolded with
    | @operand expression hsum =>
        fun_cases foldChain expression with
        | case1 line left right => cases hsum
        | case2 expression hother => rfl
    | sum hleft ih => rw [foldChain, ih]
  · rintro rfl
    exact operandsFolded_foldChain before

end Expr

/-! ## Passes under which nothing grows -/

theorem total_eq_sum {Item : Type} (size : Item → Nat) (items : List Item) :
    total size items = (items.map size).sum := by
  induction items with
  | nil => rfl
  | cons head tail ih => rw [total, ih, List.map_cons, List.sum_cons]

/-- How many expressions a statement has itself, with their parts and those of its fields. -/
def Stmt.expressionCount (statement : Stmt) : Nat :=
  (statement.allExpressions.map Expr.size).sum

theorem Program.counts_expressions (program : Program) :
    program.counts.expressions = (program.allStatements.map Stmt.expressionCount).sum := by
  have hperm : (program.nodes.filterMap Node.expression?).Perm
      (program.allStatements.flatMap Stmt.allExpressions) :=
    program.expressions_perm.trans (List.flatMap_append_perm ..)
  calc program.counts.expressions
    _ = ((program.nodes.filterMap Node.expression?).map Expr.size).sum := total_eq_sum _ _
    _ = ((program.allStatements.flatMap Stmt.allExpressions).map Expr.size).sum :=
      (hperm.map Expr.size).sum_eq
    _ = (program.allStatements.map Stmt.expressionCount).sum := by
      rw [List.map_flatMap, List.flatMap_def, List.sum_flatten, List.map_map]
      rfl

namespace Pass

/-- The pass keeps some statements of a block in their order and makes no expression larger. -/
structure NeverGrows (pass : Pass) : Prop where
  statements : ∀ statements, (pass.statements statements).Sublist statements
  expression : ∀ expression, (pass.expression expression).size ≤ expression.size
  printed : ∀ expression, (pass.printed expression).size ≤ expression.size

namespace NeverGrows

variable {pass : Pass}

/-- Place by place, the second expressions are not larger than the first ones. -/
def NoneLarger (before after : List Expr) : Prop :=
  List.Forall₂ (fun expression expression' => expression'.size ≤ expression.size) before after

theorem noneLarger_toList {value : Option Expr} {function : Expr → Expr}
    (hsize : ∀ expression, (function expression).size ≤ expression.size) :
    NoneLarger value.toList (value.map function).toList := by
  cases value with
  | none => exact .nil
  | some expression => exact .cons (hsize expression) .nil

theorem noneLarger_action (hpass : pass.NeverGrows) (action : Action) :
    NoneLarger action.expressions (pass.action action).expressions := by
  cases action with
  | declare binding => exact noneLarger_toList hpass.expression
  | leave value => exact noneLarger_toList hpass.expression
  | print value => exact noneLarger_toList hpass.printed
  | _ => simp [NoneLarger, Pass.action, Action.expressions, hpass.expression]

theorem noneLarger_fields (hpass : pass.NeverGrows) (members : List ClassMember) :
    NoneLarger (members.flatMap ClassMember.fieldValues)
      ((members.map pass.member).flatMap ClassMember.fieldValues) := by
  induction members with
  | nil => exact .nil
  | cons head tail ih =>
      rw [List.map_cons, List.flatMap_cons, List.flatMap_cons]
      refine List.rel_append ?_ ih
      cases head with
      | field access binding => exact noneLarger_toList hpass.expression
      | method access declaration => exact .nil

theorem noneLarger_stmt (hpass : pass.NeverGrows) (statement : Stmt) :
    NoneLarger statement.allExpressions (pass.stmt statement).allExpressions := by
  cases statement with
  | simple line action =>
      exact List.rel_append (hpass.noneLarger_action action) .nil
  | classDecl line declaration =>
      rcases declaration with ⟨classLine, kind, name, bases, members⟩
      rw [Pass.stmt, members_eq_map]
      exact hpass.noneLarger_fields members
  | nested line opener body =>
      cases opener with
      | whileLoop condition => exact .cons (hpass.expression condition) .nil
      | schedule priority => exact .cons (hpass.expression priority) .nil
      | block | pureRegion | forLoop => exact .nil
  | branch line condition positive negative => exact .cons (hpass.expression condition) .nil
  | switch line scrutinee cases fallback => exact .cons (hpass.expression scrutinee) .nil
  | select line scrutinee arms fallback => exact .cons (hpass.expression scrutinee) .nil
  | function | attempt => exact .nil

theorem expressionCount_stmt_le (hpass : pass.NeverGrows) (statement : Stmt) :
    (pass.stmt statement).expressionCount ≤ statement.expressionCount := by
  apply List.Forall₂.sum_le_sum
  rw [List.forall₂_map_left_iff, List.forall₂_map_right_iff]
  exact (hpass.noneLarger_stmt statement).flip

/-- Statements are left out and expressions shrink, but none are added. -/
theorem counts_program_le (hpass : pass.NeverGrows) (program : Program) :
    (pass.program program).counts.statements ≤ program.counts.statements ∧
      (pass.program program).counts.expressions ≤ program.counts.expressions := by
  have hsublist := allStatements_program_sublist hpass.statements program
  constructor
  · simpa [Program.counts] using hsublist.length_le
  · rw [Program.counts_expressions, Program.counts_expressions]
    calc ((pass.program program).allStatements.map Stmt.expressionCount).sum
      _ ≤ ((program.allStatements.map pass.stmt).map Stmt.expressionCount).sum :=
        (hsublist.map Stmt.expressionCount).sum_le_sum fun count _ => Nat.zero_le count
      _ ≤ (program.allStatements.map Stmt.expressionCount).sum := by
        rw [List.map_map]
        exact List.sum_le_sum fun statement _ => hpass.expressionCount_stmt_le statement

end NeverGrows

end Pass

/-! ## Folded programs -/

namespace Pass

variable (pass : Pass)

theorem line_stmt (statement : Stmt) : (pass.stmt statement).line = statement.line := by
  cases statement with
  | classDecl line declaration =>
      rcases declaration with ⟨classLine, kind, name, bases, members⟩
      rfl
  | _ => rfl

theorem tag_stmt (statement : Stmt) : (pass.stmt statement).tag = statement.tag := by
  cases statement with
  | simple line action => cases action <;> rfl
  | classDecl line declaration =>
      rcases declaration with ⟨classLine, kind, name, bases, members⟩
      rfl
  | nested line opener body => cases opener <;> rfl
  | _ => rfl

end Pass

namespace Optimize

/-- Expressions are folded where they stand, in a printed text operand by operand, and all
statements are kept. -/
def foldingInPlace : Rewriting where
  expression before after := after = before.fold
  printed before after :=
    if before.concatenatesText then before.OperandsFolded after else after = before.fold
  keeps statements kept := kept = statements

theorem realizes_folding : folding.Realizes foldingInPlace where
  expression _ _ := Iff.rfl
  printed before after := by
    simp only [foldingInPlace, folding, Expr.foldPrinted]
    split
    · exact Expr.operandsFolded_iff
    · exact Iff.rfl
  keeps _ _ := Iff.rfl
  subset _ := List.Subset.refl _
  choosesAlike := choosesAlike_folding folding

theorem neverGrows_folding : folding.NeverGrows where
  statements := List.Sublist.refl
  expression := Expr.size_fold_le
  printed := Expr.size_foldPrinted_le

theorem neverGrows_pruning : pruning.NeverGrows where
  statements := throughReturn_sublist
  expression _ := le_rfl
  printed _ := le_rfl

end Optimize

namespace Stmt

/-- What an assignment, a step or a mutation changes. -/
def target? : Stmt → Option Expr
  | .simple _ (.assign target _ _) | .simple _ (.step target _) | .simple _ (.mutate target _) =>
    some target
  | _ => none

theorem target?_folding (statement : Stmt) :
    (Optimize.folding.stmt statement).target? = statement.target?.map Expr.fold := by
  cases statement with
  | simple line action => cases action <;> rfl
  | classDecl line declaration =>
      rcases declaration with ⟨classLine, kind, name, bases, members⟩
      rfl
  | _ => rfl

end Stmt

namespace Program

open Optimize

/-- Folding gives the one program that has the folded expression at every place of an expression and
is otherwise the same.  Targets keep their variables, and nothing is counted more often. -/
theorem fold_in_place (program : Program) :
    (∀ result, program.fold = result ↔ foldingInPlace.ProgramTo program result) ∧
      List.Forall₂ (fun before after => after.line = before.line ∧ after.tag = before.tag ∧
          ∀ target ∈ before.target?, ∀ name, target.rootName = some name →
            ∃ folded ∈ after.target?, folded.rootName = some name)
        program.allStatements program.fold.allStatements ∧
      program.fold.counts.statements = program.counts.statements ∧
      program.fold.counts.expressions ≤ program.counts.expressions ∧
      program.optimize.counts.statements ≤ program.counts.statements ∧
      program.optimize.counts.expressions ≤ program.counts.expressions := by
  have hstatements : program.fold.allStatements = program.allStatements.map folding.stmt :=
    Pass.allStatements_program (fun _ => rfl) program
  have hfold := fun program => neverGrows_folding.counts_program_le program
  have hprune := fun program => neverGrows_pruning.counts_program_le program
  have hround : ∀ program : Program, program.round.counts.statements ≤ program.counts.statements ∧
      program.round.counts.expressions ≤ program.counts.expressions := fun program =>
    ⟨(hprune program.fold).1.trans (hfold program).1,
      (hprune program.fold).2.trans (hfold program).2⟩
  refine ⟨fun result => ?_, ?_, ?_, (hfold program).2, ?_, ?_⟩
  · rw [realizes_folding.programTo_iff]
    exact eq_comm
  · rw [hstatements, List.forall₂_map_right_iff, List.forall₂_same]
    intro statement _
    refine ⟨folding.line_stmt statement, folding.tag_stmt statement, ?_⟩
    intro target htarget name hroot
    rw [Stmt.target?_folding, htarget]
    exact ⟨target.fold, rfl, Expr.rootName_fold hroot⟩
  · simp only [counts, hstatements, List.length_map]
  · exact (hround program.round).1.trans (hround program).1
  · exact (hround program.round).2.trans (hround program).2

end Program

end Tide
