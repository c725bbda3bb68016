import Tide.Optimize.Passes
import Tide.Proofs.Fold.NormalForm
import Tide.Proofs.Tree.Pass

/-!
# Rounds of optimizing

Folding and pruning are done for good the first time, and neither lays open work for the other: they
can be done in either order.  So one round gives what any number of rounds give.
-/

namespace Tide

/-- No pass makes a return of another statement or another statement of a return. -/
theorem Pass.isReturn_stmt (pass : Pass) (statement : Stmt) :
    (pass.stmt statement).isReturn = statement.isReturn := by
  cases statement with
  | simple line action => cases action <;> rfl
  | classDecl line declaration =>
      rcases declaration with ⟨classLine, kind, name, bases, members⟩
      rfl
  | _ => rfl

namespace Optimize

theorem map_throughReturn (pass : Pass) (statements : List Stmt) :
    (throughReturn statements).map pass.stmt = throughReturn (statements.map pass.stmt) := by
  induction statements with
  | nil => rfl
  | cons head tail ih =>
      rw [throughReturn, List.map_cons, throughReturn, pass.isReturn_stmt]
      split
      · rfl
      · rw [List.map_cons, ih]

theorem throughReturn_throughReturn (statements : List Stmt) :
    throughReturn (throughReturn statements) = throughReturn statements := by
  induction statements with
  | nil => rfl
  | cons head tail ih =>
      rw [throughReturn]
      split
      case isTrue hreturn => rw [throughReturn, if_pos hreturn]
      case isFalse hreturn => rw [throughReturn, if_neg hreturn, ih]

theorem choosesAlike_folding (outer : Pass) : Pass.ChoosesAlike outer folding := fun _ => rfl

theorem choosesAlike_pruning (outer : Pass) : Pass.ChoosesAlike outer pruning :=
  map_throughReturn outer

theorem folding_comp_folding : folding.comp folding = folding := by
  have hexpression : Expr.fold ∘ Expr.fold = Expr.fold := funext Expr.fold_fold
  have hprinted : Expr.foldPrinted ∘ Expr.foldPrinted = Expr.foldPrinted :=
    funext Expr.foldPrinted_foldPrinted
  simp only [Pass.comp, folding, hexpression, hprinted, Function.comp_id]

theorem pruning_comp_pruning : pruning.comp pruning = pruning := by
  have hstatements : throughReturn ∘ throughReturn = throughReturn :=
    funext throughReturn_throughReturn
  simp only [Pass.comp, pruning, hstatements, Function.comp_id]

theorem pruning_comp_folding : pruning.comp folding = folding.comp pruning := rfl

end Optimize

namespace Program

open Optimize

theorem fold_fold (program : Program) : program.fold.fold = program.fold := by
  rw [fold, fold, Pass.program_comp (choosesAlike_folding folding), folding_comp_folding]

theorem prune_prune (program : Program) : program.prune.prune = program.prune := by
  rw [prune, prune, Pass.program_comp (choosesAlike_pruning pruning), pruning_comp_pruning]

theorem prune_fold (program : Program) : program.fold.prune = program.prune.fold := by
  rw [prune, fold, fold, prune, Pass.program_comp (choosesAlike_folding pruning),
    Pass.program_comp (choosesAlike_pruning folding), pruning_comp_folding]

/-- A second round changes nothing. -/
theorem round_round (program : Program) : program.round.round = program.round := by
  calc
    program.fold.prune.fold.prune = program.fold.fold.prune.prune := by
      rw [← prune_fold program.fold]
    _ = program.fold.prune := by
      rw [fold_fold, prune_prune]

/-- Folding and pruning are idempotent and commute, so optimizing is a single round of both and
leaves nothing to be optimized. -/
theorem optimize_eq_round (program : Program) :
    program.fold.fold = program.fold ∧
      program.prune.prune = program.prune ∧
      program.fold.prune = program.prune.fold ∧
      program.optimize = program.fold.prune ∧
      program.optimize.optimize = program.optimize := by
  have hoptimize : ∀ program : Program, program.optimize = program.round := round_round
  refine ⟨program.fold_fold, program.prune_prune, program.prune_fold, hoptimize program, ?_⟩
  rw [hoptimize program.optimize, hoptimize program, round_round]

end Program

end Tide
