import Tide.Proofs.Tree.Induction
import Tide.Tree.Pass

/-!
# Passes one after the other

A pass goes through every list of a tree by mapping.  When the statements that one pass chooses from
a block are not affected by a second pass on them, the two passes after each other are a single one
that does both at every place.
-/

namespace Tide.Pass

/-! ## Passes as maps -/

section

variable (pass : Pass)

theorem stmts_eq_map (statements : List Stmt) :
    pass.stmts statements = statements.map pass.stmt := by
  induction statements with
  | nil => rfl
  | cons head tail ih => rw [stmts, ih, List.map_cons]

theorem block_eq (block : Block) :
    pass.block block = ⟨block.line, pass.statements (block.statements.map pass.stmt)⟩ := by
  rcases block with ⟨line, statements⟩
  rw [Pass.block, stmts_eq_map]

theorem function_eq (declaration : FunctionDecl) :
    pass.function declaration = { declaration with body := pass.block declaration.body } := by
  rcases declaration with ⟨line, flavor, name, parameters, result, overlays, body⟩
  rfl

/-- What becomes of a member of a class. -/
def member : ClassMember → ClassMember
  | .field access binding => .field access (pass.binding binding)
  | .method access declaration => .method access (pass.function declaration)

theorem members_eq_map (members : List ClassMember) :
    pass.members members = members.map pass.member := by
  induction members with
  | nil => rfl
  | cons head tail ih => cases head <;> simp only [Pass.members, ih, List.map_cons, member]

theorem negative_eq_map (negative : Option Stmt) :
    pass.negative negative = negative.map pass.stmt := by
  cases negative <;> rfl

theorem cases_eq_map (cases : List SwitchCase) :
    pass.cases cases = cases.map fun clause => { clause with body := pass.block clause.body } := by
  induction cases with
  | nil => rfl
  | cons head tail ih =>
      rcases head with ⟨label, body⟩
      rw [Pass.cases, ih, List.map_cons]

theorem arms_eq_map (arms : List MatchArm) :
    pass.arms arms = arms.map fun clause => { clause with body := pass.block clause.body } := by
  induction arms with
  | nil => rfl
  | cons head tail ih =>
      rcases head with ⟨patterns, body⟩
      rw [Pass.arms, ih, List.map_cons]

theorem fallback_eq_map (fallback : Option Block) :
    pass.fallback fallback = fallback.map pass.block := by
  cases fallback <;> rfl

end

/-! ## Composition -/

/-- The pass that does at every place what `inner` does there and then what `outer` does. -/
def comp (outer inner : Pass) : Pass where
  expression := outer.expression ∘ inner.expression
  printed := outer.printed ∘ inner.printed
  statements := outer.statements ∘ inner.statements

section

variable {outer inner : Pass}

theorem binding_comp (binding : Local) :
    outer.binding (inner.binding binding) = (outer.comp inner).binding binding := by
  simp only [Pass.binding, comp, Option.map_map]

theorem action_comp (action : Action) :
    outer.action (inner.action action) = (outer.comp inner).action action := by
  cases action <;>
    simp only [Pass.action, binding_comp, comp, Option.map_map, Function.comp_apply]

theorem opener_comp (opener : Opener) :
    outer.opener (inner.opener opener) = (outer.comp inner).opener opener := by
  cases opener <;> rfl

/-- The statements that `inner` chooses from a block are chosen alike before and after `outer`. -/
def ChoosesAlike (outer inner : Pass) : Prop :=
  ∀ statements, (inner.statements statements).map outer.stmt =
    inner.statements (statements.map outer.stmt)

/-- A block becomes the same in two passes and in one if its statements do. -/
theorem block_comp (hchoice : ChoosesAlike outer inner) {block : Block}
    (hstatements : block.Forall fun statement =>
      outer.stmt (inner.stmt statement) = (outer.comp inner).stmt statement) :
    outer.block (inner.block block) = (outer.comp inner).block block := by
  have hmap : block.statements.map (outer.stmt ∘ inner.stmt) =
      block.statements.map (outer.comp inner).stmt := List.map_congr_left hstatements
  rw [block_eq, block_eq, block_eq, hchoice, List.map_map, hmap]
  rfl

theorem fallback_comp (hchoice : ChoosesAlike outer inner) {fallback : Option Block}
    (hbodies : ∀ body ∈ fallback, body.Forall fun statement =>
      outer.stmt (inner.stmt statement) = (outer.comp inner).stmt statement) :
    outer.fallback (inner.fallback fallback) = (outer.comp inner).fallback fallback := by
  rw [fallback_eq_map, fallback_eq_map, fallback_eq_map, Option.map_map]
  exact Option.map_congr fun body hbody => block_comp hchoice (hbodies body hbody)

theorem members_comp (hchoice : ChoosesAlike outer inner) {members : List ClassMember}
    (hbodies : ∀ access method, .method access method ∈ members →
      method.body.Forall fun statement =>
        outer.stmt (inner.stmt statement) = (outer.comp inner).stmt statement) :
    outer.members (inner.members members) = (outer.comp inner).members members := by
  rw [members_eq_map, members_eq_map, members_eq_map, List.map_map]
  apply List.map_congr_left
  intro classMember hmember
  cases classMember with
  | field access binding => simp only [Function.comp_apply, member, binding_comp]
  | method access declaration =>
      simp only [Function.comp_apply, member, function_eq,
        block_comp hchoice (hbodies access declaration hmember)]

/-- Two passes after each other are the pass that does both at every place. -/
theorem stmt_comp (hchoice : ChoosesAlike outer inner) (statement : Stmt) :
    outer.stmt (inner.stmt statement) = (outer.comp inner).stmt statement := by
  induction statement with
  | simple line action => simp only [stmt, action_comp]
  | function line declaration ih => simp only [stmt, function_eq, block_comp hchoice ih]
  | classDecl line declaration ih =>
      rcases declaration with ⟨classLine, kind, name, bases, members⟩
      simp only [stmt, members_comp hchoice ih]
  | nested line opener body ih => simp only [stmt, opener_comp, block_comp hchoice ih]
  | branch line condition positive negative ihPositive ihNegative =>
      have hnegative : (negative.map inner.stmt).map outer.stmt =
          negative.map (outer.comp inner).stmt := by
        rw [Option.map_map]
        exact Option.map_congr ihNegative
      simp only [stmt, negative_eq_map, hnegative, block_comp hchoice ihPositive]
      rfl
  | switch line scrutinee cases fallback ihCases ihFallback =>
      have hcases : outer.cases (inner.cases cases) = (outer.comp inner).cases cases := by
        rw [cases_eq_map, cases_eq_map, cases_eq_map, List.map_map]
        apply List.map_congr_left
        intro clause hclause
        simp only [Function.comp_apply, block_comp hchoice (ihCases clause hclause)]
      simp only [stmt, hcases, fallback_comp hchoice ihFallback]
      rfl
  | select line scrutinee arms fallback ihArms ihFallback =>
      have harms : outer.arms (inner.arms arms) = (outer.comp inner).arms arms := by
        rw [arms_eq_map, arms_eq_map, arms_eq_map, List.map_map]
        apply List.map_congr_left
        intro clause hclause
        simp only [Function.comp_apply, block_comp hchoice (ihArms clause hclause)]
      simp only [stmt, harms, fallback_comp hchoice ihFallback]
      rfl
  | attempt line body binding handler ihBody ihHandler =>
      simp only [stmt, block_comp hchoice ihBody, block_comp hchoice ihHandler]

theorem program_comp (hchoice : ChoosesAlike outer inner) (program : Program) :
    outer.program (inner.program program) = (outer.comp inner).program program := by
  simp only [Pass.program, stmts_eq_map, List.map_map]
  exact List.map_congr_left fun statement _ => stmt_comp hchoice statement

end

end Tide.Pass
