import Mathlib
import Tide.Tree.Stmt

/-!
# Induction on trees

Calls hold a list of arguments, and statements hold blocks through declarations, clauses and
branches.  The principles here assume what is to be shown of every argument and of every statement
in a block, so that a proof about trees needs no second statement about the lists on the way.
-/

namespace Tide

namespace Expr

section

variable {motive : Expr → Prop}
variable (literal : ∀ line value, motive (.literal line value))
variable (name : ∀ line text, motive (.name line text))
variable (unary : ∀ line operator operand, motive operand → motive (.unary line operator operand))
variable (binary : ∀ line operator left right, motive left → motive right →
  motive (.binary line operator left right))
variable (ternary : ∀ line condition positive negative, motive condition → motive positive →
  motive negative → motive (.ternary line condition positive negative))
variable (call : ∀ line callee arguments, motive callee →
  (∀ argument ∈ arguments, motive argument) → motive (.call line callee arguments))
variable (index : ∀ line target place, motive target → motive place →
  motive (.index line target place))
variable (member : ∀ line target field, motive target → motive (.member line target field))

include literal name unary binary ternary call index member

@[induction_eliminator]
theorem induction (expression : Expr) : motive expression := by
  refine Expr.rec literal name unary binary ternary call index member ?_ ?_ expression
  · exact List.forall_mem_nil motive
  · intro head tail hhead htail
    exact List.forall_mem_cons.mpr ⟨hhead, htail⟩

end

end Expr

/-- Every statement that stands directly in the block satisfies `property`. -/
def Block.Forall (property : Stmt → Prop) (block : Block) : Prop :=
  ∀ statement ∈ block.statements, property statement

namespace Stmt

section

variable {motive : Stmt → Prop}
variable (simple : ∀ line action, motive (.simple line action))
variable (function : ∀ line declaration, declaration.body.Forall motive →
  motive (.function line declaration))
variable (classDecl : ∀ line declaration,
  (∀ access method, .method access method ∈ declaration.members → method.body.Forall motive) →
    motive (.classDecl line declaration))
variable (nested : ∀ line opener body, body.Forall motive → motive (.nested line opener body))
variable (branch : ∀ line condition positive negative, positive.Forall motive →
  (∀ statement ∈ negative, motive statement) → motive (.branch line condition positive negative))
variable (switch : ∀ line scrutinee cases fallback,
  (∀ clause ∈ cases, clause.body.Forall motive) → (∀ body ∈ fallback, body.Forall motive) →
    motive (.switch line scrutinee cases fallback))
variable (select : ∀ line scrutinee arms fallback,
  (∀ clause ∈ arms, clause.body.Forall motive) → (∀ body ∈ fallback, body.Forall motive) →
    motive (.select line scrutinee arms fallback))
variable (attempt : ∀ line body binding handler, body.Forall motive → handler.Forall motive →
  motive (.attempt line body binding handler))

include simple function classDecl nested branch switch select attempt

@[induction_eliminator]
theorem induction (statement : Stmt) : motive statement := by
  refine @Stmt.rec motive (Block.Forall motive) (fun declaration => declaration.body.Forall motive)
    (fun declaration => ∀ access method, .method access method ∈ declaration.members →
      method.body.Forall motive)
    (fun member => ∀ access method, member = .method access method → method.body.Forall motive)
    (fun clause => clause.body.Forall motive) (fun clause => clause.body.Forall motive)
    (fun negative => ∀ statement ∈ negative, motive statement)
    (fun cases => ∀ clause ∈ cases, clause.body.Forall motive)
    (fun fallback => ∀ body ∈ fallback, body.Forall motive)
    (fun arms => ∀ clause ∈ arms, clause.body.Forall motive)
    (fun statements => ∀ statement ∈ statements, motive statement)
    (fun members => ∀ access method, .method access method ∈ members → method.body.Forall motive)
    simple function classDecl nested branch switch select attempt
    ?_ ?_ ?_ ?_ ?_ ?_ ?_ ?_ ?_ ?_ ?_ ?_ ?_ ?_ ?_ ?_ ?_ ?_ ?later statement
  case later =>
    intro head tail hhead htail access method hmember
    rcases List.mem_cons.mp hmember with heq | hmember
    · exact hhead access method heq.symm
    · exact htail access method hmember
  all_goals simp +contextual [Block.Forall]

end

end Stmt

end Tide
