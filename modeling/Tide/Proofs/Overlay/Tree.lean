import Tide.Proofs.Overlay.Trace
import Tide.Proofs.Tree.Occurrence

/-!
# Overlays in a tree

Walking a tree meets the functions and the statements of directives that take overlays.  Together
they hold all overlays that are met, in the same order.
-/

namespace Tide

namespace Node

def taker? : Node → Option Taker
  | statement (.simple line (.directive overlays)) => some (.statement line overlays)
  | function declaration =>
    some (.function declaration.line declaration.flavor declaration.name declaration.overlays)
  | _ => none

/-- What takes overlays, in the order of the nodes. -/
def takers (nodes : List Node) : List Taker := nodes.filterMap taker?

theorem takers_append (first second : List Node) :
    takers (first ++ second) = takers first ++ takers second :=
  List.filterMap_append

theorem takers_expressions (expressions : List Expr) :
    takers (expressions.map expression) = [] := by
  induction expressions with
  | nil => rfl
  | cons head tail ih => exact ih

theorem takers_overlays (overlays : List Overlay) : takers (overlays.map overlay) = [] := by
  induction overlays with
  | nil => rfl
  | cons head tail ih => exact ih

end Node

/-- The action is not that of a statement of directives. -/
def Action.NoDirective (action : Action) : Prop :=
  ∀ overlays, action ≠ .directive overlays

/-- What takes overlays in a block. -/
def Block.takers (block : Block) : List Taker := Node.takers (Node.ofBlock .declarations block)

def FunctionDecl.takers (declaration : FunctionDecl) : List Taker :=
  Node.takers (Node.ofFunction declaration)

def ClassMember.takers (members : List ClassMember) : List Taker :=
  Node.takers (Node.ofMembers members)

def SwitchCase.takers (cases : List SwitchCase) : List Taker :=
  Node.takers (Node.ofCases .declarations cases)

def MatchArm.takers (arms : List MatchArm) : List Taker :=
  Node.takers (Node.ofArms .declarations arms)

/-- What takes overlays in a default clause. -/
def Block.fallbackTakers (fallback : Option Block) : List Taker :=
  Node.takers (Node.ofFallback .declarations fallback)

/-- What takes overlays in a program, in the order that walking the program meets it. -/
def Program.takers (program : Program) : List Taker := Node.takers program.nodes

def Stmt.takers (statement : Stmt) : List Taker :=
  Node.takers (Node.ofStmt .declarations statement)

section

variable {line : Nat}

theorem FunctionDecl.takers_eq (declaration : FunctionDecl) :
    declaration.takers =
      .function declaration.line declaration.flavor declaration.name declaration.overlays ::
        declaration.body.takers := by
  have hinside : Node.takers (declaration.overlays.map .overlay ++
      Node.ofBlock .declarations declaration.body) = declaration.body.takers := by
    rw [Node.takers_append, Node.takers_overlays]
    rfl
  rw [takers, Node.ofFunction_eq, ← hinside]
  rfl

theorem ClassMember.takers_field (access : Access) (binding : Local) (rest : List ClassMember) :
    takers (.field access binding :: rest) = takers rest := by
  rw [takers, Node.ofMembers, Node.takers_append, Node.takers_expressions]
  rfl

theorem ClassMember.takers_method (access : Access) (method : FunctionDecl)
    (rest : List ClassMember) :
    takers (.method access method :: rest) = method.takers ++ takers rest :=
  Node.takers_append _ _

theorem SwitchCase.takers_cons (label : Literal) (body : Block) (rest : List SwitchCase) :
    takers (⟨label, body⟩ :: rest) = body.takers ++ takers rest :=
  Node.takers_append _ _

theorem MatchArm.takers_cons (patterns : List Pattern) (body : Block) (rest : List MatchArm) :
    takers (⟨patterns, body⟩ :: rest) = body.takers ++ takers rest :=
  Node.takers_append _ _

theorem Program.takers_cons (first : Stmt) (rest : Program) :
    Program.takers (first :: rest) = first.takers ++ Program.takers rest :=
  Node.takers_append _ _

namespace Stmt

theorem takers_simple {action : Action} (hplain : action.NoDirective) :
    takers (.simple line action) = [] := by
  cases action with
  | directive overlays => exact absurd rfl (hplain overlays)
  | _ => exact Node.takers_expressions _

theorem takers_directive (overlays : List Overlay) :
    takers (.simple line (.directive overlays)) = [.statement line overlays] := by
  have hinside : Node.takers (overlays.map .overlay ++ []) = [] := by
    rw [List.append_nil, Node.takers_overlays]
  exact congrArg (Taker.statement line overlays :: ·) hinside

theorem takers_classDecl (declaration : ClassDecl) :
    takers (.classDecl line declaration) = ClassMember.takers declaration.members := by
  rcases declaration with ⟨classLine, kind, name, bases, members⟩
  rfl

theorem takers_nested (opener : Opener) (body : Block) :
    takers (.nested line opener body) = body.takers := by
  have hinside : Node.takers (opener.expressions.map .expression ++
      Node.ofBlock .declarations body) = body.takers := by
    rw [Node.takers_append, Node.takers_expressions]
    rfl
  exact hinside

theorem takers_branch_none (condition : Expr) (positive : Block) :
    takers (.branch line condition positive none) = positive.takers :=
  (Node.takers_append _ _).trans (List.append_nil _)

theorem takers_branch_some (condition : Expr) (positive : Block) (negative : Stmt) :
    takers (.branch line condition positive (some negative)) =
      positive.takers ++ negative.takers :=
  Node.takers_append _ _

/-- The default clause is walked last. -/
theorem takers_switch (scrutinee : Expr) (cases : List SwitchCase) (fallback : Option Block) :
    takers (.switch line scrutinee cases fallback) =
      SwitchCase.takers cases ++ Block.fallbackTakers fallback :=
  Node.takers_append _ _

theorem takers_select (scrutinee : Expr) (arms : List MatchArm) (fallback : Option Block) :
    takers (.select line scrutinee arms fallback) =
      MatchArm.takers arms ++ Block.fallbackTakers fallback :=
  Node.takers_append _ _

theorem takers_attempt (body : Block) (binding : Option String) (handler : Block) :
    takers (.attempt line body binding handler) = body.takers ++ handler.takers :=
  Node.takers_append _ _

end Stmt

end

/-! ## All overlays are held by something -/

namespace Node

/-- The overlays among the nodes are those that something among them takes, in the same order. -/
def Balanced (nodes : List Node) : Prop :=
  (takers nodes).flatMap Taker.overlays = nodes.filterMap overlay?

namespace Balanced

theorem append {first second : List Node} (hfirst : Balanced first) (hsecond : Balanced second) :
    Balanced (first ++ second) := by
  rw [Balanced, takers_append, List.flatMap_append, List.filterMap_append, hfirst, hsecond]

theorem flatMap {Item : Type} {items : List Item} {nodes : Item → List Node}
    (hitems : ∀ item ∈ items, Balanced (nodes item)) : Balanced (items.flatMap nodes) := by
  induction items with
  | nil => rfl
  | cons first rest ih =>
      rw [List.flatMap_cons]
      obtain ⟨hfirst, hrest⟩ := List.forall_mem_cons.mp hitems
      exact hfirst.append (ih hrest)

theorem expressions (expressions : List Expr) : Balanced (expressions.map expression) := by
  induction expressions with
  | nil => rfl
  | cons first rest ih => exact ih

end Balanced

theorem filterMap_overlay?_map (overlays : List Overlay) :
    (overlays.map overlay).filterMap overlay? = overlays := by
  induction overlays with
  | nil => rfl
  | cons first rest ih => exact congrArg (first :: ·) ih

theorem balanced_ofFunction {declaration : FunctionDecl}
    (hbody : Balanced (ofBlock .declarations declaration.body)) :
    Balanced (ofFunction declaration) := by
  have htakers : takers (ofFunction declaration) = _ := declaration.takers_eq
  rw [Balanced, htakers, List.flatMap_cons, ofFunction_eq]
  simp only [List.filterMap_cons, overlay?, List.filterMap_append, filterMap_overlay?_map]
  exact congrArg (declaration.overlays ++ ·) hbody

theorem balanced_ofMembers {members : List ClassMember}
    (hmethods : ∀ access method, .method access method ∈ members →
      Balanced (ofBlock .declarations method.body)) : Balanced (ofMembers members) := by
  induction members with
  | nil => rfl
  | cons first rest ih =>
      have hrest := ih fun access method hmember =>
        hmethods access method (List.mem_cons_of_mem first hmember)
      cases first with
      | field access binding => exact (Balanced.expressions _).append hrest
      | method access method =>
          exact (balanced_ofFunction (hmethods access method List.mem_cons_self)).append hrest

theorem balanced_ofBlock {block : Block}
    (hblock : block.Forall fun statement => Balanced (ofStmt .declarations statement)) :
    Balanced (ofBlock .declarations block) := by
  rw [ofBlock_eq_flatMap]
  exact .flatMap hblock

theorem balanced_ofFallback {fallback : Option Block}
    (hfallback : ∀ body ∈ fallback, Balanced (ofBlock .declarations body)) :
    Balanced (ofFallback .declarations fallback) := by
  cases fallback with
  | none => rfl
  | some body => exact hfallback body rfl

/-- What takes overlays is met together with them, at any depth. -/
theorem balanced_ofStmt (statement : Stmt) : Balanced (ofStmt .declarations statement) := by
  induction statement with
  | simple line action =>
      cases action with
      | directive overlays =>
          have htakers : takers (ofStmt .declarations (.simple line (.directive overlays))) = _ :=
            Stmt.takers_directive overlays
          have hoverlays : (overlays.map overlay ++ []).filterMap overlay? = overlays := by
            rw [List.append_nil, filterMap_overlay?_map]
          rw [Balanced, htakers]
          exact (List.append_nil overlays).trans hoverlays.symm
      | _ => exact Balanced.expressions _
  | function line declaration hbody => exact balanced_ofFunction (balanced_ofBlock hbody)
  | classDecl line declaration hmethods =>
      rcases declaration with ⟨classLine, kind, name, bases, members⟩
      exact balanced_ofMembers fun access method hmember =>
        balanced_ofBlock (hmethods access method hmember)
  | nested line opener body hbody =>
      exact (Balanced.expressions _).append (balanced_ofBlock hbody)
  | branch line condition positive negative hpositive hnegative =>
      refine (balanced_ofBlock hpositive).append ?_
      cases negative with
      | none => rfl
      | some negative => exact hnegative negative rfl
  | switch line scrutinee cases fallback hcases hfallback =>
      refine Balanced.append ?_ (balanced_ofFallback fun body hbody =>
        balanced_ofBlock (hfallback body hbody))
      rw [ofCases_eq_flatMap]
      exact .flatMap fun clause hclause => balanced_ofBlock (hcases clause hclause)
  | select line scrutinee arms fallback harms hfallback =>
      refine Balanced.append ?_ (balanced_ofFallback fun body hbody =>
        balanced_ofBlock (hfallback body hbody))
      rw [ofArms_eq_flatMap]
      exact .flatMap fun clause hclause => balanced_ofBlock (harms clause hclause)
  | attempt line body binding handler hbody hhandler =>
      exact (balanced_ofBlock hbody).append (balanced_ofBlock hhandler)

end Node

/-- Every overlay of a program is held by what takes it. -/
theorem Program.flatMap_takers (program : Program) :
    program.takers.flatMap Taker.overlays = program.overlays := by
  have hnodes : Node.Balanced program.nodes := by
    rw [nodes, Node.ofStmts_eq_flatMap]
    exact .flatMap fun statement _ => Node.balanced_ofStmt statement
  exact hnodes

end Tide
