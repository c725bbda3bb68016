import Tide.Proofs.Tree.Occurrence

/-!
# The expressions of a program

An expression that is not part of another belongs to one statement: it stands in the statement
itself, or it is the value of a field of the class that the statement declares.
-/

namespace Tide

def ClassMember.fieldValues : ClassMember → List Expr
  | .field _ binding => binding.value.toList
  | .method _ _ => []

/-- The values of the fields of a class. -/
def Stmt.fieldValues : Stmt → List Expr
  | .classDecl _ declaration => declaration.members.flatMap ClassMember.fieldValues
  | _ => []

/-- The expressions of a statement itself and the values of its fields. -/
def Stmt.allExpressions (statement : Stmt) : List Expr :=
  statement.ownExpressions ++ statement.fieldValues

namespace Node

def statements (nodes : List Node) : List Stmt := nodes.filterMap statement?

/-- The expressions among the nodes, which are not parts of others. -/
def expressions (nodes : List Node) : List Expr := nodes.filterMap expression?

section

variable (front back nodes : List Node)

@[simp]
theorem statements_nil : statements [] = [] := rfl

@[simp]
theorem statements_append : statements (front ++ back) = statements front ++ statements back :=
  List.filterMap_append

@[simp]
theorem statements_statement (found : Stmt) :
    statements (.statement found :: nodes) = found :: statements nodes := rfl

@[simp]
theorem statements_function (found : FunctionDecl) :
    statements (.function found :: nodes) = statements nodes := rfl

@[simp]
theorem statements_expression (found : Expr) :
    statements (.expression found :: nodes) = statements nodes := rfl

@[simp]
theorem statements_map_expression (found : List Expr) : statements (found.map expression) = [] := by
  simp [statements, statement?]

@[simp]
theorem statements_map_overlay (found : List Overlay) : statements (found.map overlay) = [] := by
  simp [statements, statement?]

@[simp]
theorem expressions_append :
    expressions (front ++ back) = expressions front ++ expressions back :=
  List.filterMap_append

@[simp]
theorem expressions_statement (found : Stmt) :
    expressions (.statement found :: nodes) = expressions nodes := rfl

@[simp]
theorem expressions_map_expression (found : List Expr) :
    expressions (found.map expression) = found := by
  simp [expressions, List.filterMap_map, Function.comp_def, expression?]

@[simp]
theorem expressions_map_overlay (found : List Overlay) : expressions (found.map overlay) = [] := by
  simp [expressions, expression?]

end

/-- The expressions among the nodes are those of the statements among them. -/
def Owned (nodes : List Node) : Prop :=
  (expressions nodes).Perm ((statements nodes).flatMap Stmt.allExpressions)

namespace Owned

theorem nil : Owned [] := List.Perm.nil

theorem append {front back : List Node} (hfront : Owned front) (hback : Owned back) :
    Owned (front ++ back) := by
  rw [Owned, expressions_append, statements_append, List.flatMap_append]
  exact List.Perm.append hfront hback

theorem flatMap {α : Type} {items : List α} {nodes : α → List Node}
    (hnodes : ∀ item ∈ items, Owned (nodes item)) : Owned (items.flatMap nodes) := by
  induction items with
  | nil => exact nil
  | cons head tail ih =>
      rw [List.flatMap_cons]
      exact (hnodes head List.mem_cons_self).append
        (ih fun item hitem => hnodes item (List.mem_cons_of_mem _ hitem))

/-- A statement, its expressions and whatever it holds. -/
theorem statement {statement : Stmt} {nodes : List Node}
    (hfields : statement.fieldValues = []) (hnodes : Owned nodes) :
    Owned (.statement statement :: (statement.ownExpressions.map expression ++ nodes)) := by
  simp only [Owned, expressions_statement, statements_statement, expressions_append,
    statements_append, expressions_map_expression, statements_map_expression, List.nil_append,
    List.flatMap_cons, Stmt.allExpressions, hfields, List.append_nil]
  exact hnodes.append_left _

theorem overlays (overlays : List Overlay) : Owned (overlays.map overlay) := by
  rw [Owned, expressions_map_overlay, statements_map_overlay]
  exact .nil

end Owned

theorem owned_ofBlock {block : Block}
    (hblock : block.Forall fun statement => Owned (ofStmt .declarations statement)) :
    Owned (ofBlock .declarations block) := by
  rw [ofBlock_eq_flatMap]
  exact .flatMap hblock

theorem owned_ofFallback {fallback : Option Block}
    (hfallback : ∀ body ∈ fallback,
      body.Forall fun statement => Owned (ofStmt .declarations statement)) :
    Owned (ofFallback .declarations fallback) := by
  cases fallback with
  | none => exact .nil
  | some body => exact owned_ofBlock (hfallback body rfl)

theorem owned_ofFunction {declaration : FunctionDecl}
    (hbody : declaration.body.Forall fun statement => Owned (ofStmt .declarations statement)) :
    Owned (ofFunction declaration) := by
  rw [ofFunction_eq]
  exact (Owned.overlays _).append (owned_ofBlock hbody)

/-- The members of a class: the values of its fields are not those of statements in it. -/
theorem expressions_ofMembers {members : List ClassMember}
    (hmethods : ∀ access method, .method access method ∈ members →
      method.body.Forall fun statement => Owned (ofStmt .declarations statement)) :
    (expressions (ofMembers members)).Perm
      (members.flatMap ClassMember.fieldValues ++
        (statements (ofMembers members)).flatMap Stmt.allExpressions) := by
  induction members with
  | nil => exact .nil
  | cons head tail ih =>
      have htail := ih fun access method hmethod =>
        hmethods access method (List.mem_cons_of_mem _ hmethod)
      cases head with
      | field access binding =>
          rw [ofMembers, expressions_append, statements_append, expressions_map_expression,
            statements_map_expression, List.flatMap_cons, List.nil_append, List.append_assoc]
          exact htail.append_left _
      | method access method =>
          have hmethod : Owned (ofFunction method) :=
            owned_ofFunction (hmethods access method List.mem_cons_self)
          rw [ofMembers, expressions_append, statements_append, List.flatMap_append,
            List.flatMap_cons]
          refine (List.Perm.append hmethod htail).trans ?_
          exact List.perm_append_comm_assoc ..

theorem owned_ofStmt (statement : Stmt) : Owned (ofStmt .declarations statement) := by
  induction statement with
  | simple line action =>
      simp [Owned, ofStmt, ofAction, Stmt.allExpressions, Stmt.ownExpressions, Stmt.fieldValues]
  | function line declaration hbody =>
      exact .statement rfl (owned_ofFunction hbody)
  | classDecl line declaration hmethods =>
      rcases declaration with ⟨classLine, kind, name, bases, members⟩
      exact expressions_ofMembers hmethods
  | nested line opener body hbody => exact .statement rfl (owned_ofBlock hbody)
  | branch line condition positive negative hpositive hnegative =>
      refine .statement rfl ((owned_ofBlock hpositive).append ?_)
      cases negative with
      | none => exact .nil
      | some statement => exact hnegative statement rfl
  | switch line scrutinee cases fallback hcases hfallback =>
      refine .statement rfl (.append ?_ (owned_ofFallback hfallback))
      rw [ofCases_eq_flatMap]
      exact .flatMap fun clause hclause => owned_ofBlock (hcases clause hclause)
  | select line scrutinee arms fallback harms hfallback =>
      refine .statement rfl (.append ?_ (owned_ofFallback hfallback))
      rw [ofArms_eq_flatMap]
      exact .flatMap fun clause hclause => owned_ofBlock (harms clause hclause)
  | attempt line body binding handler hbody hhandler =>
      exact .statement rfl ((owned_ofBlock hbody).append (owned_ofBlock hhandler))

end Node

namespace Program

/-- The expressions in the statements of a program, each before the statements that its statement
holds. -/
def ownExpressions (program : Program) : List Expr :=
  program.allStatements.flatMap Stmt.ownExpressions

/-- The values of the fields of all classes in a program. -/
def fieldValues (program : Program) : List Expr :=
  program.allStatements.flatMap Stmt.fieldValues

/-- The expressions met in a program are those in its statements and the values of fields. -/
theorem expressions_perm (program : Program) :
    (program.nodes.filterMap Node.expression?).Perm
      (program.ownExpressions ++ program.fieldValues) := by
  have howned : Node.Owned program.nodes := by
    rw [nodes, Node.ofStmts_eq_flatMap]
    exact .flatMap fun statement _ => Node.owned_ofStmt statement
  refine List.Perm.trans howned ?_
  exact (List.flatMap_append_perm ..).symm

end Program

end Tide
