import Tide.Optimize.Passes
import Tide.Proofs.Tree.Expressions
import Tide.Proofs.Tree.Pass

/-!
# Statements and their children

The children of a statement are the statements that stand directly in it, in its blocks and behind
its `else`, and in the functions it declares.  Reading a program meets each statement before its
children.  A pass goes to the children that it leaves, so it meets no other statements than before.
-/

namespace Tide

/-- The body of a method. -/
def ClassMember.body? : ClassMember → Option Block
  | .field _ _ => none
  | .method _ declaration => some declaration.body

theorem Optimize.ownBlocks_classDecl (line : Nat) (declaration : ClassDecl) :
    ownBlocks (.classDecl line declaration) =
      declaration.members.filterMap ClassMember.body? := by
  rw [ownBlocks]
  apply List.filterMap_congr
  intro member _
  cases member <;> rfl

namespace Stmt

/-- The statement behind the `else`. -/
def negative? : Stmt → Option Stmt
  | .branch _ _ _ negative => negative
  | _ => none

/-- The statements that stand directly in this one or in a function it declares, in reading
order. -/
def children (statement : Stmt) : List Stmt :=
  (Optimize.ownBlocks statement).flatMap (·.statements) ++ statement.negative?.toList

theorem mem_children_cases {statement child : Stmt} (hmem : child ∈ statement.children) :
    statement.Holds child ∨
      ∃ declaration, statement.Declares declaration ∧ child ∈ declaration.body.statements := by
  rcases List.mem_append.mp hmem with hblock | hnegative
  · obtain ⟨block, hblock, hchild⟩ := List.mem_flatMap.mp hblock
    cases statement with
    | simple line action => cases hblock
    | function line declaration =>
        cases List.mem_singleton.mp hblock
        exact .inr ⟨declaration, .function, hchild⟩
    | classDecl line declaration =>
        rw [Optimize.ownBlocks_classDecl] at hblock
        obtain ⟨member, hmember, hbody⟩ := List.mem_filterMap.mp hblock
        cases member with
        | field access binding => cases hbody
        | method access method =>
            cases hbody
            exact .inr ⟨method, .method hmember, hchild⟩
    | nested line opener body =>
        cases List.mem_singleton.mp hblock
        exact .inl (.nested hchild)
    | branch line condition positive negative =>
        cases List.mem_singleton.mp hblock
        exact .inl (.positive hchild)
    | switch line scrutinee cases fallback =>
        rcases List.mem_append.mp hblock with hcase | hfallback
        · obtain ⟨clause, hclause, rfl⟩ := List.mem_map.mp hcase
          exact .inl (.case hclause hchild)
        · cases Option.mem_toList.mp hfallback
          exact .inl (.switchFallback hchild)
    | select line scrutinee arms fallback =>
        rcases List.mem_append.mp hblock with harm | hfallback
        · obtain ⟨clause, hclause, rfl⟩ := List.mem_map.mp harm
          exact .inl (.arm hclause hchild)
        · cases Option.mem_toList.mp hfallback
          exact .inl (.selectFallback hchild)
    | attempt line body binding handler =>
        rcases List.mem_pair.mp hblock with rfl | rfl
        · exact .inl (.body hchild)
        · exact .inl (.handler hchild)
  · cases statement with
    | branch line condition positive negative =>
        cases Option.mem_toList.mp hnegative
        exact .inl .negative
    | _ => cases hnegative

/-- What passes from its children to a statement belongs to every statement. -/
theorem induction_children {motive : Stmt → Prop}
    (parent : ∀ statement, (∀ child ∈ statement.children, motive child) → motive statement)
    (statement : Stmt) : motive statement := by
  induction statement using Stmt.induction_below with
  | below statement hheld hdeclared =>
      apply parent
      intro child hchild
      rcases mem_children_cases hchild with hholds | ⟨declaration, hdeclares, hbody⟩
      · exact hheld child hholds
      · exact hdeclared declaration hdeclares child hbody

/-- The statement and every statement in it, in reading order. -/
def withDescendants (statement : Stmt) : List Stmt :=
  Node.statements (Node.ofStmt .declarations statement)

end Stmt

namespace Node

theorem statements_flatMap {α : Type} (items : List α) (nodes : α → List Node) :
    statements (items.flatMap nodes) = items.flatMap fun item => statements (nodes item) :=
  List.filterMap_flatMap ..

theorem statements_ofBlock (block : Block) :
    statements (ofBlock .declarations block) =
      block.statements.flatMap Stmt.withDescendants := by
  rw [ofBlock_eq_flatMap, statements_flatMap]
  rfl

theorem statements_ofFallback (fallback : Option Block) :
    statements (ofFallback .declarations fallback) =
      fallback.toList.flatMap fun body => body.statements.flatMap Stmt.withDescendants := by
  cases fallback with
  | none => rfl
  | some body => simp [ofFallback, statements_ofBlock]

theorem statements_ofFunction (declaration : FunctionDecl) :
    statements (ofFunction declaration) =
      declaration.body.statements.flatMap Stmt.withDescendants := by
  simp [ofFunction_eq, statements_ofBlock]

theorem statements_ofMembers (members : List ClassMember) :
    statements (ofMembers members) =
      (members.filterMap ClassMember.body?).flatMap fun body =>
        body.statements.flatMap Stmt.withDescendants := by
  induction members with
  | nil => rfl
  | cons head tail ih =>
      cases head with
      | field access binding =>
          rw [ofMembers, statements_append, statements_map_expression, List.nil_append, ih]
          rfl
      | method access declaration =>
          rw [ofMembers, statements_append, statements_ofFunction, ih]
          rfl

end Node

namespace Stmt

/-- Reading meets a statement, and then its children with all that is in them. -/
theorem withDescendants_eq (statement : Stmt) :
    statement.withDescendants = statement :: statement.children.flatMap withDescendants := by
  rw [withDescendants, children, List.flatMap_append, List.flatMap_assoc]
  cases statement with
  | simple line action => simp [Node.ofStmt, Node.ofAction, Optimize.ownBlocks, negative?]
  | function line declaration =>
      simp [Node.ofStmt, Node.statements_ofFunction, Optimize.ownBlocks, negative?]
  | classDecl line declaration =>
      rcases declaration with ⟨classLine, kind, name, bases, members⟩
      simp [Node.ofStmt, Node.statements_ofMembers, Optimize.ownBlocks_classDecl, negative?]
  | nested line opener body =>
      simp [Node.ofStmt, Node.statements_ofBlock, Optimize.ownBlocks, negative?]
  | branch line condition positive negative =>
      cases negative <;>
        simp [Node.ofStmt, Node.statements_ofBlock, Node.ofNegative, Optimize.ownBlocks, negative?,
          withDescendants]
  | switch line scrutinee cases fallback =>
      simp [Node.ofStmt, Node.ofCases_eq_flatMap, Node.statements_flatMap, Node.statements_ofBlock,
        Node.statements_ofFallback, Optimize.ownBlocks, negative?, List.flatMap_map]
  | select line scrutinee arms fallback =>
      simp [Node.ofStmt, Node.ofArms_eq_flatMap, Node.statements_flatMap, Node.statements_ofBlock,
        Node.statements_ofFallback, Optimize.ownBlocks, negative?, List.flatMap_map]
  | attempt line body binding handler =>
      simp [Node.ofStmt, Node.statements_ofBlock, Optimize.ownBlocks, negative?]

end Stmt

/-- The statements of a block, each with all that is in it. -/
def Block.descendants (block : Block) : List Stmt :=
  block.statements.flatMap Stmt.withDescendants

/-- The statements of the methods of a class. -/
def ClassDecl.descendants (declaration : ClassDecl) : List Stmt :=
  (declaration.members.filterMap ClassMember.body?).flatMap Block.descendants

namespace Stmt

theorem withDescendants_eq_blocks (statement : Stmt) :
    statement.withDescendants = statement ::
      ((Optimize.ownBlocks statement).flatMap Block.descendants ++
        statement.negative?.toList.flatMap withDescendants) := by
  rw [withDescendants_eq, children, List.flatMap_append, List.flatMap_assoc]
  rfl

section

variable (line : Nat)

theorem withDescendants_simple (action : Action) :
    (simple line action).withDescendants = [simple line action] :=
  withDescendants_eq_blocks _

theorem withDescendants_function (declaration : FunctionDecl) :
    (function line declaration).withDescendants =
      function line declaration :: declaration.body.descendants := by
  simp [withDescendants_eq_blocks, Optimize.ownBlocks, negative?]

theorem withDescendants_classDecl (declaration : ClassDecl) :
    (classDecl line declaration).withDescendants =
      classDecl line declaration :: declaration.descendants := by
  simp [withDescendants_eq_blocks, Optimize.ownBlocks_classDecl, negative?,
    ClassDecl.descendants]

theorem withDescendants_nested (opener : Opener) (body : Block) :
    (nested line opener body).withDescendants = nested line opener body :: body.descendants := by
  simp [withDescendants_eq_blocks, Optimize.ownBlocks, negative?]

theorem withDescendants_branch (condition : Expr) (positive : Block) (negative : Option Stmt) :
    (branch line condition positive negative).withDescendants =
      branch line condition positive negative ::
        (positive.descendants ++ negative.toList.flatMap withDescendants) := by
  rw [withDescendants_eq_blocks]
  simp [Optimize.ownBlocks, negative?]

theorem withDescendants_switch (scrutinee : Expr) (cases : List SwitchCase)
    (fallback : Option Block) :
    (switch line scrutinee cases fallback).withDescendants =
      switch line scrutinee cases fallback ::
        (cases.flatMap (·.body.descendants) ++ fallback.toList.flatMap Block.descendants) := by
  simp [withDescendants_eq_blocks, Optimize.ownBlocks, negative?, List.flatMap_map]

theorem withDescendants_select (scrutinee : Expr) (arms : List MatchArm)
    (fallback : Option Block) :
    (select line scrutinee arms fallback).withDescendants =
      select line scrutinee arms fallback ::
        (arms.flatMap (·.body.descendants) ++ fallback.toList.flatMap Block.descendants) := by
  simp [withDescendants_eq_blocks, Optimize.ownBlocks, negative?, List.flatMap_map]

theorem withDescendants_attempt (body : Block) (binding : Option String) (handler : Block) :
    (attempt line body binding handler).withDescendants =
      attempt line body binding handler :: (body.descendants ++ handler.descendants) := by
  simp [withDescendants_eq_blocks, Optimize.ownBlocks, negative?]

end

end Stmt

theorem Block.forall_of_descendants {property motive : Stmt → Prop} {block : Block}
    (hblock : block.Forall fun statement =>
      (∀ inner ∈ statement.withDescendants, property inner) → motive statement)
    (hinner : ∀ inner ∈ block.descendants, property inner) : block.Forall motive :=
  fun statement hstatement => hblock statement hstatement fun inner hmem =>
    hinner inner (List.mem_flatMap.mpr ⟨statement, hstatement, hmem⟩)

namespace Stmt

section

variable {property motive : Stmt → Prop}
variable (simple : ∀ line action, property (.simple line action) → motive (.simple line action))
variable (function : ∀ line declaration, property (.function line declaration) →
  declaration.body.Forall motive → motive (.function line declaration))
variable (classDecl : ∀ line declaration, property (.classDecl line declaration) →
  (∀ access method, .method access method ∈ declaration.members → method.body.Forall motive) →
    motive (.classDecl line declaration))
variable (nested : ∀ line opener body, property (.nested line opener body) →
  body.Forall motive → motive (.nested line opener body))
variable (branch : ∀ line condition positive negative,
  property (.branch line condition positive negative) → positive.Forall motive →
    (∀ statement ∈ negative, motive statement) → motive (.branch line condition positive negative))
variable (switch : ∀ line scrutinee cases fallback,
  property (.switch line scrutinee cases fallback) →
    (∀ clause ∈ cases, clause.body.Forall motive) → (∀ body ∈ fallback, body.Forall motive) →
      motive (.switch line scrutinee cases fallback))
variable (select : ∀ line scrutinee arms fallback,
  property (.select line scrutinee arms fallback) →
    (∀ clause ∈ arms, clause.body.Forall motive) → (∀ body ∈ fallback, body.Forall motive) →
      motive (.select line scrutinee arms fallback))
variable (attempt : ∀ line body binding handler, property (.attempt line body binding handler) →
  body.Forall motive → handler.Forall motive → motive (.attempt line body binding handler))

include simple function classDecl nested branch switch select attempt

/-- Induction on a statement with a property that it and every statement in it has. -/
theorem induction_of_forall (statement : Stmt)
    (hall : ∀ inner ∈ statement.withDescendants, property inner) : motive statement := by
  induction statement with
  | simple line action =>
      exact simple line action (hall _ (by simp [withDescendants_simple]))
  | function line declaration ih =>
      rw [withDescendants_function, List.forall_mem_cons] at hall
      exact function line declaration hall.1 (Block.forall_of_descendants ih hall.2)
  | classDecl line declaration ih =>
      rw [withDescendants_classDecl, List.forall_mem_cons] at hall
      refine classDecl line declaration hall.1 fun access method hmember =>
        Block.forall_of_descendants (ih access method hmember) fun inner hinner =>
          hall.2 inner (List.mem_flatMap.mpr ⟨method.body, ?_, hinner⟩)
      exact List.mem_filterMap.mpr ⟨_, hmember, rfl⟩
  | nested line opener body ih =>
      rw [withDescendants_nested, List.forall_mem_cons] at hall
      exact nested line opener body hall.1 (Block.forall_of_descendants ih hall.2)
  | branch line condition positive negative ihPositive ihNegative =>
      rw [withDescendants_branch, List.forall_mem_cons, List.forall_mem_append,
        List.forall_mem_flatMap] at hall
      exact branch line condition positive negative hall.1
        (Block.forall_of_descendants ihPositive hall.2.1) fun statement hstatement =>
          ihNegative statement hstatement
            (hall.2.2 statement (Option.mem_toList.mpr hstatement))
  | switch line scrutinee clauses fallback ihClauses ihFallback =>
      rw [withDescendants_switch, List.forall_mem_cons, List.forall_mem_append,
        List.forall_mem_flatMap, List.forall_mem_flatMap] at hall
      exact switch line scrutinee clauses fallback hall.1
        (fun clause hclause => Block.forall_of_descendants (ihClauses clause hclause)
          (hall.2.1 clause hclause))
        fun body hbody => Block.forall_of_descendants (ihFallback body hbody)
          (hall.2.2 body (Option.mem_toList.mpr hbody))
  | select line scrutinee clauses fallback ihClauses ihFallback =>
      rw [withDescendants_select, List.forall_mem_cons, List.forall_mem_append,
        List.forall_mem_flatMap, List.forall_mem_flatMap] at hall
      exact select line scrutinee clauses fallback hall.1
        (fun clause hclause => Block.forall_of_descendants (ihClauses clause hclause)
          (hall.2.1 clause hclause))
        fun body hbody => Block.forall_of_descendants (ihFallback body hbody)
          (hall.2.2 body (Option.mem_toList.mpr hbody))
  | attempt line body binding handler ihBody ihHandler =>
      rw [withDescendants_attempt, List.forall_mem_cons, List.forall_mem_append] at hall
      exact attempt line body binding handler hall.1
        (Block.forall_of_descendants ihBody hall.2.1)
        (Block.forall_of_descendants ihHandler hall.2.2)

end

end Stmt

theorem Program.allStatements_eq_flatMap (program : Program) :
    program.allStatements = program.flatMap Stmt.withDescendants := by
  rw [allStatements, nodes, Node.ofStmts_eq_flatMap]
  exact Node.statements_flatMap program _

theorem Program.forall_withDescendants {property : Stmt → Prop} {program : Program}
    (hall : ∀ statement ∈ program.allStatements, property statement) {statement : Stmt}
    (hstatement : statement ∈ program) : ∀ inner ∈ statement.withDescendants, property inner := by
  rw [allStatements_eq_flatMap, List.forall_mem_flatMap] at hall
  exact hall statement hstatement

/-! ## Passes -/

namespace Pass

variable (pass : Pass)

theorem ownBlocks_stmt (statement : Stmt) :
    Optimize.ownBlocks (pass.stmt statement) =
      (Optimize.ownBlocks statement).map pass.block := by
  cases statement with
  | simple | nested | branch | attempt => rfl
  | function line declaration =>
      rw [stmt, function_eq]
      rfl
  | classDecl line declaration =>
      rcases declaration with ⟨classLine, kind, name, bases, members⟩
      rw [stmt, Optimize.ownBlocks_classDecl, Optimize.ownBlocks_classDecl, members_eq_map,
        List.filterMap_map, List.map_filterMap]
      apply List.filterMap_congr
      intro classMember _
      cases classMember with
      | field => rfl
      | method access declaration => simp [member, function_eq, ClassMember.body?]
  | switch line scrutinee cases fallback =>
      simp [stmt, Optimize.ownBlocks, cases_eq_map, fallback_eq_map, Option.toList_map]
  | select line scrutinee arms fallback =>
      simp [stmt, Optimize.ownBlocks, arms_eq_map, fallback_eq_map, Option.toList_map]

theorem negative?_stmt (statement : Stmt) :
    (pass.stmt statement).negative? = statement.negative?.map pass.stmt := by
  cases statement with
  | branch line condition positive negative => exact pass.negative_eq_map negative
  | classDecl line declaration =>
      rcases declaration with ⟨classLine, kind, name, bases, members⟩
      rfl
  | _ => rfl

/-- The children after a pass are those that it leaves in each block. -/
theorem children_stmt (statement : Stmt) :
    (pass.stmt statement).children =
      (Optimize.ownBlocks statement).flatMap
          (fun block => pass.statements (block.statements.map pass.stmt)) ++
        statement.negative?.toList.map pass.stmt := by
  rw [Stmt.children, ownBlocks_stmt, negative?_stmt, Option.toList_map, List.flatMap_map]
  simp only [block_eq]

theorem map_children (statement : Stmt) :
    statement.children.map pass.stmt =
      (Optimize.ownBlocks statement).flatMap (fun block => block.statements.map pass.stmt) ++
        statement.negative?.toList.map pass.stmt := by
  rw [Stmt.children, List.map_append, List.map_flatMap]

variable {pass}

/-- A pass that leaves every statement in its block meets the same statements as before. -/
theorem withDescendants_stmt (hall : ∀ statements, pass.statements statements = statements)
    (statement : Stmt) :
    (pass.stmt statement).withDescendants = statement.withDescendants.map pass.stmt := by
  induction statement using Stmt.induction_children with
  | parent statement ih =>
      have hchildren : (pass.stmt statement).children = statement.children.map pass.stmt := by
        simp only [children_stmt, map_children, hall]
      rw [Stmt.withDescendants_eq, Stmt.withDescendants_eq statement, hchildren, List.map_cons,
        List.flatMap_map, List.map_flatMap]
      congr 1
      exact List.flatMap_congr ih

/-- A pass that leaves some of the statements in each block meets no others than before. -/
theorem withDescendants_stmt_sublist
    (hsome : ∀ statements, (pass.statements statements).Sublist statements) (statement : Stmt) :
    (pass.stmt statement).withDescendants.Sublist (statement.withDescendants.map pass.stmt) := by
  induction statement using Stmt.induction_children with
  | parent statement ih =>
      have hchildren :
          (pass.stmt statement).children.Sublist (statement.children.map pass.stmt) := by
        rw [children_stmt, map_children]
        apply List.Sublist.append_right
        exact List.Sublist.flatMap_right _ fun block _ => hsome _
      rw [Stmt.withDescendants_eq, Stmt.withDescendants_eq statement, List.map_cons,
        List.map_flatMap]
      apply List.Sublist.cons_cons
      refine (hchildren.flatMap Stmt.withDescendants).trans ?_
      rw [List.flatMap_map]
      exact List.Sublist.flatMap_right _ ih

theorem allStatements_program (hall : ∀ statements, pass.statements statements = statements)
    (program : Program) :
    (pass.program program).allStatements = program.allStatements.map pass.stmt := by
  rw [Program.allStatements_eq_flatMap, Program.allStatements_eq_flatMap, Pass.program,
    stmts_eq_map, List.flatMap_map, List.map_flatMap]
  exact List.flatMap_congr fun statement _ => withDescendants_stmt hall statement

theorem allStatements_program_sublist
    (hsome : ∀ statements, (pass.statements statements).Sublist statements)
    (program : Program) :
    (pass.program program).allStatements.Sublist (program.allStatements.map pass.stmt) := by
  rw [Program.allStatements_eq_flatMap, Program.allStatements_eq_flatMap, Pass.program,
    stmts_eq_map, List.flatMap_map, List.map_flatMap]
  exact List.Sublist.flatMap_right _ fun statement _ =>
    withDescendants_stmt_sublist hsome statement

end Pass

end Tide
