import Tide.Proofs.Tree.Induction
import Tide.Tree.Node

/-!
# What stands where in a program

Which statements stand in a block, which functions a program declares and which calls an expression
makes are relations here, read off the trees one level at a time.  Reading the nodes of a tree meets
everything that stands in it and nothing else.
-/

namespace Tide

/-! ## Statements -/

namespace Stmt

/-- The second statement stands directly in a block of the first, or is its negative branch.
Functions and classes hold no statements: what they declare is not run where they stand. -/
inductive Holds : Stmt → Stmt → Prop
  | nested {line opener body child} (hchild : child ∈ body.statements) :
      Holds (.nested line opener body) child
  | positive {line condition positive negative child} (hchild : child ∈ positive.statements) :
      Holds (.branch line condition positive negative) child
  | negative {line condition positive child} :
      Holds (.branch line condition positive (some child)) child
  | case {line scrutinee cases fallback clause child} (hclause : clause ∈ cases)
      (hchild : child ∈ clause.body.statements) :
      Holds (.switch line scrutinee cases fallback) child
  | switchFallback {line scrutinee cases body child} (hchild : child ∈ body.statements) :
      Holds (.switch line scrutinee cases (some body)) child
  | arm {line scrutinee arms fallback clause child} (hclause : clause ∈ arms)
      (hchild : child ∈ clause.body.statements) :
      Holds (.select line scrutinee arms fallback) child
  | selectFallback {line scrutinee arms body child} (hchild : child ∈ body.statements) :
      Holds (.select line scrutinee arms (some body)) child
  | body {line body binding handler child} (hchild : child ∈ body.statements) :
      Holds (.attempt line body binding handler) child
  | handler {line body binding handler child} (hchild : child ∈ handler.statements) :
      Holds (.attempt line body binding handler) child

/-- The statement declares the function, itself or as a method of its class. -/
inductive Declares : Stmt → FunctionDecl → Prop
  | function {line declaration} : Declares (.function line declaration) declaration
  | method {line declaration access method}
      (hmethod : .method access method ∈ declaration.members) :
      Declares (.classDecl line declaration) method

/-- The expressions of a statement that belong to no statement in it. -/
def ownExpressions : Stmt → List Expr
  | .simple _ action => action.expressions
  | .nested _ opener _ => opener.expressions
  | .branch _ condition _ _ => [condition]
  | .switch _ scrutinee _ _ | .select _ scrutinee _ _ => [scrutinee]
  | .function _ _ | .classDecl _ _ | .attempt _ _ _ _ => []

/-- What passes to a statement from those it holds and from those of the functions it declares
belongs to every statement. -/
theorem induction_below {motive : Stmt → Prop}
    (below : ∀ statement, (∀ child, statement.Holds child → motive child) →
      (∀ declaration, statement.Declares declaration → declaration.body.Forall motive) →
      motive statement)
    (statement : Stmt) : motive statement := by
  induction statement with
  | simple line action => apply below <;> rintro _ ⟨⟩
  | function line declaration hbody =>
      apply below
      · rintro _ ⟨⟩
      · rintro _ ⟨⟩
        exact hbody
  | classDecl line declaration hmethods =>
      apply below
      · rintro _ ⟨⟩
      · intro method hdeclares
        cases hdeclares with
        | method hmethod => exact hmethods _ method hmethod
  | nested line opener body hbody =>
      apply below
      · rintro child ⟨hchild⟩
        exact hbody child hchild
      · rintro _ ⟨⟩
  | branch line condition positive negative hpositive hnegative =>
      apply below
      · intro child hholds
        cases hholds with
        | positive hchild => exact hpositive child hchild
        | negative => exact hnegative child rfl
      · rintro _ ⟨⟩
  | switch line scrutinee cases fallback hcases hfallback =>
      apply below
      · intro child hholds
        cases hholds with
        | case hclause hchild => exact hcases _ hclause child hchild
        | switchFallback hchild => exact hfallback _ rfl child hchild
      · rintro _ ⟨⟩
  | select line scrutinee arms fallback harms hfallback =>
      apply below
      · intro child hholds
        cases hholds with
        | arm hclause hchild => exact harms _ hclause child hchild
        | selectFallback hchild => exact hfallback _ rfl child hchild
      · rintro _ ⟨⟩
  | attempt line body binding handler hbody hhandler =>
      apply below
      · intro child hholds
        cases hholds with
        | body hchild => exact hbody child hchild
        | handler hchild => exact hhandler child hchild
      · rintro _ ⟨⟩

end Stmt

/-- The statement stands in the block at any depth, in no function or class declared there. -/
inductive Block.Contains (block : Block) : Stmt → Prop
  | direct {statement} (hstatement : statement ∈ block.statements) : Contains block statement
  | inner {parent child} (hparent : Contains block parent) (hholds : parent.Holds child) :
      Contains block child

namespace Program

/-- The statement stands anywhere in the program, also in the functions and classes it declares. -/
inductive Contains (program : Program) : Stmt → Prop
  | direct {statement} (hstatement : statement ∈ program) : Contains program statement
  | inner {parent child} (hparent : Contains program parent) (hholds : parent.Holds child) :
      Contains program child
  | declared {parent declaration child} (hparent : Contains program parent)
      (hdeclares : parent.Declares declaration) (hchild : child ∈ declaration.body.statements) :
      Contains program child

/-- The function, method or routine is declared anywhere in the program. -/
def Declares (program : Program) (declaration : FunctionDecl) : Prop :=
  ∃ statement, Contains program statement ∧ statement.Declares declaration

end Program

/-! ## Expressions -/

namespace Expr

/-- The second expression is the first or a part of it. -/
inductive HasPart : Expr → Expr → Prop
  | self (expression) : HasPart expression expression
  | operand {line operator operand part} (hpart : HasPart operand part) :
      HasPart (.unary line operator operand) part
  | left {line operator left right part} (hpart : HasPart left part) :
      HasPart (.binary line operator left right) part
  | right {line operator left right part} (hpart : HasPart right part) :
      HasPart (.binary line operator left right) part
  | condition {line condition positive negative part} (hpart : HasPart condition part) :
      HasPart (.ternary line condition positive negative) part
  | positive {line condition positive negative part} (hpart : HasPart positive part) :
      HasPart (.ternary line condition positive negative) part
  | negative {line condition positive negative part} (hpart : HasPart negative part) :
      HasPart (.ternary line condition positive negative) part
  | callee {line callee arguments part} (hpart : HasPart callee part) :
      HasPart (.call line callee arguments) part
  | argument {line callee arguments argument part} (hargument : argument ∈ arguments)
      (hpart : HasPart argument part) : HasPart (.call line callee arguments) part
  | target {line target place part} (hpart : HasPart target part) :
      HasPart (.index line target place) part
  | place {line target place part} (hpart : HasPart place part) :
      HasPart (.index line target place) part
  | owner {line target field part} (hpart : HasPart target part) :
      HasPart (.member line target field) part

/-- Some call in the expression goes by the name: its callee is that variable or member. -/
def Calls (expression : Expr) (name : String) : Prop :=
  ∃ line callee arguments, expression.HasPart (.call line callee arguments) ∧
    callee.calleeName = some name

theorem subtermsAll_eq_flatMap (expressions : List Expr) :
    subtermsAll expressions = expressions.flatMap subterms := by
  induction expressions with
  | nil => rfl
  | cons head tail ih => rw [subtermsAll, ih, List.flatMap_cons]

theorem mem_subterms_self (expression : Expr) : expression ∈ expression.subterms := by
  cases expression <;> simp [subterms]

theorem HasPart.mem_subterms {expression part : Expr} (hpart : HasPart expression part) :
    part ∈ expression.subterms := by
  induction hpart with
  | self expression => exact mem_subterms_self expression
  | argument hargument hpart ih =>
      simp only [subterms, subtermsAll_eq_flatMap, List.mem_cons, List.mem_append, List.mem_flatMap]
      exact .inr (.inr ⟨_, hargument, ih⟩)
  | _ => simp_all [subterms]

theorem hasPart_of_mem_subterms {expression part : Expr} (hpart : part ∈ expression.subterms) :
    HasPart expression part := by
  induction expression with
  | literal | name =>
      cases List.mem_singleton.mp hpart
      exact .self _
  | unary line operator operand ih =>
      rcases List.mem_cons.mp hpart with rfl | hpart
      · exact .self _
      · exact .operand (ih hpart)
  | binary line operator left right ihLeft ihRight =>
      simp only [subterms, List.mem_cons, List.mem_append] at hpart
      rcases hpart with rfl | hpart | hpart
      · exact .self _
      · exact .left (ihLeft hpart)
      · exact .right (ihRight hpart)
  | ternary line condition positive negative ihCondition ihPositive ihNegative =>
      simp only [subterms, List.mem_cons, List.mem_append] at hpart
      rcases hpart with rfl | (hpart | hpart) | hpart
      · exact .self _
      · exact .condition (ihCondition hpart)
      · exact .positive (ihPositive hpart)
      · exact .negative (ihNegative hpart)
  | call line callee arguments ihCallee ihArguments =>
      simp only [subterms, subtermsAll_eq_flatMap, List.mem_cons, List.mem_append,
        List.mem_flatMap] at hpart
      rcases hpart with rfl | hpart | ⟨argument, hargument, hpart⟩
      · exact .self _
      · exact .callee (ihCallee hpart)
      · exact .argument hargument (ihArguments argument hargument hpart)
  | index line target place ihTarget ihPlace =>
      simp only [subterms, List.mem_cons, List.mem_append] at hpart
      rcases hpart with rfl | hpart | hpart
      · exact .self _
      · exact .target (ihTarget hpart)
      · exact .place (ihPlace hpart)
  | member line target field ih =>
      rcases List.mem_cons.mp hpart with rfl | hpart
      · exact .self _
      · exact .owner (ih hpart)

end Expr

/-! ## Nodes -/

namespace Node

section

variable (reach : Reach)

theorem ofStmts_eq_flatMap (statements : List Stmt) :
    ofStmts reach statements = statements.flatMap (ofStmt reach) := by
  induction statements with
  | nil => rfl
  | cons head tail ih => rw [ofStmts, ih, List.flatMap_cons]

theorem ofBlock_eq_flatMap (block : Block) :
    ofBlock reach block = block.statements.flatMap (ofStmt reach) := by
  rcases block with ⟨line, statements⟩
  rw [ofBlock, ofStmts_eq_flatMap]

theorem ofCases_eq_flatMap (cases : List SwitchCase) :
    ofCases reach cases = cases.flatMap fun clause => ofBlock reach clause.body := by
  induction cases with
  | nil => rfl
  | cons head tail ih =>
      rcases head with ⟨label, body⟩
      rw [ofCases, ih, List.flatMap_cons]

theorem ofArms_eq_flatMap (arms : List MatchArm) :
    ofArms reach arms = arms.flatMap fun clause => ofBlock reach clause.body := by
  induction arms with
  | nil => rfl
  | cons head tail ih =>
      rcases head with ⟨patterns, body⟩
      rw [ofArms, ih, List.flatMap_cons]

theorem ofMembers_eq_flatMap (members : List ClassMember) :
    ofMembers members = members.flatMap fun member => ofMembers [member] := by
  induction members with
  | nil => rfl
  | cons head tail ih => cases head <;> simp [ofMembers, ← ih]

end

variable {reach : Reach} {node : Node}

theorem mem_ofBlock {block : Block} {statement : Stmt} (hstatement : statement ∈ block.statements)
    (hnode : node ∈ ofStmt reach statement) : node ∈ ofBlock reach block := by
  rw [ofBlock_eq_flatMap]
  exact List.mem_flatMap_of_mem hstatement hnode

theorem mem_ofCases {cases : List SwitchCase} {clause : SwitchCase} (hclause : clause ∈ cases)
    (hnode : node ∈ ofBlock reach clause.body) : node ∈ ofCases reach cases := by
  rw [ofCases_eq_flatMap]
  exact List.mem_flatMap.mpr ⟨clause, hclause, hnode⟩

theorem mem_ofArms {arms : List MatchArm} {clause : MatchArm} (hclause : clause ∈ arms)
    (hnode : node ∈ ofBlock reach clause.body) : node ∈ ofArms reach arms := by
  rw [ofArms_eq_flatMap]
  exact List.mem_flatMap.mpr ⟨clause, hclause, hnode⟩

theorem mem_ofMembers {members : List ClassMember} {access : Access} {method : FunctionDecl}
    (hmethod : .method access method ∈ members) (hnode : node ∈ ofFunction method) :
    node ∈ ofMembers members := by
  rw [ofMembers_eq_flatMap]
  apply List.mem_flatMap.mpr
  exact ⟨_, hmethod, List.mem_append_left _ hnode⟩

theorem mem_ofStmt_self (statement : Stmt) : .statement statement ∈ ofStmt reach statement := by
  cases statement with
  | classDecl line declaration =>
      rcases declaration with ⟨classLine, kind, name, bases, members⟩
      exact List.mem_cons_self
  | _ => exact List.mem_cons_self

theorem mem_ofStmt_expression {statement : Stmt} {expression : Expr}
    (hexpression : expression ∈ statement.ownExpressions) :
    .expression expression ∈ ofStmt reach statement := by
  cases statement <;> simp_all [Stmt.ownExpressions, ofStmt, ofAction]

/-- Reading a statement meets every node of the statements it holds. -/
theorem mem_ofStmt_of_holds {parent child : Stmt} (hholds : parent.Holds child)
    (hnode : node ∈ ofStmt reach child) : node ∈ ofStmt reach parent := by
  cases hholds with
  | nested hchild => simp [ofStmt, mem_ofBlock hchild hnode]
  | positive hchild => simp [ofStmt, mem_ofBlock hchild hnode]
  | negative => simp [ofStmt, ofNegative, hnode]
  | case hclause hchild => simp [ofStmt, mem_ofCases hclause (mem_ofBlock hchild hnode)]
  | switchFallback hchild => simp [ofStmt, ofFallback, mem_ofBlock hchild hnode]
  | arm hclause hchild => simp [ofStmt, mem_ofArms hclause (mem_ofBlock hchild hnode)]
  | selectFallback hchild => simp [ofStmt, ofFallback, mem_ofBlock hchild hnode]
  | body hchild => simp [ofStmt, mem_ofBlock hchild hnode]
  | handler hchild => simp [ofStmt, mem_ofBlock hchild hnode]

theorem ofFunction_eq (declaration : FunctionDecl) :
    ofFunction declaration = .function declaration ::
      (declaration.overlays.map overlay ++ ofBlock .declarations declaration.body) := by
  rcases declaration with ⟨line, flavor, name, parameters, result, overlays, body⟩
  rfl

/-- Reading a statement meets every node of the functions it declares. -/
theorem mem_ofStmt_of_declares {statement : Stmt} {declaration : FunctionDecl}
    (hdeclares : statement.Declares declaration) (hnode : node ∈ ofFunction declaration) :
    node ∈ ofStmt .declarations statement := by
  cases hdeclares with
  | function => exact List.mem_cons_of_mem _ hnode
  | @method line owner access method hmethod =>
      rcases owner with ⟨classLine, kind, name, bases, members⟩
      exact List.mem_cons_of_mem _ (mem_ofMembers hmethod hnode)

/-! ### Owners -/

/-- The node is the statement, an overlay, or something that the statement has or declares itself
and not through another statement. -/
inductive BelongsTo (reach : Reach) (statement : Stmt) : Node → Prop
  | self : BelongsTo reach statement (.statement statement)
  | overlay {overlay} : BelongsTo reach statement (.overlay overlay)
  | expression {expression} (hown : expression ∈ statement.ownExpressions) :
      BelongsTo reach statement (.expression expression)
  | function {declaration} (hreach : reach = .declarations)
      (hdeclares : statement.Declares declaration) :
      BelongsTo reach statement (.function declaration)
  | field {line declaration access binding value} (hreach : reach = .declarations)
      (hstatement : statement = .classDecl line declaration)
      (hfield : .field access binding ∈ declaration.members) (hvalue : value ∈ binding.value) :
      BelongsTo reach statement (.expression value)

theorem exists_child_of_mem_ofBlock {block : Block} (hnode : node ∈ ofBlock reach block) :
    ∃ child ∈ block.statements, node ∈ ofStmt reach child := by
  rw [ofBlock_eq_flatMap] at hnode
  exact List.mem_flatMap.mp hnode

theorem mem_ofFunction_cases {declaration : FunctionDecl} (hnode : node ∈ ofFunction declaration) :
    node = .function declaration ∨ (∃ overlay, node = .overlay overlay) ∨
      ∃ child ∈ declaration.body.statements, node ∈ ofStmt .declarations child := by
  rw [ofFunction_eq] at hnode
  rcases List.mem_cons.mp hnode with rfl | hnode
  · exact .inl rfl
  rcases List.mem_append.mp hnode with hoverlay | hbody
  · obtain ⟨overlay, -, rfl⟩ := List.mem_map.mp hoverlay
    exact .inr (.inl ⟨overlay, rfl⟩)
  · exact .inr (.inr (exists_child_of_mem_ofBlock hbody))

/-- What the nodes of a statement are: its own, those of the statements it holds, and those of the
functions it declares. -/
theorem mem_ofStmt_cases {statement : Stmt} (hnode : node ∈ ofStmt reach statement) :
    BelongsTo reach statement node ∨
      (∃ child, statement.Holds child ∧ node ∈ ofStmt reach child) ∨
      reach = .declarations ∧ ∃ declaration, statement.Declares declaration ∧
        ∃ child ∈ declaration.body.statements, node ∈ ofStmt .declarations child := by
  cases statement with
  | simple line action =>
      simp only [ofStmt, ofAction, List.mem_cons, List.mem_append, List.mem_map] at hnode
      left
      rcases hnode with rfl | ⟨overlay, -, rfl⟩ | ⟨expression, hexpression, rfl⟩
      · exact .self
      · exact .overlay
      · exact .expression hexpression
  | function line declaration =>
      rcases List.mem_cons.mp hnode with rfl | hnode
      · exact .inl .self
      cases reach with
      | ownBody => simp at hnode
      | declarations =>
          rcases mem_ofFunction_cases hnode with rfl | ⟨overlay, rfl⟩ | hbody
          · exact .inl (.function rfl .function)
          · exact .inl .overlay
          · exact .inr (.inr ⟨rfl, declaration, .function, hbody⟩)
  | classDecl line declaration =>
      rcases declaration with ⟨classLine, kind, name, bases, members⟩
      rcases List.mem_cons.mp hnode with rfl | hnode
      · exact .inl .self
      cases reach with
      | ownBody => simp at hnode
      | declarations =>
          rw [ofMembers_eq_flatMap] at hnode
          obtain ⟨member, hmember, hnode⟩ := List.mem_flatMap.mp hnode
          cases member with
          | field access binding =>
              simp only [ofMembers, List.append_nil, List.mem_map, Option.mem_toList] at hnode
              obtain ⟨value, hvalue, rfl⟩ := hnode
              exact .inl (.field rfl rfl hmember hvalue)
          | method access method =>
              rw [ofMembers, ofMembers, List.append_nil] at hnode
              rcases mem_ofFunction_cases hnode with rfl | ⟨overlay, rfl⟩ | hbody
              · exact .inl (.function rfl (.method hmember))
              · exact .inl .overlay
              · exact .inr (.inr ⟨rfl, method, .method hmember, hbody⟩)
  | nested line opener body =>
      simp only [ofStmt, List.mem_cons, List.mem_append, List.mem_map] at hnode
      rcases hnode with rfl | ⟨expression, hexpression, rfl⟩ | hbody
      · exact .inl .self
      · exact .inl (.expression hexpression)
      · obtain ⟨child, hchild, hnode⟩ := exists_child_of_mem_ofBlock hbody
        exact .inr (.inl ⟨child, .nested hchild, hnode⟩)
  | branch line condition positive negative =>
      simp only [ofStmt, List.mem_cons, List.mem_append] at hnode
      rcases hnode with rfl | rfl | hpositive | hnegative
      · exact .inl .self
      · exact .inl (.expression List.mem_cons_self)
      · obtain ⟨child, hchild, hnode⟩ := exists_child_of_mem_ofBlock hpositive
        exact .inr (.inl ⟨child, .positive hchild, hnode⟩)
      · cases negative with
        | none => simp [ofNegative] at hnegative
        | some child => exact .inr (.inl ⟨child, .negative, hnegative⟩)
  | switch line scrutinee cases fallback =>
      simp only [ofStmt, ofCases_eq_flatMap, List.mem_cons, List.mem_append, List.mem_flatMap]
        at hnode
      rcases hnode with rfl | rfl | ⟨clause, hclause, hbody⟩ | hfallback
      · exact .inl .self
      · exact .inl (.expression List.mem_cons_self)
      · obtain ⟨child, hchild, hnode⟩ := exists_child_of_mem_ofBlock hbody
        exact .inr (.inl ⟨child, .case hclause hchild, hnode⟩)
      · cases fallback with
        | none => simp [ofFallback] at hfallback
        | some body =>
            obtain ⟨child, hchild, hnode⟩ := exists_child_of_mem_ofBlock hfallback
            exact .inr (.inl ⟨child, .switchFallback hchild, hnode⟩)
  | select line scrutinee arms fallback =>
      simp only [ofStmt, ofArms_eq_flatMap, List.mem_cons, List.mem_append, List.mem_flatMap]
        at hnode
      rcases hnode with rfl | rfl | ⟨clause, hclause, hbody⟩ | hfallback
      · exact .inl .self
      · exact .inl (.expression List.mem_cons_self)
      · obtain ⟨child, hchild, hnode⟩ := exists_child_of_mem_ofBlock hbody
        exact .inr (.inl ⟨child, .arm hclause hchild, hnode⟩)
      · cases fallback with
        | none => simp [ofFallback] at hfallback
        | some body =>
            obtain ⟨child, hchild, hnode⟩ := exists_child_of_mem_ofBlock hfallback
            exact .inr (.inl ⟨child, .selectFallback hchild, hnode⟩)
  | attempt line body binding handler =>
      simp only [ofStmt, List.mem_cons, List.mem_append] at hnode
      rcases hnode with rfl | hbody | hhandler
      · exact .inl .self
      · obtain ⟨child, hchild, hnode⟩ := exists_child_of_mem_ofBlock hbody
        exact .inr (.inl ⟨child, .body hchild, hnode⟩)
      · obtain ⟨child, hchild, hnode⟩ := exists_child_of_mem_ofBlock hhandler
        exact .inr (.inl ⟨child, .handler hchild, hnode⟩)

/-- Where `inside` goes on to the statements that are read on the way, every node that is read
belongs to a statement inside. -/
theorem exists_owner {inside : Stmt → Prop}
    (hholds : ∀ parent child, inside parent → parent.Holds child → inside child)
    (hdeclares : reach = .declarations → ∀ parent declaration child, inside parent →
      parent.Declares declaration → child ∈ declaration.body.statements → inside child)
    {statement : Stmt} (hstatement : inside statement) (hnode : node ∈ ofStmt reach statement) :
    ∃ owner, inside owner ∧ BelongsTo reach owner node := by
  induction statement using Stmt.induction_below with
  | below statement hheld hdeclared =>
      rcases mem_ofStmt_cases hnode with hbelongs | ⟨child, hchild, hnode⟩ |
        ⟨rfl, declaration, hdeclaration, child, hchild, hnode⟩
      · exact ⟨statement, hstatement, hbelongs⟩
      · exact hheld child hchild (hholds statement child hstatement hchild) hnode
      · exact hdeclared declaration hdeclaration child hchild
          (hdeclares rfl statement declaration child hstatement hdeclaration hchild) hnode

end Node

/-- Reading a block meets every node of the statements in it. -/
theorem Block.Contains.mem_ofBlock {block : Block} {statement : Stmt}
    (hcontains : block.Contains statement) {reach : Node.Reach} {node : Node}
    (hnode : node ∈ Node.ofStmt reach statement) : node ∈ Node.ofBlock reach block := by
  induction hcontains with
  | direct hstatement => exact Node.mem_ofBlock hstatement hnode
  | inner hparent hholds ih => exact ih (Node.mem_ofStmt_of_holds hholds hnode)

/-- Every node of a body, declarations in it apart, belongs to a statement of the body. -/
theorem Block.exists_owner_of_mem_ofBlock {block : Block} {node : Node}
    (hnode : node ∈ Node.ofBlock .ownBody block) :
    ∃ owner, block.Contains owner ∧ Node.BelongsTo .ownBody owner node := by
  rw [Node.ofBlock_eq_flatMap] at hnode
  obtain ⟨top, htop, hnode⟩ := List.mem_flatMap.mp hnode
  apply Node.exists_owner _ _ (.direct htop) hnode
  · intro parent child hparent hholds
    exact .inner hparent hholds
  · intro hreach
    cases hreach

namespace Program

/-- Reading a program meets every node of the statements anywhere in it. -/
theorem Contains.mem_nodes {program : Program} {statement : Stmt}
    (hcontains : Contains program statement) {node : Node}
    (hnode : node ∈ Node.ofStmt .declarations statement) : node ∈ program.nodes := by
  induction hcontains with
  | direct hstatement =>
      rw [nodes, Node.ofStmts_eq_flatMap]
      exact List.mem_flatMap_of_mem hstatement hnode
  | inner hparent hholds ih => exact ih (Node.mem_ofStmt_of_holds hholds hnode)
  | declared hparent hdeclares hchild ih =>
      apply ih
      apply Node.mem_ofStmt_of_declares hdeclares
      simp [Node.ofFunction_eq, Node.mem_ofBlock hchild hnode]

/-- Every node of a program belongs to a statement that stands anywhere in it. -/
theorem exists_owner_of_mem_nodes {program : Program} {node : Node} (hnode : node ∈ program.nodes) :
    ∃ owner, Contains program owner ∧ Node.BelongsTo .declarations owner node := by
  rw [nodes, Node.ofStmts_eq_flatMap] at hnode
  obtain ⟨top, htop, hnode⟩ := List.mem_flatMap.mp hnode
  apply Node.exists_owner _ _ (.direct htop) hnode
  · intro parent child hparent hholds
    exact .inner hparent hholds
  · intro _ parent declaration child hparent hdeclares hchild
    exact .declared hparent hdeclares hchild

/-- Reading a program meets exactly the statements that stand anywhere in it. -/
theorem mem_allStatements_iff {program : Program} {statement : Stmt} :
    statement ∈ program.allStatements ↔ Contains program statement := by
  rw [allStatements, List.mem_filterMap]
  constructor
  · rintro ⟨node, hnode, hstatement⟩
    obtain ⟨owner, hcontains, hbelongs⟩ := exists_owner_of_mem_nodes hnode
    cases hbelongs with
    | self =>
        cases hstatement
        exact hcontains
    | overlay | expression | function | field => cases hstatement
  · intro hcontains
    exact ⟨.statement statement, hcontains.mem_nodes (Node.mem_ofStmt_self statement), rfl⟩

/-- The functions of a program are those declared anywhere in it. -/
theorem Declares.mem_functions {program : Program} {declaration : FunctionDecl}
    (hdeclares : program.Declares declaration) : declaration ∈ program.functions := by
  obtain ⟨statement, hcontains, hdeclares⟩ := hdeclares
  rw [functions, List.mem_filterMap]
  refine ⟨.function declaration, ?_, rfl⟩
  apply hcontains.mem_nodes
  apply Node.mem_ofStmt_of_declares hdeclares
  simp [Node.ofFunction_eq]

theorem mem_functions_iff {program : Program} {declaration : FunctionDecl} :
    declaration ∈ program.functions ↔ program.Declares declaration := by
  constructor
  · intro hfunction
    obtain ⟨node, hnode, hdeclaration⟩ := List.mem_filterMap.mp hfunction
    obtain ⟨owner, hcontains, hbelongs⟩ := exists_owner_of_mem_nodes hnode
    cases hbelongs with
    | function hreach hdeclares =>
        cases hdeclaration
        exact ⟨owner, hcontains, hdeclares⟩
    | self | overlay | expression | field => cases hdeclaration
  · exact Declares.mem_functions

end Program

end Tide
