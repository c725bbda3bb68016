import Tide.Grammar.Statement
import Tide.Proofs.Grammar.Cursor
import Tide.Proofs.Tree.Occurrence

/-!
# What follows an `else`

The tree of an `if` could hold any statement for its `else`.  A program that was read holds only
blocks and further `if`s there, so an `if` with all that is chained to it is a row of blocks.
-/

namespace Tide

/-! ## Trees in form -/

/-- The statement can follow an `else`. -/
inductive Stmt.FollowsElse : Stmt → Prop
  | block {line body} : FollowsElse (.nested line .block body)
  | branch {line condition positive negative} :
      FollowsElse (.branch line condition positive negative)

/-- If the statement is an `if` with an `else`, what stands for the `else` can follow one. -/
def Stmt.ChainsElse (statement : Stmt) : Prop :=
  ∀ line condition positive negative,
    statement = .branch line condition positive (some negative) → negative.FollowsElse

theorem Stmt.chainsElse_branch {line : Nat} {condition : Expr} {positive : Block} {negative : Stmt}
    (hnegative : negative.FollowsElse) :
    ChainsElse (.branch line condition positive (some negative)) := by
  rintro _ _ _ _ hbranch
  cases hbranch
  exact hnegative

namespace Node

/-- Every `if` among the nodes chains its `else`. -/
def InForm (nodes : List Node) : Prop :=
  ∀ statement, .statement statement ∈ nodes → statement.ChainsElse

@[simp]
theorem inForm_nil : InForm [] := nofun

@[simp]
theorem inForm_append (front back : List Node) :
    InForm (front ++ back) ↔ InForm front ∧ InForm back := by
  simp only [InForm, List.mem_append, or_imp, forall_and]

@[simp]
theorem inForm_statement (statement : Stmt) (nodes : List Node) :
    InForm (.statement statement :: nodes) ↔ statement.ChainsElse ∧ InForm nodes := by
  simp only [InForm, List.mem_cons, Node.statement.injEq, or_imp, forall_and, forall_eq]

@[simp]
theorem inForm_expression (expression : Expr) (nodes : List Node) :
    InForm (.expression expression :: nodes) ↔ InForm nodes := by
  simp only [InForm, List.mem_cons, reduceCtorEq, false_or]

@[simp]
theorem inForm_function (declaration : FunctionDecl) (nodes : List Node) :
    InForm (.function declaration :: nodes) ↔ InForm nodes := by
  simp only [InForm, List.mem_cons, reduceCtorEq, false_or]

@[simp]
theorem inForm_map_expression (expressions : List Expr) : InForm (expressions.map expression) := by
  simp [InForm]

@[simp]
theorem inForm_map_overlay (overlays : List Overlay) : InForm (overlays.map overlay) := by
  simp [InForm]

theorem inForm_simple (line : Nat) (action : Action) :
    InForm (ofStmt .declarations (.simple line action)) := by
  simp [ofStmt, ofAction, Stmt.ChainsElse]

theorem inForm_nested {body : Block} (hbody : InForm (ofBlock .declarations body)) (line : Nat)
    (opener : Opener) : InForm (ofStmt .declarations (.nested line opener body)) := by
  simp [ofStmt, Stmt.ChainsElse, hbody]

theorem inForm_branch {positive : Block} {negative : Stmt}
    (hpositive : InForm (ofBlock .declarations positive))
    (hnegative : InForm (ofStmt .declarations negative)) (helse : negative.FollowsElse) (line : Nat)
    (condition : Expr) :
    InForm (ofStmt .declarations (.branch line condition positive (some negative))) := by
  simp [ofStmt, ofNegative, Stmt.chainsElse_branch helse, hpositive, hnegative]

end Node

namespace Parser

variable {α β : Type}

/-! ## What readers return -/

/-- Where the reader succeeds, what it returns has the property. -/
def Returns (reader : Parser α) (property : α → Prop) : Prop :=
  ∀ cursor value after, reader cursor = .ok value after → property value

namespace Returns

variable {property : α → Prop}

theorem pure {value : α} (hvalue : property value) : Returns (Pure.pure value) property := by
  intro cursor result after hread
  cases hread
  exact hvalue

theorem bind {middle : β → Prop} {first : Parser β} {next : β → Parser α}
    (hfirst : Returns first middle)
    (hnext : ∀ value, middle value → Returns (next value) property) :
    Returns (first >>= next) property := by
  intro cursor result after hread
  obtain ⟨value, between, hvalue, hresult⟩ := exists_of_bind_eq_ok hread
  exact hnext value (hfirst cursor value between hvalue) between result after hresult

/-- What was read before is of no importance. -/
theorem after {first : Parser β} {next : β → Parser α}
    (hnext : ∀ value, Returns (next value) property) : Returns (first >>= next) property :=
  .bind (fun _ _ _ _ => (trivial : (fun _ => True) _)) fun value _ => hnext value

theorem ite {condition : Prop} [Decidable condition] {yes no : Parser α}
    (hyes : Returns yes property) (hno : Returns no property) :
    Returns (if condition then yes else no) property :=
  iteInduction (motive := (Returns · property)) (fun _ => hyes) fun _ => hno

theorem failAt {line : Nat} {cause : ParseCause} :
    Returns (Parser.failAt line cause : Parser α) property := by
  intro cursor value after hread
  cases hread

theorem expected {what : Expectation} : Returns (Parser.expected what : Parser α) property :=
  .after fun _ => failAt

theorem failHere {cause : ParseCause} : Returns (Parser.failHere cause : Parser α) property :=
  .after fun _ => failAt

theorem tooDeep : Returns (Parser.tooDeep : Parser α) property := failHere

end Returns

/-! ## Each reader

The recursion is on the fuel, as in the readers.  A default clause that was read before is handed
down, so it has to be in form already. -/

open Node

mutual

theorem returns_block : ∀ fuel,
    Returns (block fuel) fun body => InForm (ofBlock .declarations body)
  | 0 => .tooDeep
  | fuel + 1 => by
      rw [block]
      refine .after fun opening => .after fun brace => .ite ?_ ?_
      · exact .bind (returns_statements _ _ fuel) fun _ hstatements => .pure hstatements
      refine .after fun parenthesis => .ite ?_ .expected
      exact .bind (returns_statements _ _ fuel) fun _ hstatements => .pure hstatements

theorem returns_statements (line : Nat) (close : Symbol) : ∀ fuel,
    Returns (statements line close fuel) fun statements => InForm (ofStmts .declarations statements)
  | 0 => .tooDeep
  | fuel + 1 => by
      rw [statements]
      refine .after fun _ => .after fun closed => .ite (.pure inForm_nil) ?_
      refine .after fun token => .ite .failAt ?_
      refine .bind (returns_statement fuel) fun first hfirst => ?_
      refine .bind (returns_statements line close fuel) fun rest hrest => .pure ?_
      rw [ofStmts, inForm_append]
      exact ⟨hfirst, hrest⟩

theorem returns_statement : ∀ fuel,
    Returns (statement fuel) fun statement => InForm (ofStmt .declarations statement)
  | 0 => .tooDeep
  | fuel + 1 => by
      rw [statement]
      refine .after fun token => .after fun assignment => ?_
      cases assignment with
      | some action => exact .pure (inForm_simple _ _)
      | none =>
          cases token.kind with
          | keyword word => exact returns_keywordStatement token.line word fuel
          | _ =>
              refine .ite ?_ ?_
              · exact .after fun value => .pure (inForm_simple _ _)
              · exact .after fun _ => .after fun _ => .pure (inForm_simple _ _)

theorem returns_keywordStatement (line : Nat) (word : Keyword) : ∀ fuel,
    Returns (keywordStatement line word fuel) fun statement =>
      InForm (ofStmt .declarations statement)
  | 0 => .tooDeep
  | fuel + 1 => by
      cases word with
      | ifWord =>
          intro cursor value after hread
          exact (returns_branch line fuel cursor value after hread).1
      | whileWord | schedule | forWord =>
          refine .after fun _ => .after fun _ => ?_
          exact .bind (returns_block fuel) fun body hbody => .pure (inForm_nested hbody _ _)
      | pureWord =>
          refine .after fun _ => ?_
          exact .bind (returns_block fuel) fun body hbody => .pure (inForm_nested hbody _ _)
      | switchWord =>
          refine .after fun _ => .after fun scrutinee => .after fun _ => ?_
          refine .bind (returns_switchClauses none inForm_nil fuel) fun clauses hclauses => .pure ?_
          simpa [ofStmt, Stmt.ChainsElse] using hclauses
      | matchWord =>
          refine .after fun _ => .after fun scrutinee => .after fun _ => ?_
          refine .bind (returns_matchClauses none inForm_nil fuel) fun clauses hclauses => .pure ?_
          simpa [ofStmt, Stmt.ChainsElse] using hclauses
      | tryWord =>
          refine .after fun _ => .bind (returns_block fuel) fun body hbody => ?_
          refine .after fun _ => .after fun binding => .ite (.after fun _ => ?_) ?_
          all_goals
            refine .bind (returns_block fuel) fun handler hhandler => .pure ?_
            simp [ofStmt, Stmt.ChainsElse, hbody, hhandler]
      | overlay =>
          refine .after fun run => .after fun token => .ite ?_ (.pure (inForm_simple _ _))
          refine .bind (returns_function run fuel) fun declaration hdeclaration => .pure ?_
          simpa [ofStmt, Stmt.ChainsElse] using hdeclaration
      | fnWord | method | routine =>
          refine .bind (returns_function [] fuel) fun declaration hdeclaration => .pure ?_
          simpa [ofStmt, Stmt.ChainsElse] using hdeclaration
      | classWord | structWord =>
          refine .bind (returns_classDeclaration fuel) fun declaration hmembers => .pure ?_
          rcases declaration with ⟨classLine, kind, name, bases, members⟩
          simpa [ofStmt, Stmt.ChainsElse] using hmembers
      | _ => exact .after fun action => .pure (inForm_simple _ _)

/-- Behind an `else` the grammar reads an `if` or a block. -/
theorem returns_branch (line : Nat) : ∀ fuel,
    Returns (branch line fuel) fun statement =>
      InForm (ofStmt .declarations statement) ∧ statement.FollowsElse
  | 0 => .tooDeep
  | fuel + 1 => by
      rw [branch]
      refine .after fun _ => .after fun condition => ?_
      refine .bind (returns_block fuel) fun positive hpositive => ?_
      refine .after fun otherwise => .ite (.after fun token => .ite ?_ ?_) (.pure ⟨?_, .branch⟩)
      · refine .bind (returns_branch token.line fuel) fun negative hnegative => ?_
        refine .pure ⟨?_, .branch⟩
        exact inForm_branch hpositive hnegative.1 hnegative.2 line condition
      · refine .bind (returns_block fuel) fun negative hnegative => .pure ⟨?_, .branch⟩
        exact inForm_branch hpositive (inForm_nested hnegative _ _) .block line condition
      · simp [ofStmt, ofNegative, Stmt.ChainsElse, hpositive]

theorem returns_switchClauses (default : Option Block)
    (hdefault : InForm (ofFallback .declarations default)) : ∀ fuel,
    Returns (switchClauses default fuel) fun clauses =>
      InForm (ofCases .declarations clauses.1) ∧ InForm (ofFallback .declarations clauses.2)
  | 0 => .tooDeep
  | fuel + 1 => by
      rw [switchClauses]
      refine .after fun _ => .after fun closed => .ite (.pure ⟨inForm_nil, hdefault⟩) ?_
      refine .after fun case => .ite (.after fun label => ?_) (.after fun word => .ite ?_ .expected)
      · refine .bind (returns_block fuel) fun body hbody => ?_
        refine .bind (returns_switchClauses default hdefault fuel) fun clauses hclauses => .pure ?_
        simpa [ofCases, hbody] using hclauses
      · refine .bind (returns_block fuel) fun body hbody => ?_
        exact returns_switchClauses (some body) hbody fuel

theorem returns_matchClauses (default : Option Block)
    (hdefault : InForm (ofFallback .declarations default)) : ∀ fuel,
    Returns (matchClauses default fuel) fun clauses =>
      InForm (ofArms .declarations clauses.1) ∧ InForm (ofFallback .declarations clauses.2)
  | 0 => .tooDeep
  | fuel + 1 => by
      rw [matchClauses]
      refine .after fun _ => .after fun closed => .ite (.pure ⟨inForm_nil, hdefault⟩) ?_
      refine .after fun case => .ite (.after fun first => .after fun more => ?_)
        (.after fun word => .ite ?_ .expected)
      · refine .bind (returns_block fuel) fun body hbody => ?_
        refine .bind (returns_matchClauses default hdefault fuel) fun clauses hclauses => .pure ?_
        simpa [ofArms, hbody] using hclauses
      · refine .bind (returns_block fuel) fun body hbody => ?_
        exact returns_matchClauses (some body) hbody fuel

theorem returns_function (run : List Overlay) : ∀ fuel,
    Returns (function run fuel) fun declaration => InForm (ofFunction declaration)
  | 0 => .tooDeep
  | fuel + 1 => by
      rw [function]
      refine .after fun keyword => .after fun name => .after fun parameters => ?_
      refine .after fun result => ?_
      refine .bind (returns_block fuel) fun body hbody => .pure ?_
      simpa [ofFunction] using hbody

theorem returns_classDeclaration : ∀ fuel,
    Returns (classDeclaration fuel) fun declaration => InForm (ofMembers declaration.members)
  | 0 => .tooDeep
  | fuel + 1 => by
      rw [classDeclaration]
      refine .after fun keyword => .after fun name => .after fun bases => .after fun _ => ?_
      exact .bind (returns_members name _ [] fuel) fun members hmembers => .pure hmembers

theorem returns_members (name : String) (access : Access) (pending : List Overlay) : ∀ fuel,
    Returns (members name access pending fuel) fun members => InForm (ofMembers members)
  | 0 => .tooDeep
  | fuel + 1 => by
      rw [members]
      refine .after fun _ => .after fun closed => .ite (.pure inForm_nil) (.after fun token => ?_)
      cases token.access? with
      | some label => exact .after fun _ => .after fun _ => returns_members name label pending fuel
      | none =>
          refine .ite (.after fun binding => ?_) (.ite ?_ (.ite ?_ .expected))
          · refine .bind (returns_members name access pending fuel) fun rest hrest => .pure ?_
            simpa [ofMembers] using hrest
          · refine .after fun overlay => .after fun _ => .after fun following => .ite ?_ .failHere
            exact returns_members name access (pending ++ [overlay]) fuel
          · refine .bind (returns_function pending fuel) fun method hmethod => ?_
            refine .bind (returns_members name access [] fuel) fun rest hrest => .pure ?_
            rw [ofMembers, inForm_append]
            exact ⟨hmethod, hrest⟩

end

theorem returns_topLevel (fuel : Nat) :
    Returns (topLevel fuel) fun program => InForm (ofStmts .declarations program) := by
  induction fuel with
  | zero => exact .tooDeep
  | succ fuel ih =>
      rw [topLevel]
      refine .after fun _ => .after fun token => .ite (.pure inForm_nil) ?_
      refine .bind (returns_statement fuel) fun first hfirst => ?_
      refine .bind ih fun rest hrest => .pure ?_
      rw [ofStmts, inForm_append]
      exact ⟨hfirst, hrest⟩

end Parser

/-! ## Whole programs -/

/-- What a program shows, once read, is shown by the program that is read. -/
theorem Program.exists_read_of_view {α : Type} {tokens : List Token} {view : Program → α}
    {shown : α} (hview : (ofTokens tokens).result.toOption.map view = some shown) :
    ∃ program, (ofTokens tokens).result = .ok program ∧ view program = shown := by
  cases hread : (ofTokens tokens).result with
  | error error =>
      rw [hread] at hview
      cases hview
  | ok program =>
      rw [hread] at hview
      exact ⟨program, rfl, Option.some.inj hview⟩

/-- In a program that was read, only a block or another `if` follows an `else`. -/
theorem Program.chainsElse_of_read {tokens : List Token} {program : Program}
    (hread : (ofTokens tokens).result = .ok program) {statement : Stmt}
    (hcontains : program.Contains statement) : statement.ChainsElse := by
  have hform : Node.InForm program.nodes := by
    simp only [ofTokens] at hread
    split at hread
    case h_1 read after hparsed =>
      cases hread
      exact Parser.returns_topLevel _ _ _ _ hparsed
    case h_2 => cases hread
  exact hform statement (hcontains.mem_nodes (Node.mem_ofStmt_self statement))

end Tide
