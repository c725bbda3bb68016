import Tide.Flags
import Tide.Proofs.Tree.Pass

/-!
# Trees without lines

Every part of a tree says on which line it was written.  Two trees are the same up to lines when
they are equal with all lines set to zero.  Their nodes in reading order are the same up to lines
then, and so is what a pass makes of them if it replaces expressions and statements alike.
-/

namespace Tide

def Overlay.unlined (overlay : Overlay) : Overlay := { overlay with line := 0 }

namespace Expr

mutual

/-- The expression with all lines set to zero. -/
def unlined : Expr → Expr
  | literal _ value => literal 0 value
  | name _ text => name 0 text
  | unary _ operator operand => unary 0 operator operand.unlined
  | binary _ operator left right => binary 0 operator left.unlined right.unlined
  | ternary _ condition positive negative =>
    ternary 0 condition.unlined positive.unlined negative.unlined
  | call _ callee arguments => call 0 callee.unlined (unlinedAll arguments)
  | index _ target place => index 0 target.unlined place.unlined
  | member _ target field => member 0 target.unlined field

def unlinedAll : List Expr → List Expr
  | [] => []
  | expression :: rest => expression.unlined :: unlinedAll rest

end

theorem unlinedAll_eq_map (expressions : List Expr) :
    unlinedAll expressions = expressions.map unlined := by
  induction expressions with
  | nil => rfl
  | cons head tail ih => rw [unlinedAll, ih, List.map_cons]

end Expr

def Local.unlined (binding : Local) : Local :=
  { binding with value := binding.value.map Expr.unlined }

def Action.unlined : Action → Action
  | .declare binding => .declare binding.unlined
  | .directive overlays => .directive (overlays.map Overlay.unlined)
  | .assign target operator value => .assign target.unlined operator value.unlined
  | .step target operator => .step target.unlined operator
  | .mutate target value => .mutate target.unlined value.unlined
  | .leave value => .leave (value.map Expr.unlined)
  | .raise value => .raise value.unlined
  | .evaluate value => .evaluate value.unlined
  | .print value => .print (value.map Expr.unlined)
  | .readInto path name => .readInto path.unlined name
  | .writeOut path value mode => .writeOut path.unlined value.unlined mode
  | .send name value => .send name value.unlined
  | .scale name fromLow fromHigh toLow toHigh =>
    .scale name fromLow.unlined fromHigh.unlined toLow.unlined toHigh.unlined
  | .bounds name low high => .bounds name low.unlined high.unlined
  | .duration name amount unit => .duration name amount.unlined unit
  | .derivative name body argument => .derivative name body.unlined argument
  | .breakLoop => .breakLoop
  | .continueLoop => .continueLoop
  | .input name => .input name
  | .channel name element => .channel name element
  | .receive source name => .receive source name
  | .sync => .sync
  | .checkpoint label => .checkpoint label
  | .splice text => .splice text
  | .unknown kind text => .unknown kind text

def Opener.unlined : Opener → Opener
  | .whileLoop condition => .whileLoop condition.unlined
  | .schedule priority => .schedule priority.unlined
  | .block => .block
  | .pureRegion => .pureRegion
  | .forLoop header => .forLoop header

namespace Unlined

mutual

/-- The statement with all lines set to zero. -/
def stmt : Stmt → Stmt
  | .simple _ action => .simple 0 action.unlined
  | .function _ declaration => .function 0 (function declaration)
  | .classDecl _ declaration => .classDecl 0 (classDecl declaration)
  | .nested _ opener body => .nested 0 opener.unlined (block body)
  | .branch _ condition positive branch =>
    .branch 0 condition.unlined (block positive) (negative branch)
  | .switch _ scrutinee clauses default =>
    .switch 0 scrutinee.unlined (cases clauses) (fallback default)
  | .select _ scrutinee clauses default =>
    .select 0 scrutinee.unlined (arms clauses) (fallback default)
  | .attempt _ body binding handler => .attempt 0 (block body) binding (block handler)

def stmts : List Stmt → List Stmt
  | [] => []
  | first :: rest => stmt first :: stmts rest

def block : Block → Block
  | ⟨_, statements⟩ => ⟨0, stmts statements⟩

def function : FunctionDecl → FunctionDecl
  | ⟨_, flavor, name, parameters, result, overlays, body⟩ =>
    ⟨0, flavor, name, parameters, result, overlays.map Overlay.unlined, block body⟩

def classDecl : ClassDecl → ClassDecl
  | ⟨_, kind, name, bases, classMembers⟩ => ⟨0, kind, name, bases, members classMembers⟩

def members : List ClassMember → List ClassMember
  | [] => []
  | .field access binding :: rest => .field access binding.unlined :: members rest
  | .method access declaration :: rest => .method access (function declaration) :: members rest

def negative : Option Stmt → Option Stmt
  | none => none
  | some statement => some (stmt statement)

def cases : List SwitchCase → List SwitchCase
  | [] => []
  | ⟨label, body⟩ :: rest => ⟨label, block body⟩ :: cases rest

def arms : List MatchArm → List MatchArm
  | [] => []
  | ⟨patterns, body⟩ :: rest => ⟨patterns, block body⟩ :: arms rest

def fallback : Option Block → Option Block
  | none => none
  | some body => some (block body)

end

theorem stmts_eq_map (statements : List Stmt) : stmts statements = statements.map stmt := by
  induction statements with
  | nil => rfl
  | cons head tail ih => rw [stmts, ih, List.map_cons]

end Unlined

/-- The program with all lines set to zero. -/
def Program.unlined (program : Program) : Program := Unlined.stmts program

/-! ## Nodes -/

namespace Node

def unlined : Node → Node
  | statement found => statement (Unlined.stmt found)
  | function found => function (Unlined.function found)
  | overlay found => overlay found.unlined
  | expression found => expression found.unlined

theorem ofAction_unlined (action : Action) :
    ofAction action.unlined = (ofAction action).map unlined := by
  cases action <;>
    simp [ofAction, Action.unlined, Action.overlays, Action.expressions, Local.unlined, unlined,
      Function.comp_def, Option.toList_map]

theorem map_expression_unlined (opener : Opener) :
    opener.unlined.expressions.map expression =
      (opener.expressions.map expression).map unlined := by
  cases opener <;> rfl

mutual

/-- Without lines a statement has the same nodes in the same order. -/
theorem ofStmt_unlined (reach : Reach) :
    ∀ statement, ofStmt reach (Unlined.stmt statement) = (ofStmt reach statement).map unlined
  | .simple line action => by
      rw [Unlined.stmt, ofStmt, ofAction_unlined, ofStmt, List.map_cons, unlined, Unlined.stmt]
  | .function line declaration => by
      have ih := ofFunction_unlined declaration
      cases reach <;> simp [Unlined.stmt, ofStmt, ih, unlined]
  | .classDecl line ⟨classLine, kind, name, bases, members⟩ => by
      have ih := ofMembers_unlined members
      cases reach <;> simp [Unlined.stmt, Unlined.classDecl, ofStmt, ih, unlined]
  | .nested line opener body => by
      simp [Unlined.stmt, ofStmt, ofBlock_unlined reach body, map_expression_unlined, unlined]
  | .branch line condition positive negative => by
      simp [Unlined.stmt, ofStmt, ofBlock_unlined reach positive, ofNegative_unlined reach negative,
        unlined]
  | .switch line scrutinee cases fallback => by
      simp [Unlined.stmt, ofStmt, ofCases_unlined reach cases, ofFallback_unlined reach fallback,
        unlined]
  | .select line scrutinee arms fallback => by
      simp [Unlined.stmt, ofStmt, ofArms_unlined reach arms, ofFallback_unlined reach fallback,
        unlined]
  | .attempt line body binding handler => by
      simp [Unlined.stmt, ofStmt, ofBlock_unlined reach body, ofBlock_unlined reach handler,
        unlined]

theorem ofStmts_unlined (reach : Reach) :
    ∀ statements, ofStmts reach (Unlined.stmts statements) = (ofStmts reach statements).map unlined
  | [] => rfl
  | first :: rest => by
      simp [Unlined.stmts, ofStmts, ofStmt_unlined reach first, ofStmts_unlined reach rest]

theorem ofBlock_unlined (reach : Reach) :
    ∀ block, ofBlock reach (Unlined.block block) = (ofBlock reach block).map unlined
  | ⟨_, statements⟩ => ofStmts_unlined reach statements

theorem ofFunction_unlined :
    ∀ declaration, ofFunction (Unlined.function declaration) = (ofFunction declaration).map unlined
  | ⟨line, flavor, name, parameters, result, overlays, body⟩ => by
      simp [Unlined.function, ofFunction, ofBlock_unlined .declarations body, unlined,
        Function.comp_def]

theorem ofMembers_unlined :
    ∀ members, ofMembers (Unlined.members members) = (ofMembers members).map unlined
  | [] => rfl
  | .field _ binding :: rest => by
      simp [Unlined.members, ofMembers, ofMembers_unlined rest, Local.unlined, unlined,
        Function.comp_def, Option.toList_map]
  | .method _ declaration :: rest => by
      simp [Unlined.members, ofMembers, ofFunction_unlined declaration, ofMembers_unlined rest]

theorem ofNegative_unlined (reach : Reach) :
    ∀ negative, ofNegative reach (Unlined.negative negative) =
      (ofNegative reach negative).map unlined
  | none => rfl
  | some negative => ofStmt_unlined reach negative

theorem ofCases_unlined (reach : Reach) :
    ∀ cases, ofCases reach (Unlined.cases cases) = (ofCases reach cases).map unlined
  | [] => rfl
  | ⟨_, body⟩ :: rest => by
      simp [Unlined.cases, ofCases, ofBlock_unlined reach body, ofCases_unlined reach rest]

theorem ofArms_unlined (reach : Reach) :
    ∀ arms, ofArms reach (Unlined.arms arms) = (ofArms reach arms).map unlined
  | [] => rfl
  | ⟨_, body⟩ :: rest => by
      simp [Unlined.arms, ofArms, ofBlock_unlined reach body, ofArms_unlined reach rest]

theorem ofFallback_unlined (reach : Reach) :
    ∀ fallback, ofFallback reach (Unlined.fallback fallback) =
      (ofFallback reach fallback).map unlined
  | none => rfl
  | some body => ofBlock_unlined reach body

end

section

variable (nodes : List Node)

/-- What the nodes are filtered for is found alike with and without lines. -/
theorem filterMap_unlined {α : Type} {select : Node → Option α} {erase : α → α}
    (hselect : ∀ node, select node.unlined = (select node).map erase) :
    (nodes.map unlined).filterMap select = (nodes.filterMap select).map erase := by
  rw [List.filterMap_map, List.map_filterMap]
  exact List.filterMap_congr fun node _ => hselect node

theorem filterMap_overlay?_unlined :
    (nodes.map unlined).filterMap overlay? = (nodes.filterMap overlay?).map Overlay.unlined :=
  filterMap_unlined nodes fun node => by cases node <;> rfl

theorem filterMap_function?_unlined :
    (nodes.map unlined).filterMap function? = (nodes.filterMap function?).map Unlined.function :=
  filterMap_unlined nodes fun node => by cases node <;> rfl

theorem filterMap_statement?_unlined :
    (nodes.map unlined).filterMap statement? = (nodes.filterMap statement?).map Unlined.stmt :=
  filterMap_unlined nodes fun node => by cases node <;> rfl

theorem filterMap_expression?_unlined :
    (nodes.map unlined).filterMap expression? = (nodes.filterMap expression?).map Expr.unlined :=
  filterMap_unlined nodes fun node => by cases node <;> rfl

end

end Node

namespace Program

variable (program : Program)

theorem nodes_unlined : program.unlined.nodes = program.nodes.map Node.unlined :=
  Node.ofStmts_unlined .declarations program

theorem overlays_unlined : program.unlined.overlays = program.overlays.map Overlay.unlined := by
  rw [overlays, nodes_unlined, Node.filterMap_overlay?_unlined, overlays]

theorem functions_unlined : program.unlined.functions = program.functions.map Unlined.function := by
  rw [functions, nodes_unlined, Node.filterMap_function?_unlined, functions]

theorem allStatements_unlined :
    program.unlined.allStatements = program.allStatements.map Unlined.stmt := by
  rw [allStatements, nodes_unlined, Node.filterMap_statement?_unlined, allStatements]

end Program

theorem Stmt.isMutate_unlined (statement : Stmt) :
    (Unlined.stmt statement).isMutate = statement.isMutate := by
  cases statement with
  | simple line action => cases action <;> rfl
  | _ => rfl

/-- No feature depends on lines. -/
theorem FeatureFlags.ofProgram_unlined (program : Program) :
    ofProgram program.unlined = ofProgram program := by
  have hnamed : ∀ names, Overlay.isNamed names ∘ Overlay.unlined = Overlay.isNamed names :=
    fun names => rfl
  have hpath : Overlay.replayPath? ∘ Overlay.unlined = Overlay.replayPath? := rfl
  have hmutate : Stmt.isMutate ∘ Unlined.stmt = Stmt.isMutate := funext Stmt.isMutate_unlined
  simp only [ofProgram, Program.overlays_unlined, Program.allStatements_unlined, List.any_map,
    List.findSome?_map, hnamed, hpath, hmutate]

/-! ## Passes -/

/-- What the pass replaces, it replaces alike with and without lines. -/
structure Pass.KeepsLines (pass : Pass) : Prop where
  expression : ∀ expression,
    pass.expression expression.unlined = (pass.expression expression).unlined
  printed : ∀ expression, pass.printed expression.unlined = (pass.printed expression).unlined
  statements : ∀ statements,
    pass.statements (Unlined.stmts statements) = Unlined.stmts (pass.statements statements)

namespace Pass.KeepsLines

variable {pass : Pass}

theorem option_map (hpass : pass.KeepsLines) (value : Option Expr) :
    (value.map Expr.unlined).map pass.expression =
      (value.map pass.expression).map Expr.unlined := by
  cases value with
  | none => rfl
  | some value => exact congrArg some (hpass.expression value)

theorem option_map_printed (hpass : pass.KeepsLines) (value : Option Expr) :
    (value.map Expr.unlined).map pass.printed = (value.map pass.printed).map Expr.unlined := by
  cases value with
  | none => rfl
  | some value => exact congrArg some (hpass.printed value)

theorem binding (hpass : pass.KeepsLines) (binding : Local) :
    pass.binding binding.unlined = (pass.binding binding).unlined := by
  simp only [Pass.binding, Local.unlined, hpass.option_map]

theorem action (hpass : pass.KeepsLines) (action : Action) :
    pass.action action.unlined = (pass.action action).unlined := by
  cases action <;>
    simp only [Pass.action, Action.unlined, hpass.expression, hpass.option_map,
      hpass.option_map_printed, hpass.binding]

theorem opener (hpass : pass.KeepsLines) (opener : Opener) :
    pass.opener opener.unlined = (pass.opener opener).unlined := by
  cases opener <;> simp only [Pass.opener, Opener.unlined, hpass.expression]

mutual

theorem stmt (hpass : pass.KeepsLines) : ∀ statement,
    pass.stmt (Unlined.stmt statement) = Unlined.stmt (pass.stmt statement)
  | .simple _ action => by simp only [Pass.stmt, Unlined.stmt, hpass.action]
  | .function _ declaration => by simp only [Pass.stmt, Unlined.stmt, hpass.function declaration]
  | .classDecl _ ⟨_, _, _, _, members⟩ => by
      simp only [Pass.stmt, Unlined.stmt, Unlined.classDecl, hpass.members members]
  | .nested _ opener body => by
      simp only [Pass.stmt, Unlined.stmt, hpass.opener, hpass.block body]
  | .branch _ condition positive negative => by
      simp only [Pass.stmt, Unlined.stmt, hpass.expression, hpass.block positive,
        hpass.negative negative]
  | .switch _ scrutinee cases fallback => by
      simp only [Pass.stmt, Unlined.stmt, hpass.expression, hpass.cases cases,
        hpass.fallback fallback]
  | .select _ scrutinee arms fallback => by
      simp only [Pass.stmt, Unlined.stmt, hpass.expression, hpass.arms arms,
        hpass.fallback fallback]
  | .attempt _ body _ handler => by
      simp only [Pass.stmt, Unlined.stmt, hpass.block body, hpass.block handler]

theorem stmts (hpass : pass.KeepsLines) : ∀ statements,
    pass.stmts (Unlined.stmts statements) = Unlined.stmts (pass.stmts statements)
  | [] => rfl
  | first :: rest => by simp only [Pass.stmts, Unlined.stmts, hpass.stmt first, hpass.stmts rest]

theorem block (hpass : pass.KeepsLines) : ∀ block,
    pass.block (Unlined.block block) = Unlined.block (pass.block block)
  | ⟨_, statements⟩ => by
      simp only [Pass.block, Unlined.block, hpass.stmts statements, hpass.statements]

theorem function (hpass : pass.KeepsLines) : ∀ declaration,
    pass.function (Unlined.function declaration) = Unlined.function (pass.function declaration)
  | ⟨_, _, _, _, _, _, body⟩ => by simp only [Pass.function, Unlined.function, hpass.block body]

theorem members (hpass : pass.KeepsLines) : ∀ members,
    pass.members (Unlined.members members) = Unlined.members (pass.members members)
  | [] => rfl
  | .field _ binding :: rest => by
      simp only [Pass.members, Unlined.members, hpass.binding, hpass.members rest]
  | .method _ declaration :: rest => by
      simp only [Pass.members, Unlined.members, hpass.function declaration, hpass.members rest]

theorem negative (hpass : pass.KeepsLines) : ∀ negative,
    pass.negative (Unlined.negative negative) = Unlined.negative (pass.negative negative)
  | none => rfl
  | some negative => by simp only [Pass.negative, Unlined.negative, hpass.stmt negative]

theorem cases (hpass : pass.KeepsLines) : ∀ cases,
    pass.cases (Unlined.cases cases) = Unlined.cases (pass.cases cases)
  | [] => rfl
  | ⟨_, body⟩ :: rest => by
      simp only [Pass.cases, Unlined.cases, hpass.block body, hpass.cases rest]

theorem arms (hpass : pass.KeepsLines) : ∀ arms,
    pass.arms (Unlined.arms arms) = Unlined.arms (pass.arms arms)
  | [] => rfl
  | ⟨_, body⟩ :: rest => by
      simp only [Pass.arms, Unlined.arms, hpass.block body, hpass.arms rest]

theorem fallback (hpass : pass.KeepsLines) : ∀ fallback,
    pass.fallback (Unlined.fallback fallback) = Unlined.fallback (pass.fallback fallback)
  | none => rfl
  | some body => by simp only [Pass.fallback, Unlined.fallback, hpass.block body]

end

/-- A pass that keeps lines at every place keeps them in programs. -/
theorem program (hpass : pass.KeepsLines) (program : Program) :
    pass.program program.unlined = (pass.program program).unlined :=
  hpass.stmts program

end Pass.KeepsLines

end Tide
