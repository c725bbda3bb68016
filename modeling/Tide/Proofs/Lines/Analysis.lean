import Tide.Analysis.Report
import Tide.Proofs.Lines.Output

/-!
# Checks without lines

Every check walks the tree and reports findings, each with the line it blames.  On trees that are
the same up to lines it reports the same findings in the same order, and whether a program is
accepted depends on the findings only.
-/

namespace Tide

def Diagnostic.unlined (diagnostic : Diagnostic) : Diagnostic := { diagnostic with line := 0 }

/-- The findings with all lines set to zero. -/
abbrev unlinedFindings (diagnostics : List Diagnostic) : List Diagnostic :=
  diagnostics.map Diagnostic.unlined

/-! ## Expressions -/

namespace Expr

section

variable (expression : Expr)

theorem rootName_unlined : expression.unlined.rootName = expression.rootName := by
  induction expression with
  | index line target place ihTarget ihPlace => exact ihTarget
  | member line target field ih => exact ih
  | _ => rfl

theorem line_unlined : expression.unlined.line = 0 := by
  cases expression <;> rfl

theorem calleeName_unlined : expression.unlined.calleeName = expression.calleeName := by
  cases expression <;> rfl

end

/-- Without lines an expression has the same parts in the same order. -/
theorem subterms_unlined (expression : Expr) :
    subterms expression.unlined = (subterms expression).map unlined := by
  induction expression with
  | call line callee arguments ihCallee ihArguments =>
      simp only [unlined, subterms, subtermsAll_eq_flatMap, unlinedAll_eq_map, List.flatMap_map,
        List.map_cons, List.map_append, List.map_flatMap, ihCallee,
        List.flatMap_congr ihArguments]
  | _ => simp [unlined, subterms, *]

theorem namedCalls_unlined (expression : Expr) :
    expression.unlined.namedCalls = expression.namedCalls.map fun call => (0, call.2) := by
  rw [namedCalls, namedCalls, subterms_unlined, List.filterMap_map, List.map_filterMap]
  apply List.filterMap_congr
  intro part hmem
  cases part with
  | call line callee arguments =>
      simp [unlined, calleeName_unlined, Function.comp_def]
  | _ => rfl

end Expr

theorem Action.expressions_unlined (action : Action) :
    action.unlined.expressions = action.expressions.map Expr.unlined := by
  cases action <;>
    simp [Action.unlined, Action.expressions, Local.unlined, Option.toList_map]

theorem Opener.expressions_unlined (opener : Opener) :
    opener.unlined.expressions = opener.expressions.map Expr.unlined := by
  cases opener <;> rfl

/-- Value classes do not depend on lines. -/
theorem Environment.infer_unlined (environment : Environment) (expression : Expr) :
    environment.infer expression.unlined = environment.infer expression := by
  induction expression with
  | unary line operator operand ih => cases operator <;> rfl
  | binary line operator left right ihLeft ihRight =>
      cases operator <;> simp only [Expr.unlined, infer, ihLeft, ihRight]
  | ternary line condition positive negative ihCondition ihPositive ihNegative =>
      simp only [Expr.unlined, infer, ihPositive, ihNegative]
  | _ => rfl

/-- Signs do not depend on lines. -/
theorem Facts.evaluate_unlined (facts : Facts) (expression : Expr) :
    facts.evaluate expression.unlined = facts.evaluate expression := by
  induction expression with
  | literal line value => cases value <;> rfl
  | unary line operator operand ih =>
      cases operator with
      | negate => simp only [Expr.unlined, evaluate, Sign.ofNegated, Expr.number?_unlined]
      | complement => rfl
  | binary line operator left right ihLeft ihRight =>
      cases operator <;> simp only [Expr.unlined, evaluate, ihLeft, ihRight]
  | ternary line condition positive negative ihCondition ihPositive ihNegative =>
      simp only [Expr.unlined, evaluate, ihPositive, ihNegative]
  | _ => rfl

/-- Checks of several expressions report the same up to lines if checks of one do. -/
theorem flatMap_unlined {check alike : Expr → List Diagnostic}
    (halike : ∀ expression, alike expression.unlined = unlinedFindings (check expression))
    (expressions : List Expr) :
    (expressions.map Expr.unlined).flatMap alike = unlinedFindings (expressions.flatMap check) := by
  rw [unlinedFindings, List.flatMap_map, List.map_flatMap]
  exact List.flatMap_congr fun expression _ => halike expression

theorem flatMap_subterms_unlined {check alike : Expr → List Diagnostic}
    (halike : ∀ part, alike part.unlined = unlinedFindings (check part)) (expression : Expr) :
    expression.unlined.subterms.flatMap alike =
      unlinedFindings (expression.subterms.flatMap check) := by
  rw [Expr.subterms_unlined, flatMap_unlined halike]

/-- The findings of a walk with all lines set to zero, and the state after it. -/
def erased {State : Type} (walk : State × List Diagnostic) : State × List Diagnostic :=
  (walk.1, unlinedFindings walk.2)

/-! ## Checks against value classes -/

namespace Environment

theorem localClass_unlined (environment : Environment) (binding : Local) :
    environment.localClass binding.unlined = environment.localClass binding := by
  have hinfer : environment.infer ∘ Expr.unlined = environment.infer :=
    funext environment.infer_unlined
  simp only [localClass, Local.unlined, Option.map_map, hinfer]

theorem bindLocal_unlined (environment : Environment) (binding : Local) :
    environment.bindLocal binding.unlined = environment.bindLocal binding := by
  rw [bindLocal, localClass_unlined]
  rfl

/-- Actions that are the same up to lines bind the same names to the same classes. -/
theorem afterAction_unlined (environment : Environment) (action : Action) :
    environment.afterAction action.unlined = environment.afterAction action := by
  cases action with
  | declare binding =>
      rw [Action.unlined, afterAction, bindLocal_unlined]
      rfl
  | assign target operator value =>
      cases target <;> cases operator <;>
        simp only [Action.unlined, Expr.unlined, afterAction, bindOther, infer_unlined]
  | _ => rfl

end Environment

/-- The check reports the same of expressions and actions that are the same up to lines. -/
structure ClassCheck.KeepsLines (check : ClassCheck) : Prop where
  expression : ∀ environment expression, check.expression environment expression.unlined =
    unlinedFindings (check.expression environment expression)
  action : ∀ environment line action, check.action environment 0 action.unlined =
    unlinedFindings (check.action environment line action)

namespace ClassCheck.KeepsLines

variable {check : ClassCheck}

theorem expressions (hcheck : check.KeepsLines) (environment : Environment) :
    ∀ expressions : List Expr,
      (expressions.map Expr.unlined).flatMap (check.expression environment) =
        unlinedFindings (expressions.flatMap (check.expression environment)) :=
  flatMap_unlined (hcheck.expression environment)

mutual

/-- The classes a walk has found are the same too, so the rest of it goes on alike. -/
theorem stmt (hcheck : check.KeepsLines) : ∀ statement environment,
    check.stmt environment (Unlined.stmt statement) = erased (check.stmt environment statement)
  | .simple line action, environment => by
      simp only [Unlined.stmt, ClassCheck.stmt, environment.afterAction_unlined,
        hcheck.action environment line, erased]
  | .function _ declaration, environment => hcheck.function declaration environment
  | .classDecl _ ⟨_, _, _, _, members⟩, environment => by
      simp only [Unlined.stmt, Unlined.classDecl, ClassCheck.stmt, hcheck.members members]
      rfl
  | .nested _ opener body, environment => by
      simp only [Unlined.stmt, ClassCheck.stmt, opener.expressions_unlined, hcheck.expressions,
        hcheck.block body, erased, List.map_append]
  | .branch _ condition positive negative, environment => by
      simp only [Unlined.stmt, ClassCheck.stmt, hcheck.expression, hcheck.block positive,
        hcheck.negative negative, erased, List.map_append]
  | .switch _ scrutinee clauses fallback, environment => by
      simp only [Unlined.stmt, ClassCheck.stmt, hcheck.expression, hcheck.cases clauses,
        hcheck.fallback fallback, erased, List.map_append]
  | .select _ scrutinee clauses fallback, environment => by
      simp only [Unlined.stmt, ClassCheck.stmt, hcheck.expression, hcheck.arms clauses,
        hcheck.fallback fallback, erased, List.map_append]
  | .attempt _ body _ handler, environment => by
      simp only [Unlined.stmt, ClassCheck.stmt, hcheck.block body, hcheck.block handler, erased,
        List.map_append]

theorem stmts (hcheck : check.KeepsLines) : ∀ statements environment,
    check.stmts environment (Unlined.stmts statements) =
      erased (check.stmts environment statements)
  | [], _ => rfl
  | first :: rest, environment => by
      simp only [Unlined.stmts, ClassCheck.stmts, hcheck.stmt first, hcheck.stmts rest, erased,
        List.map_append]

theorem block (hcheck : check.KeepsLines) : ∀ block environment,
    check.block environment (Unlined.block block) = erased (check.block environment block)
  | ⟨_, statements⟩, environment => by
      simp only [Unlined.block, ClassCheck.block, hcheck.stmts statements]
      rfl

theorem function (hcheck : check.KeepsLines) : ∀ declaration environment,
    check.function environment (Unlined.function declaration) =
      erased (check.function environment declaration)
  | ⟨line, flavor, name, parameters, result, overlays, body⟩, environment => by
      simp only [Unlined.function, ClassCheck.function, hcheck.block body]
      rfl

theorem members (hcheck : check.KeepsLines) : ∀ members environment,
    check.members environment (Unlined.members members) =
      erased (check.members environment members)
  | [], _ => rfl
  | .field _ binding :: rest, environment => by
      have hvalue : binding.unlined.value.toList = binding.value.toList.map Expr.unlined :=
        Option.toList_map
      simp only [Unlined.members, ClassCheck.members, environment.bindLocal_unlined,
        hcheck.members rest, hvalue, hcheck.expressions, erased, List.map_append]
  | .method _ declaration :: rest, environment => by
      simp only [Unlined.members, ClassCheck.members, hcheck.function declaration,
        hcheck.members rest, erased, List.map_append]

theorem negative (hcheck : check.KeepsLines) : ∀ negative environment,
    check.negative environment (Unlined.negative negative) =
      erased (check.negative environment negative)
  | none, _ => rfl
  | some statement, environment => hcheck.stmt statement environment

theorem cases (hcheck : check.KeepsLines) : ∀ cases environment,
    check.cases environment (Unlined.cases cases) = erased (check.cases environment cases)
  | [], _ => rfl
  | ⟨_, body⟩ :: rest, environment => by
      simp only [Unlined.cases, ClassCheck.cases, hcheck.block body, hcheck.cases rest, erased,
        List.map_append]

theorem arms (hcheck : check.KeepsLines) : ∀ arms environment,
    check.arms environment (Unlined.arms arms) = erased (check.arms environment arms)
  | [], _ => rfl
  | ⟨_, body⟩ :: rest, environment => by
      simp only [Unlined.arms, ClassCheck.arms, hcheck.block body, hcheck.arms rest, erased,
        List.map_append]

theorem fallback (hcheck : check.KeepsLines) : ∀ fallback environment,
    check.fallback environment (Unlined.fallback fallback) =
      erased (check.fallback environment fallback)
  | none, _ => rfl
  | some body, environment => hcheck.block body environment

end

/-- A check that keeps lines on expressions and actions keeps them on programs. -/
theorem run (hcheck : check.KeepsLines) (program : Program) :
    check.run program.unlined = unlinedFindings (check.run program) := by
  rw [ClassCheck.run, Program.unlined, hcheck.stmts program]
  rfl

end ClassCheck.KeepsLines

namespace Analysis

theorem negatedText_unlined (environment : Environment) (expression : Expr) :
    negatedText environment expression.unlined =
      unlinedFindings (negatedText environment expression) := by
  cases expression with
  | unary line operator operand =>
      cases operator with
      | negate =>
          simp only [Expr.unlined, negatedText, environment.infer_unlined]
          split <;> rfl
      | complement => rfl
  | _ => rfl

theorem textOperand_unlined (environment : Environment) (line : Nat) (action : Action) :
    textOperand environment 0 action.unlined =
      unlinedFindings (textOperand environment line action) := by
  cases action with
  | assign target operator value =>
      cases operator with
      | assign | add => rfl
      | subtract | multiply | divide | modulus =>
          simp only [Action.unlined, textOperand, environment.infer_unlined]
          split <;> rfl
  | _ => rfl

theorem keepsLines_inference : inference.KeepsLines where
  expression environment := flatMap_subterms_unlined (negatedText_unlined environment)
  action environment line action := by
    have hexpressions : action.unlined.expressions.flatMap (inference.expression environment) =
        unlinedFindings (action.expressions.flatMap (inference.expression environment)) := by
      rw [action.expressions_unlined]
      exact flatMap_unlined (flatMap_subterms_unlined (negatedText_unlined environment)) _
    simp only [inference] at hexpressions ⊢
    rw [textOperand_unlined environment line, hexpressions, ← List.map_append]

theorem wrongOperands_unlined (environment : Environment) (expression : Expr) :
    wrongOperands environment expression.unlined =
      unlinedFindings (wrongOperands environment expression) := by
  cases expression with
  | binary line operator left right =>
      simp only [Expr.unlined, wrongOperands, environment.infer_unlined]
      split <;> rfl
  | _ => rfl

theorem wrongOperandsIn_unlined (environment : Environment) (expression : Expr) :
    wrongOperandsIn environment expression.unlined =
      unlinedFindings (wrongOperandsIn environment expression) :=
  flatMap_subterms_unlined (wrongOperands_unlined environment) expression

/-- A printed text has the same operands up to lines. -/
theorem keepsLines_operators : operators.KeepsLines where
  expression := wrongOperandsIn_unlined
  action environment line action := by
    have hexpressions := flatMap_unlined (wrongOperandsIn_unlined environment)
    have hall : action.unlined.expressions.flatMap (wrongOperandsIn environment) =
        unlinedFindings (action.expressions.flatMap (wrongOperandsIn environment)) := by
      rw [action.expressions_unlined, hexpressions]
    cases action with
    | print value =>
        cases value with
        | none => rfl
        | some value =>
            simp only [operators, Action.unlined, Option.map_some, value.concatenatesText_unlined,
              value.chain_unlined, hexpressions, wrongOperandsIn_unlined]
            split <;> rfl
    | _ => exact hall

end Analysis

/-! ## The table of functions -/

theorem Stmt.hasSideEffect_unlined (statement : Stmt) :
    (Unlined.stmt statement).hasSideEffect = statement.hasSideEffect := by
  cases statement with
  | simple line action => cases action <;> rfl
  | nested line opener body => cases opener <;> rfl
  | _ => rfl

theorem Stmt.tag_unlined (statement : Stmt) :
    (Unlined.stmt statement).tag = statement.tag := by
  cases statement with
  | simple line action => cases action <;> rfl
  | nested line opener body => cases opener <;> rfl
  | _ => rfl

theorem Stmt.line_unlined (statement : Stmt) : (Unlined.stmt statement).line = 0 := by
  cases statement <;> rfl

theorem Stmt.assignedRoot_unlined (statement : Stmt) :
    (Unlined.stmt statement).assignedRoot = statement.assignedRoot := by
  cases statement with
  | simple line action =>
      cases action with
      | assign target operator value => exact target.rootName_unlined
      | step target operator => exact target.rootName_unlined
      | mutate target value => exact target.rootName_unlined
      | _ => rfl
  | _ => rfl

namespace Effects

/-- Places with their lines set to zero. -/
abbrev unlinedPlaces (places : List (Nat × String)) : List (Nat × String) :=
  places.map fun place => (0, place.2)

def unlined (effects : Effects) : Effects where
  sideEffects := unlinedPlaces effects.sideEffects
  reassigned := unlinedPlaces effects.reassigned
  calls := unlinedPlaces effects.calls

section

variable (statements : List Stmt)

theorem sideEffects_unlined :
    (statements.map Unlined.stmt).filterMap (fun statement =>
        if statement.hasSideEffect then some (statement.line, statement.tag) else none) =
      unlinedPlaces (statements.filterMap fun statement =>
        if statement.hasSideEffect then some (statement.line, statement.tag) else none) := by
  rw [unlinedPlaces, List.filterMap_map, List.map_filterMap]
  apply List.filterMap_congr
  intro statement hmem
  simp only [Function.comp_apply, statement.hasSideEffect_unlined, statement.line_unlined,
    statement.tag_unlined]
  split <;> rfl

theorem reassigned_unlined (parameters : List String) :
    (statements.map Unlined.stmt).filterMap (fun statement =>
        (statement.assignedRoot.filter parameters.contains).map (statement.line, ·)) =
      unlinedPlaces (statements.filterMap fun statement =>
        (statement.assignedRoot.filter parameters.contains).map (statement.line, ·)) := by
  rw [unlinedPlaces, List.filterMap_map, List.map_filterMap]
  apply List.filterMap_congr
  intro statement hmem
  simp only [Function.comp_apply, statement.assignedRoot_unlined, statement.line_unlined,
    Option.map_map]
  rfl

end

theorem calls_unlined (expressions : List Expr) :
    (expressions.map Expr.unlined).flatMap Expr.namedCalls =
      unlinedPlaces (expressions.flatMap Expr.namedCalls) := by
  rw [unlinedPlaces, List.flatMap_map, List.map_flatMap]
  exact List.flatMap_congr fun expression _ => expression.namedCalls_unlined

/-- A body has the same effects, at places that are the same up to lines. -/
theorem ofBody_unlined (parameters : List String) (body : Block) :
    ofBody parameters (Unlined.block body) = (ofBody parameters body).unlined := by
  simp only [ofBody, Node.ofBlock_unlined, Node.filterMap_statement?_unlined,
    Node.filterMap_expression?_unlined, sideEffects_unlined, reassigned_unlined, calls_unlined,
    unlined]

theorem ofFunction_unlined (declaration : FunctionDecl) :
    ofFunction (Unlined.function declaration) = (ofFunction declaration).unlined := by
  rcases declaration with ⟨line, flavor, name, parameters, result, overlays, body⟩
  exact ofBody_unlined _ body

theorem isClean_unlined (effects : Effects) : effects.unlined.isClean = effects.isClean := by
  simp only [isClean, unlined, List.isEmpty_map]

end Effects

def FunctionInfo.unlined (info : FunctionInfo) : FunctionInfo := { info with line := 0 }

theorem FunctionInfo.ofDeclaration_unlined (declaration : FunctionDecl) (transitivelyPure : Bool) :
    ofDeclaration (Unlined.function declaration) transitivelyPure =
      (ofDeclaration declaration transitivelyPure).unlined := by
  rcases declaration with ⟨line, flavor, name, parameters, result, overlays, body⟩
  have hnonneg : Overlay.nonnegParameter ∘ Overlay.unlined = Overlay.nonnegParameter := rfl
  have hpure : FunctionDecl.isPure
      (Unlined.function ⟨line, flavor, name, parameters, result, overlays, body⟩) =
        FunctionDecl.isPure ⟨line, flavor, name, parameters, result, overlays, body⟩ :=
    List.any_map
  simp only [ofDeclaration, hpure]
  simp only [Unlined.function, List.filterMap_map, hnonneg, unlined]

namespace Analysis

theorem name_unlined (declaration : FunctionDecl) :
    (Unlined.function declaration).name = declaration.name := by
  rcases declaration with ⟨line, flavor, name, parameters, result, overlays, body⟩
  rfl

theorem firstDeclarations_unlined (seen : List String) (declarations : List FunctionDecl) :
    firstDeclarations seen (declarations.map Unlined.function) =
      (firstDeclarations seen declarations).map Unlined.function := by
  induction declarations generalizing seen with
  | nil => rfl
  | cons first rest ih =>
      simp only [List.map_cons, firstDeclarations, name_unlined, ih]
      split <;> rfl

theorem filter_name_unlined (declarations : List FunctionDecl) (name : String) :
    (declarations.map Unlined.function).filter (·.name == name) =
      (declarations.filter (·.name == name)).map Unlined.function := by
  rw [List.filter_map]
  congr 1
  exact List.filter_congr fun declaration _ => by
    rw [Function.comp_apply, name_unlined]

theorem isCleanName_unlined (declarations : List FunctionDecl) (name : String) :
    isCleanName (declarations.map Unlined.function) name = isCleanName declarations name := by
  rw [isCleanName, filter_name_unlined, List.all_map, isCleanName]
  congr 1
  funext declaration
  rw [Function.comp_apply, Effects.ofFunction_unlined, Effects.isClean_unlined]

theorem calleesOf_unlined (declarations : List FunctionDecl) (name : String) :
    calleesOf (declarations.map Unlined.function) name = calleesOf declarations name := by
  rw [calleesOf, filter_name_unlined, List.flatMap_map, calleesOf]
  apply List.flatMap_congr
  intro declaration hmem
  simp only [Effects.ofFunction_unlined, Effects.unlined, List.map_map]
  rfl

/-- Which functions are pure all the way down does not depend on lines. -/
theorem pureNames_unlined (declarations : List FunctionDecl) :
    pureNames (declarations.map Unlined.function) = pureNames declarations := by
  have hdeclared : ((firstDeclarations [] declarations).map Unlined.function).map (·.name) =
      (firstDeclarations [] declarations).map (·.name) := by
    rw [List.map_map]
    exact List.map_congr_left fun declaration _ => name_unlined declaration
  simp only [pureNames, firstDeclarations_unlined, hdeclared,
    funext (calleesOf_unlined declarations), funext (isCleanName_unlined declarations)]

end Analysis

/-- The table with all lines set to zero. -/
def FunctionTable.unlined (table : FunctionTable) : FunctionTable := table.map FunctionInfo.unlined

theorem FunctionTable.find_unlined (table : FunctionTable) (name : String) :
    table.unlined.find name = (table.find name).map FunctionInfo.unlined := by
  rw [find, unlined, List.find?_map]
  rfl

/-- The table says the same of each function, up to its line. -/
theorem Program.functionTable_unlined (program : Program) :
    program.unlined.functionTable = program.functionTable.unlined := by
  simp only [functionTable, FunctionTable.unlined, functions_unlined,
    Analysis.firstDeclarations_unlined, Analysis.pureNames_unlined, List.map_map]
  apply List.map_congr_left
  intro declaration hmem
  simp only [Function.comp_apply, Analysis.name_unlined, FunctionInfo.ofDeclaration_unlined]

/-! ## Purity -/

namespace Analysis

/-- A pure function is blamed for the same effects and the same calls. -/
theorem pureFunction_unlined (table : FunctionTable) (declaration : FunctionDecl) :
    pureFunction table.unlined (Unlined.function declaration) =
      unlinedFindings (pureFunction table declaration) := by
  simp only [pureFunction, Effects.ofFunction_unlined, name_unlined, Effects.unlined,
    List.map_append, List.map_map, List.filterMap_map, List.map_filterMap]
  congr 1
  apply List.filterMap_congr
  intro call hmem
  simp only [Function.comp_apply, table.find_unlined]
  cases table.find call.2 with
  | none => rfl
  | some info =>
      simp only [Option.map_some, FunctionInfo.unlined]
      split <;> rfl

theorem pureRegion_unlined (body : Block) :
    pureRegion (Unlined.block body) = unlinedFindings (pureRegion body) := by
  simp only [pureRegion, Effects.ofBody_unlined, Effects.unlined, List.map_map]
  rfl

namespace Purity

theorem isPure_unlined (declaration : FunctionDecl) :
    (Unlined.function declaration).isPure = declaration.isPure := by
  rcases declaration with ⟨line, flavor, name, parameters, result, overlays, body⟩
  exact List.any_map

section

variable (table : FunctionTable)

mutual

theorem stmt_unlined : ∀ statement inside,
    stmt table.unlined inside (Unlined.stmt statement) =
      unlinedFindings (stmt table inside statement)
  | .simple _ _, _ => rfl
  | .function _ declaration, inside => function_unlined declaration inside
  | .classDecl _ ⟨_, _, _, _, classMembers⟩, inside => members_unlined classMembers inside
  | .nested _ opener body, inside => by
      have hbody := block_unlined body
      cases opener with
      | pureRegion =>
          simp only [Unlined.stmt, Opener.unlined, stmt, hbody, pureRegion_unlined, List.map_append]
          split <;> rfl
      | _ => simp only [Unlined.stmt, Opener.unlined, stmt, hbody]
  | .branch _ _ positive branch, inside => by
      simp only [Unlined.stmt, stmt, block_unlined positive, negative_unlined branch,
        List.map_append]
  | .switch _ _ clauses default, inside => by
      simp only [Unlined.stmt, stmt, cases_unlined clauses, fallback_unlined default,
        List.map_append]
  | .select _ _ clauses default, inside => by
      simp only [Unlined.stmt, stmt, arms_unlined clauses, fallback_unlined default,
        List.map_append]
  | .attempt _ body _ handler, inside => by
      simp only [Unlined.stmt, stmt, block_unlined body, block_unlined handler, List.map_append]

theorem stmts_unlined : ∀ statements inside,
    stmts table.unlined inside (Unlined.stmts statements) =
      unlinedFindings (stmts table inside statements)
  | [], _ => rfl
  | first :: rest, inside => by
      simp only [Unlined.stmts, stmts, stmt_unlined first, stmts_unlined rest, List.map_append]

theorem block_unlined : ∀ body inside,
    block table.unlined inside (Unlined.block body) = unlinedFindings (block table inside body)
  | ⟨_, statements⟩, inside => stmts_unlined statements inside

theorem function_unlined : ∀ declaration inside,
    function table.unlined inside (Unlined.function declaration) =
      unlinedFindings (function table inside declaration)
  | ⟨line, flavor, name, parameters, result, overlays, body⟩, inside => by
      have hpure := isPure_unlined ⟨line, flavor, name, parameters, result, overlays, body⟩
      have hfunction := pureFunction_unlined table
        ⟨line, flavor, name, parameters, result, overlays, body⟩
      simp only [Unlined.function] at hpure hfunction
      simp only [Unlined.function, function, hpure, hfunction, block_unlined body]
      split
      · rw [← List.map_append]
      · rfl

theorem members_unlined : ∀ classMembers inside,
    members table.unlined inside (Unlined.members classMembers) =
      unlinedFindings (members table inside classMembers)
  | [], _ => rfl
  | .field _ _ :: rest, inside => members_unlined rest inside
  | .method _ declaration :: rest, inside => by
      simp only [Unlined.members, members, function_unlined declaration,
        members_unlined rest, List.map_append]

theorem negative_unlined : ∀ branch inside,
    negative table.unlined inside (Unlined.negative branch) =
      unlinedFindings (negative table inside branch)
  | none, _ => rfl
  | some statement, inside => stmt_unlined statement inside

theorem cases_unlined : ∀ clauses inside,
    cases table.unlined inside (Unlined.cases clauses) =
      unlinedFindings (cases table inside clauses)
  | [], _ => rfl
  | ⟨_, body⟩ :: rest, inside => by
      simp only [Unlined.cases, cases, block_unlined body, cases_unlined rest, List.map_append]

theorem arms_unlined : ∀ clauses inside,
    arms table.unlined inside (Unlined.arms clauses) =
      unlinedFindings (arms table inside clauses)
  | [], _ => rfl
  | ⟨_, body⟩ :: rest, inside => by
      simp only [Unlined.arms, arms, block_unlined body, arms_unlined rest, List.map_append]

theorem fallback_unlined : ∀ default inside,
    fallback table.unlined inside (Unlined.fallback default) =
      unlinedFindings (fallback table inside default)
  | none, _ => rfl
  | some body, inside => block_unlined body inside

end

end

end Purity

/-- Purity is checked alike with and without lines. -/
theorem purity_unlined (table : FunctionTable) (program : Program) :
    purity table.unlined program.unlined = unlinedFindings (purity table program) :=
  Purity.stmts_unlined table program false

end Analysis

/-! ## Signs -/

namespace SignCheck

/-- A call is held to the same contract, and what it is blamed for is the same. -/
theorem callFindings_unlined (table : FunctionTable) (facts : Facts) (expression : Expr) :
    callFindings table.unlined facts expression.unlined =
      unlinedFindings (callFindings table facts expression) := by
  cases expression with
  | call line callee arguments =>
      have hcallee : callee.unlined.calleeName.bind table.unlined.find =
          (callee.calleeName.bind table.find).map FunctionInfo.unlined := by
        rw [callee.calleeName_unlined, Option.map_bind]
        exact congrArg callee.calleeName.bind (funext table.find_unlined)
      simp only [Expr.unlined, callFindings, hcallee, Expr.unlinedAll_eq_map]
      cases callee.calleeName.bind table.find with
      | none => rfl
      | some info =>
          simp only [Option.map_some, FunctionInfo.unlined, List.zip_map_right,
            List.filterMap_map, unlinedFindings, List.map_filterMap]
          apply List.filterMap_congr
          intro pair hmem
          simp only [Function.comp_apply, Prod.map_fst, Prod.map_snd, id_eq,
            facts.evaluate_unlined, Expr.line_unlined]
          split <;> rfl
  | _ => rfl

theorem calls_unlined (check : SignCheck) (table : FunctionTable) (facts : Facts)
    (expressions : List Expr) :
    check.calls table.unlined facts (expressions.map Expr.unlined) =
      unlinedFindings (check.calls table facts expressions) := by
  cases check with
  | definitions => rfl
  | callSites =>
      apply flatMap_unlined
      exact flatMap_subterms_unlined (callFindings_unlined table facts)

theorem assigned_unlined (facts : Facts) (action : Action) :
    assigned facts action.unlined = assigned facts action := by
  cases action with
  | assign target operator value =>
      cases target <;> cases operator <;>
        simp only [Action.unlined, Expr.unlined, assigned, Expr.rootName, Expr.rootName_unlined,
          facts.evaluate_unlined]
  | step target operator =>
      cases target <;> cases operator <;>
        simp only [Action.unlined, Expr.unlined, assigned, Expr.rootName, Expr.rootName_unlined]
  | mutate target value =>
      cases target <;>
        simp only [Action.unlined, Expr.unlined, assigned, Expr.rootName, Expr.rootName_unlined,
          facts.evaluate_unlined]
  | bounds name low high => simp only [Action.unlined, assigned, facts.evaluate_unlined]
  | duration name amount unit => simp only [Action.unlined, assigned, facts.evaluate_unlined]
  | _ => rfl

theorem contractOf_unlined (table : FunctionTable) (name : String) :
    contractOf table.unlined name = contractOf table name := by
  rw [contractOf, table.find_unlined, Option.map_map]
  rfl

theorem assign_unlined (check : SignCheck) (contract : Option Contract) (facts : Facts)
    (line : Nat) (name : String) (sign : Sign) :
    check.assign contract facts 0 name sign =
      erased (check.assign contract facts line name sign) := by
  simp only [assign, erased, Prod.mk.injEq, true_and]
  split
  · split <;> rfl
  · rfl

/-- An action leaves the same facts and is blamed for the same. -/
theorem action_unlined (check : SignCheck) (contract : Option Contract) (facts : Facts)
    (line : Nat) (found : Action) :
    check.action contract facts 0 found.unlined =
      erased (check.action contract facts line found) := by
  have hassigned := assigned_unlined facts found
  cases found with
  | declare binding =>
      have hvalue : facts.evaluate ∘ Expr.unlined = facts.evaluate :=
        funext facts.evaluate_unlined
      simp only [Action.unlined, action, Local.unlined, Option.map_map, hvalue]
      rfl
  | _ =>
      simp only [Action.unlined] at hassigned ⊢
      simp only [action, hassigned]
      split
      · exact check.assign_unlined contract facts line _ _
      · rfl

section

variable (check : SignCheck) (table : FunctionTable)

mutual

theorem stmt_unlined : ∀ statement contract facts,
    check.stmt table.unlined contract facts (Unlined.stmt statement) =
      erased (check.stmt table contract facts statement)
  | .simple line found, contract, facts => by
      simp only [Unlined.stmt, stmt, found.expressions_unlined, calls_unlined,
        check.action_unlined contract facts line, erased, List.map_append]
  | .function _ declaration, _, facts => function_unlined declaration facts
  | .classDecl _ ⟨_, _, _, _, classMembers⟩, _, facts =>
      members_unlined classMembers facts
  | .nested _ opener body, contract, facts => by
      simp only [Unlined.stmt, stmt, opener.expressions_unlined, calls_unlined,
        block_unlined body, erased, List.map_append]
  | .branch _ condition positive negative, contract, facts => by
      have hhead := check.calls_unlined table facts [condition]
      simp only [List.map_cons, List.map_nil] at hhead
      simp only [Unlined.stmt, stmt, hhead, block_unlined positive, negative_unlined negative,
        erased, List.map_append]
  | .switch _ scrutinee clauses fallback, contract, facts => by
      have hhead := check.calls_unlined table facts [scrutinee]
      simp only [List.map_cons, List.map_nil] at hhead
      simp only [Unlined.stmt, stmt, hhead, cases_unlined clauses,
        fallback_unlined fallback, erased, List.map_append]
  | .select _ scrutinee clauses fallback, contract, facts => by
      have hhead := check.calls_unlined table facts [scrutinee]
      simp only [List.map_cons, List.map_nil] at hhead
      simp only [Unlined.stmt, stmt, hhead, arms_unlined clauses,
        fallback_unlined fallback, erased, List.map_append]
  | .attempt _ body _ handler, contract, facts => by
      simp only [Unlined.stmt, stmt, block_unlined body,
        block_unlined handler, erased, List.map_append]

theorem stmts_unlined : ∀ statements contract facts,
    check.stmts table.unlined contract facts (Unlined.stmts statements) =
      erased (check.stmts table contract facts statements)
  | [], _, _ => rfl
  | first :: rest, contract, facts => by
      simp only [Unlined.stmts, stmts, stmt_unlined first,
        stmts_unlined rest, erased, List.map_append]

theorem block_unlined : ∀ body contract facts,
    check.block table.unlined contract facts (Unlined.block body) =
      erased (check.block table contract facts body)
  | ⟨_, statements⟩, contract, facts => by
      simp only [Unlined.block, block, stmts_unlined statements]
      rfl

theorem function_unlined : ∀ declaration facts,
    check.function table.unlined facts (Unlined.function declaration) =
      erased (check.function table facts declaration)
  | ⟨_, _, name, _, _, _, ⟨_, statements⟩⟩, facts => by
      simp only [Unlined.function, Unlined.block, function, contractOf_unlined,
        stmts_unlined statements]
      rfl

theorem members_unlined : ∀ classMembers facts,
    check.members table.unlined facts (Unlined.members classMembers) =
      erased (check.members table facts classMembers)
  | [], _ => rfl
  | .field _ _ :: rest, facts => members_unlined rest facts
  | .method _ declaration :: rest, facts => by
      simp only [Unlined.members, members, function_unlined declaration,
        members_unlined rest, erased, List.map_append]

theorem negative_unlined : ∀ branch contract facts,
    check.negative table.unlined contract facts (Unlined.negative branch) =
      erased (check.negative table contract facts branch)
  | none, _, _ => rfl
  | some statement, contract, facts => stmt_unlined statement contract facts

theorem cases_unlined : ∀ clauses contract facts,
    check.cases table.unlined contract facts (Unlined.cases clauses) =
      erased (check.cases table contract facts clauses)
  | [], _, _ => rfl
  | ⟨_, body⟩ :: rest, contract, facts => by
      simp only [Unlined.cases, cases, block_unlined body,
        cases_unlined rest, erased, List.map_append]

theorem arms_unlined : ∀ clauses contract facts,
    check.arms table.unlined contract facts (Unlined.arms clauses) =
      erased (check.arms table contract facts clauses)
  | [], _, _ => rfl
  | ⟨_, body⟩ :: rest, contract, facts => by
      simp only [Unlined.arms, arms, block_unlined body, arms_unlined rest, erased, List.map_append]

theorem fallback_unlined : ∀ default contract facts,
    check.fallback table.unlined contract facts (Unlined.fallback default) =
      erased (check.fallback table contract facts default)
  | none, _, _ => rfl
  | some body, contract, facts => block_unlined body contract facts

end

/-- Signs are checked alike with and without lines. -/
theorem run_unlined (program : Program) :
    check.run table.unlined program.unlined = unlinedFindings (check.run table program) := by
  rw [run, Program.unlined, stmts_unlined check table program]
  rfl

end

end SignCheck

/-! ## The verdict -/

def Accepted.unlined (accepted : Accepted) : Accepted where
  warnings := unlinedFindings accepted.warnings
  functions := accepted.functions.unlined

theorem errorCount_unlinedFindings (diagnostics : List Diagnostic) :
    errorCount (unlinedFindings diagnostics) = errorCount diagnostics := by
  rw [errorCount, unlinedFindings, List.countP_map]
  rfl

/-- Whether a program is accepted does not depend on lines, and the findings are the same up to
lines. -/
theorem Program.analyze_unlined (program : Program) :
    program.unlined.analyze =
      (program.analyze.map Accepted.unlined).mapError unlinedFindings := by
  have hfindings : (AnalysisReport.ofProgram program.unlined).findings =
      unlinedFindings (AnalysisReport.ofProgram program).findings := by
    simp only [AnalysisReport.findings, AnalysisReport.ofProgram, functionTable_unlined,
      Analysis.keepsLines_inference.run, Analysis.keepsLines_operators.run,
      Analysis.purity_unlined, SignCheck.run_unlined, List.map_append]
  have hfunctions : (AnalysisReport.ofProgram program.unlined).functions =
      (AnalysisReport.ofProgram program).functions.unlined := program.functionTable_unlined
  rw [analyze, AnalysisReport.verdict, hfindings, hfunctions, errorCount_unlinedFindings, analyze,
    AnalysisReport.verdict]
  split <;> rfl

end Tide
