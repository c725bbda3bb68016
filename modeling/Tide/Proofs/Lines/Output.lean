import Tide.Emit.Unit
import Tide.Proofs.Lines.Tree
import Tide.Proofs.Tree.Spelling

/-!
# Optimizing, showing and emitting without lines

The optimizer makes the same of trees that are the same up to lines, and neither an outline nor the
emitted code says anything about lines.
-/

namespace Tide

/-! ## Expressions -/

namespace Expr

section

variable (expression : Expr)

theorem literal?_unlined : expression.unlined.literal? = expression.literal? := by
  cases expression <;> rfl

theorem number?_unlined : expression.unlined.number? = expression.number? := by
  cases expression with
  | literal line value => cases value <;> rfl
  | _ => rfl

theorem isStringLiteral_unlined :
    expression.unlined.isStringLiteral = expression.isStringLiteral := by
  cases expression <;> rfl

theorem chain_unlined : expression.unlined.chain = expression.chain.map unlined := by
  induction expression with
  | binary line operator left right ihLeft ihRight =>
      cases operator <;> simp [unlined, chain, ihLeft]
  | _ => rfl

theorem concatenatesText_unlined :
    expression.unlined.concatenatesText = expression.concatenatesText := by
  have hsame : isStringLiteral ∘ unlined = isStringLiteral := funext isStringLiteral_unlined
  rw [concatenatesText, chain_unlined, List.any_map, hsame, concatenatesText]

end

theorem map_unlinedAll {α : Type} {view : Expr → α} {expressions : List Expr}
    (halike : ∀ expression ∈ expressions, view expression.unlined = view expression) :
    (unlinedAll expressions).map view = expressions.map view := by
  rw [unlinedAll_eq_map, List.map_map]
  exact List.map_congr_left halike

/-- An expression is shown without its lines. -/
theorem shown_unlined (palette : Text.Palette) (expression : Expr) :
    expression.unlined.shown palette = expression.shown palette := by
  induction expression with
  | call line callee arguments ihCallee ihArguments =>
      simp only [unlined, shown, shownAll_eq_map, ihCallee, map_unlinedAll ihArguments]
  | _ => simp only [unlined, shown, *]

/-- An expression is emitted without its lines. -/
theorem cppText_unlined (expression : Expr) : expression.unlined.cppText = expression.cppText := by
  induction expression with
  | binary line operator left right ihLeft ihRight =>
      cases operator <;> simp only [unlined, cppText, ihLeft, ihRight]
  | call line callee arguments ihCallee ihArguments =>
      simp only [unlined, cppText, cppTexts_eq_map, ihCallee, map_unlinedAll ihArguments]
  | _ => simp only [unlined, cppText, *]

theorem printed_unlined (expression : Expr) :
    expression.unlined.printed = expression.printed.map unlined := by
  rw [printed, printed, concatenatesText_unlined, chain_unlined]
  split <;> rfl

/-! ## Folding -/

theorem isNumber_unlined (expression : Expr) (value : Number) :
    expression.unlined.isNumber value = expression.isNumber value := by
  rw [isNumber, number?_unlined, isNumber]

/-- Whether an operand changes nothing is decided by its value. -/
theorem simplify_unlined (line : Nat) (operator : BinaryOp) (left right : Expr) :
    simplify 0 operator left.unlined right.unlined =
      (simplify line operator left right).unlined := by
  cases operator with
  | add | subtract | multiply | divide =>
      simp only [simplify, isNumber_unlined, concatenatesText_unlined]
      split_ifs <;> rfl
  | _ => rfl

theorem unaryConstant?_unlined (operator : UnaryOp) (operand : Expr) :
    unaryConstant? operator operand.unlined = unaryConstant? operator operand := by
  rw [unaryConstant?, literal?_unlined, unaryConstant?]

theorem binaryConstant?_unlined (operator : BinaryOp) (left right : Expr) :
    binaryConstant? operator left.unlined right.unlined = binaryConstant? operator left right := by
  rw [binaryConstant?, literal?_unlined, literal?_unlined, binaryConstant?]

theorem truth?_unlined (condition : Expr) : condition.unlined.truth? = condition.truth? := by
  rw [truth?, literal?_unlined, truth?]

/-- Folding goes by literals and operators, and puts what it makes on lines of the tree. -/
theorem fold_unlined (expression : Expr) : expression.unlined.fold = expression.fold.unlined := by
  induction expression with
  | unary line operator operand ih =>
      rw [unlined, fold, fold, ih, unaryConstant?_unlined]
      split <;> rfl
  | binary line operator left right ihLeft ihRight =>
      rw [unlined, fold, fold, ihLeft, ihRight, binaryConstant?_unlined]
      split
      · rfl
      · exact simplify_unlined line operator _ _
  | ternary line condition positive negative ihCondition ihPositive ihNegative =>
      rw [unlined, fold, fold, ihCondition, ihPositive, ihNegative, truth?_unlined]
      split <;> rfl
  | call line callee arguments ihCallee ihArguments =>
      simp only [unlined, fold, foldAll_eq_map, unlinedAll_eq_map, List.map_map, ihCallee]
      exact congrArg _ (List.map_congr_left ihArguments)
  | _ => simp only [unlined, fold, *]

theorem foldChain_unlined (expression : Expr) :
    expression.unlined.foldChain = expression.foldChain.unlined := by
  induction expression with
  | binary line operator left right ihLeft ihRight =>
      cases operator with
      | add => simp only [unlined, foldChain, ihLeft, fold_unlined]
      | _ => exact fold_unlined (.binary line _ left right)
  | _ => exact fold_unlined _

theorem foldPrinted_unlined (expression : Expr) :
    expression.unlined.foldPrinted = expression.foldPrinted.unlined := by
  rw [foldPrinted, foldPrinted, concatenatesText_unlined, foldChain_unlined, fold_unlined]
  split <;> rfl

end Expr

/-! ## Optimizing -/

theorem Stmt.isReturn_unlined (statement : Stmt) :
    (Unlined.stmt statement).isReturn = statement.isReturn := by
  cases statement with
  | simple line action => cases action <;> rfl
  | _ => rfl

namespace Optimize

theorem throughReturn_unlined (statements : List Stmt) :
    throughReturn (Unlined.stmts statements) = Unlined.stmts (throughReturn statements) := by
  induction statements with
  | nil => rfl
  | cons first rest ih =>
      rw [Unlined.stmts, throughReturn, throughReturn, first.isReturn_unlined, ih]
      split <;> rfl

theorem keepsLines_folding : folding.KeepsLines where
  expression := Expr.fold_unlined
  printed := Expr.foldPrinted_unlined
  statements _ := rfl

theorem keepsLines_pruning : pruning.KeepsLines where
  expression _ := rfl
  printed _ := rfl
  statements := throughReturn_unlined

end Optimize

/-- Both passes keep lines, and so do rounds of them. -/
theorem Program.optimize_unlined (program : Program) :
    program.unlined.optimize = program.optimize.unlined := by
  simp only [optimize, round, fold, prune, Optimize.keepsLines_folding.program,
    Optimize.keepsLines_pruning.program]

/-! ## Outlines -/

namespace Outline

variable (palette : Text.Palette)

theorem shown_local_unlined (binding : Local) :
    binding.unlined.shown palette = binding.shown palette := by
  rcases binding with ⟨name, constant, type, value⟩
  cases value with
  | none => rfl
  | some value =>
      simp only [Local.unlined, Local.shown, Option.map_some, Expr.shown_unlined]
      rfl

theorem shownAll_overlays_unlined (overlays : List Overlay) :
    Overlay.shownAll palette (overlays.map Overlay.unlined) =
      Overlay.shownAll palette overlays := by
  rw [Overlay.shownAll, List.map_map]
  rfl

theorem actionText_unlined (action : Action) :
    actionText palette action.unlined = actionText palette action := by
  cases action with
  | leave value | print value =>
      cases value <;>
        simp only [Action.unlined, actionText, Option.map_none, Option.map_some,
          Expr.shown_unlined, Action.tag]
  | _ =>
      simp only [Action.unlined, actionText, Expr.shown_unlined, shown_local_unlined,
        shownAll_overlays_unlined, Action.tag]

theorem openerText_unlined (opener : Opener) :
    openerText palette opener.unlined = openerText palette opener := by
  cases opener <;> simp only [Opener.unlined, openerText, Expr.shown_unlined, Opener.tag]

theorem functionText_unlined (flavor : FunctionFlavor) (name : String)
    (parameters : ParameterList) (result : Option TypeName) (overlays : List Overlay) :
    functionText palette flavor name parameters result (overlays.map Overlay.unlined) =
      functionText palette flavor name parameters result overlays := by
  simp only [functionText, shownAll_overlays_unlined, List.isEmpty_map]

theorem headText_unlined (tag : String) (expression : Expr) :
    headText palette tag expression.unlined = headText palette tag expression := by
  rw [headText, Expr.shown_unlined, headText]

mutual

/-- At any depth a statement is shown without its lines. -/
theorem statement_unlined (depth : Nat) : ∀ found,
    statement palette depth (Unlined.stmt found) = statement palette depth found
  | .simple _ action => by simp only [Unlined.stmt, statement, actionText_unlined]
  | .function _ declaration => by
      simp only [Unlined.stmt, statement, function_unlined depth declaration]
  | .classDecl _ ⟨_, _, _, _, classMembers⟩ => by
      simp only [Unlined.stmt, Unlined.classDecl, statement,
        members_unlined (depth + 1) classMembers]
  | .nested _ opener body => by
      simp only [Unlined.stmt, statement, openerText_unlined, block_unlined (depth + 1) body]
  | .branch _ condition positive negative => by
      simp only [Unlined.stmt, statement, headText_unlined,
        block_unlined (depth + 1) positive, negativeBranch_unlined depth negative]
  | .switch _ scrutinee clauses fallback => by
      simp only [Unlined.stmt, statement, headText_unlined, cases_unlined (depth + 1) clauses,
        fallbackBlock_unlined (depth + 1) fallback]
  | .select _ scrutinee clauses fallback => by
      simp only [Unlined.stmt, statement, headText_unlined, arms_unlined (depth + 1) clauses,
        fallbackBlock_unlined (depth + 1) fallback]
  | .attempt _ body _ handler => by
      simp only [Unlined.stmt, statement, block_unlined (depth + 1) body,
        block_unlined (depth + 1) handler]

theorem statements_unlined (depth : Nat) : ∀ found,
    statements palette depth (Unlined.stmts found) = statements palette depth found
  | [] => rfl
  | first :: rest => by
      simp only [Unlined.stmts, statements, statement_unlined depth first,
        statements_unlined depth rest]

theorem block_unlined (depth : Nat) : ∀ found,
    block palette depth (Unlined.block found) = block palette depth found
  | ⟨_, body⟩ => statements_unlined depth body

theorem function_unlined (depth : Nat) : ∀ declaration,
    function palette depth (Unlined.function declaration) = function palette depth declaration
  | ⟨_, _, _, _, _, _, body⟩ => by
      simp only [Unlined.function, function, functionText_unlined, block_unlined (depth + 1) body]

theorem members_unlined (depth : Nat) : ∀ classMembers,
    members palette depth (Unlined.members classMembers) = members palette depth classMembers
  | [] => rfl
  | .field _ binding :: rest => by
      simp only [Unlined.members, members, shown_local_unlined, members_unlined depth rest]
  | .method _ declaration :: rest => by
      simp only [Unlined.members, members, function_unlined (depth + 1) declaration,
        members_unlined depth rest]

theorem negativeBranch_unlined (depth : Nat) : ∀ negative,
    negativeBranch palette depth (Unlined.negative negative) =
      negativeBranch palette depth negative
  | none => rfl
  | some negative => by
      simp only [Unlined.negative, negativeBranch, statement_unlined (depth + 1) negative]

theorem cases_unlined (depth : Nat) : ∀ clauses,
    cases palette depth (Unlined.cases clauses) = cases palette depth clauses
  | [] => rfl
  | ⟨_, body⟩ :: rest => by
      simp only [Unlined.cases, cases, block_unlined (depth + 1) body, cases_unlined depth rest]

theorem arms_unlined (depth : Nat) : ∀ clauses,
    arms palette depth (Unlined.arms clauses) = arms palette depth clauses
  | [] => rfl
  | ⟨_, body⟩ :: rest => by
      simp only [Unlined.arms, arms, block_unlined (depth + 1) body, arms_unlined depth rest]

theorem fallbackBlock_unlined (depth : Nat) : ∀ fallback,
    fallbackBlock palette depth (Unlined.fallback fallback) = fallbackBlock palette depth fallback
  | none => rfl
  | some body => by
      simp only [Unlined.fallback, fallbackBlock, block_unlined (depth + 1) body]

end

end Outline

/-- The outline says nothing about lines. -/
theorem Program.outline_unlined (palette : Text.Palette) (program : Program) :
    program.unlined.outline palette = program.outline palette :=
  congrArg String.join (Outline.statements_unlined palette 0 program)

/-! ## Emitted code -/

namespace Emit

theorem localDeclaration_unlined (binding : Local) :
    localDeclaration binding.unlined = localDeclaration binding := by
  rcases binding with ⟨name, constant, type, value⟩
  cases type <;> cases value <;>
    simp only [Local.unlined, localDeclaration, Option.map_none, Option.map_some,
      Expr.cppText_unlined] <;>
    rfl

theorem fieldType_unlined (binding : Local) : fieldType binding.unlined = fieldType binding := by
  have hliteral : (binding.value.map Expr.unlined).bind Expr.literal? =
      binding.value.bind Expr.literal? := by
    rw [Option.bind_map]
    exact congrArg binding.value.bind (funext Expr.literal?_unlined)
  simp only [fieldType, Local.unlined, hliteral]

theorem fieldDeclaration_unlined (binding : Local) :
    fieldDeclaration binding.unlined = fieldDeclaration binding := by
  have htype := fieldType_unlined binding
  rcases binding with ⟨name, constant, type, value⟩
  cases value with
  | none => rfl
  | some value =>
      simp only [fieldDeclaration, htype]
      simp only [Local.unlined, Option.map_some, Expr.cppText_unlined]
      rfl

theorem derivative_unlined (name : String) (body : Expr) (argument : String) :
    derivative name body.unlined argument = derivative name body argument := by
  simp only [derivative, Expr.cppText_unlined]

/-- The code for an action says nothing about lines. -/
theorem actionLines_unlined (action : Action) :
    actionLines action.unlined = actionLines action := by
  have hnames : (fun overlay : Overlay => overlay.name) ∘ Overlay.unlined = (·.name) := rfl
  cases action with
  | declare binding => simp only [Action.unlined, actionLines, localDeclaration_unlined]
  | directive overlays => simp only [Action.unlined, actionLines, List.map_map, hnames]
  | assign target operator value =>
      cases operator <;>
        simp only [Action.unlined, actionLines, assignment, Expr.cppText_unlined]
  | leave value =>
      cases value <;>
        simp only [Action.unlined, actionLines, Option.map_none, Option.map_some,
          Expr.cppText_unlined]
  | print value =>
      have htexts : Expr.cppText ∘ Expr.unlined = Expr.cppText := funext Expr.cppText_unlined
      cases value <;>
        simp only [Action.unlined, actionLines, Option.map_none, Option.map_some,
          Expr.printed_unlined, List.map_map, htexts]
  | _ => simp only [Action.unlined, actionLines, scaling, Expr.cppText_unlined]

theorem actionCommands_unlined (found : Action) :
    actionCommands found.unlined = actionCommands found := by
  have hlines := actionLines_unlined found
  cases found with
  | derivative name body argument => exact derivative_unlined name body argument
  | _ => exact congrArg (fun lines => (pure (lines.map Command.line) : Emitter _)) hlines

theorem actionNote_unlined (found : Action) : actionNote found.unlined = actionNote found := by
  cases found <;> rfl

theorem action_unlined (found : Action) : action found.unlined = action found := by
  rw [action, actionNote_unlined, actionCommands_unlined, action]

/-- Whether a switch is native is decided by its labels. -/
theorem isNative_unlined (clauses : List SwitchCase) :
    isNative (Unlined.cases clauses) = isNative clauses := by
  have hlabels : (Unlined.cases clauses).mapM (caseLabel? ·.label) =
      clauses.mapM (caseLabel? ·.label) := by
    induction clauses with
    | nil => rfl
    | cons first rest ih =>
        rcases first with ⟨label, body⟩
        rw [Unlined.cases, List.mapM_cons, ih, List.mapM_cons]
  rw [isNative, hlabels, isNative]

theorem functionOpening_unlined (placement : Placement) (flavor : FunctionFlavor) (name : String)
    (parameters : List Parameter) (result : Option TypeName) (overlays : List Overlay) :
    functionOpening placement flavor name parameters result (overlays.map Overlay.unlined) =
      functionOpening placement flavor name parameters result overlays := by
  have hnames : (fun overlay : Overlay => overlay.name) ∘ Overlay.unlined = (·.name) := rfl
  simp only [functionOpening, List.isEmpty_map, List.map_map, hnames]

theorem task_unlined (list : String) (priority : Expr) (body : List Command) :
    task list priority.unlined body = task list priority body := by
  rw [task, Expr.cppText_unlined, task]

/-- The parts of the statement that may be emitted apart from it are emitted alike. -/
def PartsAlike : Stmt → Prop
  | .nested _ _ body => block (Unlined.block body) = block body
  | .branch _ _ positive branch =>
    block (Unlined.block positive) = block positive ∧
      negative (Unlined.negative branch) = negative branch
  | _ => True

section

variable {first : Stmt} {rest : List Stmt}

/-- A task goes into the run list that is open, so it is not emitted as a statement of its own. -/
theorem stmts_cons_unlined (hfirst : stmt (Unlined.stmt first) = stmt first)
    (hparts : PartsAlike first)
    (hrest : ∀ list, stmts list (Unlined.stmts rest) = stmts list rest) (list : Option String) :
    stmts list (Unlined.stmts (first :: rest)) = stmts list (first :: rest) := by
  rw [Unlined.stmts]
  cases first with
  | nested line opener body =>
      cases opener with
      | schedule priority =>
          have hbody : block (Unlined.block body) = block body := hparts
          cases list <;>
            simp only [Unlined.stmt, Opener.unlined, stmts, hbody, hrest, task_unlined]
      | _ =>
          simp only [Unlined.stmt, Opener.unlined] at hfirst ⊢
          simp only [stmts, hfirst, hrest]
  | _ =>
      simp only [Unlined.stmt] at hfirst ⊢
      simp only [stmts, hfirst, hrest]

/-- An if or a block that follows an else goes on with its line. -/
theorem negative_some_unlined (hfirst : stmt (Unlined.stmt first) = stmt first)
    (hparts : PartsAlike first) :
    negative (Unlined.negative (some first)) = negative (some first) := by
  rw [Unlined.negative]
  cases first with
  | branch line condition positive branch =>
      simp only [Unlined.stmt, negative, hparts.1, hparts.2, Expr.cppText_unlined]
  | nested line opener body =>
      cases opener with
      | block =>
          have hbody : block (Unlined.block body) = block body := hparts
          simp only [Unlined.stmt, Opener.unlined, negative, hbody]
      | _ =>
          simp only [Unlined.stmt, Opener.unlined] at hfirst ⊢
          simp only [negative, hfirst]
  | _ =>
      simp only [Unlined.stmt] at hfirst ⊢
      simp only [negative, hfirst]

end

mutual

/-- The emitters are equal, so they note the same and count the same names as well. -/
theorem stmt_unlined : ∀ found, stmt (Unlined.stmt found) = stmt found
  | .simple _ found => by simp only [Unlined.stmt, stmt, action_unlined]
  | .function _ declaration => by
      simp only [Unlined.stmt, stmt, function_unlined .inBlock declaration]
  | .classDecl _ declaration => by
      simp only [Unlined.stmt, stmt, classDecl_unlined declaration]
  | .nested _ opener body => by
      have ih := block_unlined body
      cases opener <;>
        simp only [Unlined.stmt, Opener.unlined, stmt, ih, Expr.cppText_unlined, task_unlined]
  | .branch _ condition positive branch => by
      simp only [Unlined.stmt, stmt, block_unlined positive, negative_unlined branch,
        Expr.cppText_unlined]
  | .switch _ scrutinee clauses default => by
      simp only [Unlined.stmt, stmt, isNative_unlined, nativeCases_unlined clauses,
        nativeFallback_unlined default, testedCases_unlined clauses,
        testedFallback_unlined default, Expr.cppText_unlined]
  | .select _ scrutinee clauses default => by
      simp only [Unlined.stmt, stmt, arms_unlined clauses, testedFallback_unlined default,
        Expr.cppText_unlined]
  | .attempt _ body _ handler => by
      simp only [Unlined.stmt, stmt, block_unlined body, block_unlined handler]

theorem parts_unlined : ∀ found, PartsAlike found
  | .nested _ _ body => block_unlined body
  | .branch _ _ positive branch => ⟨block_unlined positive, negative_unlined branch⟩
  | .simple _ _ => trivial
  | .function _ _ => trivial
  | .classDecl _ _ => trivial
  | .switch _ _ _ _ => trivial
  | .select _ _ _ _ => trivial
  | .attempt _ _ _ _ => trivial

theorem stmts_unlined : ∀ found list, stmts list (Unlined.stmts found) = stmts list found
  | [], _ => rfl
  | first :: rest, list =>
      stmts_cons_unlined (stmt_unlined first) (parts_unlined first) (stmts_unlined rest) list

theorem block_unlined : ∀ found, block (Unlined.block found) = block found
  | ⟨_, statements⟩ => stmts_unlined statements none

theorem negative_unlined : ∀ found, negative (Unlined.negative found) = negative found
  | none => rfl
  | some found => negative_some_unlined (stmt_unlined found) (parts_unlined found)

theorem nativeCases_unlined : ∀ clauses, nativeCases (Unlined.cases clauses) = nativeCases clauses
  | [] => rfl
  | ⟨_, body⟩ :: rest => by
      simp only [Unlined.cases, nativeCases, block_unlined body, nativeCases_unlined rest]

theorem nativeFallback_unlined :
    ∀ default, nativeFallback (Unlined.fallback default) = nativeFallback default
  | none => rfl
  | some body => by simp only [Unlined.fallback, nativeFallback, block_unlined body]

theorem testedCases_unlined : ∀ clauses value matched,
    testedCases value matched (Unlined.cases clauses) = testedCases value matched clauses
  | [], _, _ => rfl
  | ⟨_, body⟩ :: rest, value, matched => by
      simp only [Unlined.cases, testedCases, block_unlined body, testedCases_unlined rest]

theorem arms_unlined : ∀ clauses value matched,
    arms value matched (Unlined.arms clauses) = arms value matched clauses
  | [], _, _ => rfl
  | ⟨_, body⟩ :: rest, value, matched => by
      simp only [Unlined.arms, arms, block_unlined body, arms_unlined rest]

theorem testedFallback_unlined : ∀ default matched,
    testedFallback matched (Unlined.fallback default) = testedFallback matched default
  | none, _ => rfl
  | some body, _ => by simp only [Unlined.fallback, testedFallback, block_unlined body]

theorem function_unlined (placement : Placement) : ∀ declaration,
    function placement (Unlined.function declaration) = function placement declaration
  | ⟨_, _, _, _, _, _, body⟩ => by
      simp only [Unlined.function, function, functionOpening_unlined, block_unlined body]

theorem classDecl_unlined :
    ∀ declaration, classDecl (Unlined.classDecl declaration) = classDecl declaration
  | ⟨_, kind, _, _, classMembers⟩ => by
      simp only [Unlined.classDecl, classDecl, members_unlined classMembers]

theorem members_unlined : ∀ classMembers current,
    members current (Unlined.members classMembers) = members current classMembers
  | [], _ => rfl
  | .field _ binding :: rest, _ => by
      simp only [Unlined.members, members, fieldDeclaration_unlined, members_unlined rest]
  | .method _ declaration :: rest, _ => by
      simp only [Unlined.members, members, function_unlined .member declaration,
        members_unlined rest]

end

/-! ## The whole file -/

section

variable (program : Program)

theorem topClasses_unlined :
    topClasses program.unlined = (topClasses program).map Unlined.classDecl := by
  rw [topClasses, topClasses, Program.unlined, Unlined.stmts_eq_map, List.filterMap_map,
    List.map_filterMap]
  apply List.filterMap_congr
  intro found hmem
  cases found <;> rfl

theorem topFunctions_unlined :
    topFunctions program.unlined = (topFunctions program).map Unlined.function := by
  rw [topFunctions, topFunctions, Program.unlined, Unlined.stmts_eq_map, List.filterMap_map,
    List.map_filterMap]
  apply List.filterMap_congr
  intro found hmem
  cases found <;> rfl

theorem topStatements_unlined :
    topStatements program.unlined = Unlined.stmts (topStatements program) := by
  have hdeclaration : (fun found => !isDeclaration found) ∘ Unlined.stmt =
      fun found => !isDeclaration found := by
    funext found
    cases found <;> rfl
  rw [topStatements, topStatements, Program.unlined, Unlined.stmts_eq_map, Unlined.stmts_eq_map,
    List.filter_map, hdeclaration]

theorem declarations_map {α : Type} {emitOne : α → Emitter (List Command)} {erase : α → α}
    (halike : ∀ declaration, emitOne (erase declaration) = emitOne declaration) (found : List α) :
    declarations emitOne (found.map erase) = declarations emitOne found := by
  induction found with
  | nil => rfl
  | cons first rest ih => rw [List.map_cons, declarations, halike, ih, declarations]

/-- The code says nothing about lines: neither the declarations nor `main` do. -/
theorem commands_unlined : commands program.unlined = commands program := by
  rw [commands, topClasses_unlined, topFunctions_unlined, topStatements_unlined,
    declarations_map classDecl_unlined, declarations_map (function_unlined .free),
    stmts_unlined, commands]

end

end Emit

/-- The emitted file says nothing about lines. -/
theorem Program.emit_unlined (program : Program) (options : Emit.Options) :
    program.unlined.emit options = program.emit options := by
  rw [emit, Emit.commands_unlined, emit]

end Tide
