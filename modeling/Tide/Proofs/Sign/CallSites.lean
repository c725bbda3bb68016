import Tide.Analysis.Sign
import Tide.Proofs.Grammar.Chains
import Tide.Proofs.Tree.Expressions

/-!
# The calls that are checked

The check of call sites looks at the expressions of every statement, once each and with the facts
known there.  So a literal that breaks a contract is found in all of them.  The values of the fields
of classes belong to no statement, and the check passes them by.
-/

namespace Tide

/-! ## Contracted arguments -/

/-- An argument that stands for a parameter contracted not to be negative. -/
structure ContractedArgument where
  argument : Expr
  parameter : String
  function : String

namespace Expr

/-- A negative number, or the negation of a positive one. -/
def isNegativeLiteral : Expr → Bool
  | .literal _ (.number value) => value.lessThan .zero
  | .unary _ .negate (.literal _ (.number value)) => Number.lessThan .zero value
  | _ => false

def isNonnegLiteral : Expr → Bool
  | .literal _ (.number value) => Number.atMost .zero value
  | _ => false

/-- The contracted arguments of a call. -/
def contractedArguments (table : FunctionTable) : Expr → List ContractedArgument
  | .call _ callee arguments =>
    (callee.calleeName.bind table.find).elim [] fun info =>
      (info.parameters.zip arguments).filter (fun pair => info.nonneg.contains pair.1.1) |>.map
        fun pair => ⟨pair.2, pair.1.1, info.name⟩
  | _ => []

/-- The contracted arguments of all calls in an expression. -/
def callSites (table : FunctionTable) (expression : Expr) : List ContractedArgument :=
  expression.subterms.flatMap (contractedArguments table)

end Expr

namespace ContractedArgument

/-- What is reported of the argument. -/
def finding (site : ContractedArgument) : Diagnostic :=
  ⟨site.argument.line, .negativeArgument site.parameter site.function⟩

def isNegativeLiteral (site : ContractedArgument) : Bool := site.argument.isNegativeLiteral

end ContractedArgument

namespace Facts

/-- The argument is negative by what is known. -/
def refutes (facts : Facts) (site : ContractedArgument) : Bool :=
  facts.evaluate site.argument = .negative

theorem evaluate_negativeLiteral (facts : Facts) {expression : Expr}
    (hliteral : expression.isNegativeLiteral = true) : facts.evaluate expression = .negative := by
  unfold Expr.isNegativeLiteral at hliteral
  split at hliteral
  case h_1 line value =>
    have hvalue : Number.atMost .zero value = false := by
      simp only [Number.lessThan, Number.atMost, Bool.and_eq_true, decide_eq_true_eq] at hliteral ⊢
      simp [hliteral.2]
    simp [evaluate, Sign.ofNumber, hvalue, hliteral]
  case h_2 line inner value => simp [evaluate, Sign.ofNegated, Expr.number?, hliteral]
  case h_3 => cases hliteral

theorem evaluate_nonnegLiteral (facts : Facts) {expression : Expr}
    (hliteral : expression.isNonnegLiteral = true) : facts.evaluate expression = .nonneg := by
  unfold Expr.isNonnegLiteral at hliteral
  split at hliteral
  case h_1 line value => simp [evaluate, Sign.ofNumber, hliteral]
  case h_2 => cases hliteral

end Facts

namespace SignCheck

/-- What is found at a call are its contracted arguments that are known to be negative. -/
theorem callFindings_eq (table : FunctionTable) (facts : Facts) (expression : Expr) :
    callFindings table facts expression =
      ((expression.contractedArguments table).filter facts.refutes).map
        ContractedArgument.finding := by
  cases expression with
  | call line callee arguments =>
      rw [callFindings, Expr.contractedArguments]
      cases callee.calleeName.bind table.find with
      | none => rfl
      | some info =>
          simp only [Option.elim_some]
          induction info.parameters.zip arguments with
          | nil => rfl
          | cons head tail ih =>
              by_cases hcontracted : info.nonneg.contains head.1.1 = true <;>
                by_cases hnegative : facts.evaluate head.2 = .negative <;>
                simp_all [Facts.refutes, ContractedArgument.finding]
  | _ => rfl

/-! ## What the walk looks at -/

/-- An expression that the walk looks at, and what is known there. -/
structure Visit where
  facts : Facts
  expression : Expr

@[simp]
theorem Visit.expression_comp_mk (facts : Facts) : Visit.expression ∘ Visit.mk facts = id := rfl

/-- The contracted arguments that are reported where the walk looks. -/
def Visit.flagged (table : FunctionTable) (visit : Visit) : List ContractedArgument :=
  (visit.expression.callSites table).filter visit.facts.refutes

namespace Visits

variable (table : FunctionTable)

mutual

/-- What the walk looks at in a statement. -/
def stmt (contract : Option Contract) (facts : Facts) : Stmt → List Visit
  | .simple _ action => action.expressions.map (Visit.mk facts)
  | .function _ declaration => function facts declaration
  | .classDecl _ ⟨_, _, _, _, classMembers⟩ => members facts classMembers
  | .nested _ opener body => opener.expressions.map (Visit.mk facts) ++ block contract facts body
  | .branch _ condition positive alternative =>
    ⟨facts, condition⟩ :: (block contract facts positive ++
      negative contract (callSites.block table contract facts positive).1 alternative)
  | .switch _ scrutinee clauses default =>
    ⟨facts, scrutinee⟩ :: (cases contract facts clauses ++
      fallback contract (callSites.cases table contract facts clauses).1 default)
  | .select _ scrutinee clauses default =>
    ⟨facts, scrutinee⟩ :: (arms contract facts clauses ++
      fallback contract (callSites.arms table contract facts clauses).1 default)
  | .attempt _ body _ handler =>
    block contract facts body ++
      block contract (callSites.block table contract facts body).1 handler

def stmts (contract : Option Contract) (facts : Facts) : List Stmt → List Visit
  | [] => []
  | first :: rest =>
    stmt contract facts first ++ stmts contract (callSites.stmt table contract facts first).1 rest

def block (contract : Option Contract) (facts : Facts) : Block → List Visit
  | ⟨_, statements⟩ => stmts contract facts.push statements

def function (facts : Facts) : FunctionDecl → List Visit
  | ⟨_, _, name, _, _, _, ⟨_, statements⟩⟩ =>
    let contract := contractOf table name
    let start := contract.parameters.foldl (fun inner parameter => inner.bind parameter .nonneg)
      facts.push
    stmts (some contract) start statements

def members (facts : Facts) : List ClassMember → List Visit
  | [] => []
  | .field _ _ :: rest => members facts rest
  | .method _ declaration :: rest =>
    function facts declaration ++ members (callSites.function table facts declaration).1 rest

def negative (contract : Option Contract) (facts : Facts) : Option Stmt → List Visit
  | none => []
  | some statement => stmt contract facts statement

def cases (contract : Option Contract) (facts : Facts) : List SwitchCase → List Visit
  | [] => []
  | ⟨_, body⟩ :: rest =>
    block contract facts body ++ cases contract (callSites.block table contract facts body).1 rest

def arms (contract : Option Contract) (facts : Facts) : List MatchArm → List Visit
  | [] => []
  | ⟨_, body⟩ :: rest =>
    block contract facts body ++ arms contract (callSites.block table contract facts body).1 rest

def fallback (contract : Option Contract) (facts : Facts) : Option Block → List Visit
  | none => []
  | some body => block contract facts body

end

/-! ## The findings are those at what it looks at -/

/-- What is reported where the walk looks. -/
def report (visits : List Visit) : List Diagnostic :=
  (visits.flatMap (Visit.flagged table)).map ContractedArgument.finding

theorem report_append (front back : List Visit) :
    report table (front ++ back) = report table front ++ report table back := by
  rw [report, List.flatMap_append, List.map_append, report, report]

theorem report_visit (facts : Facts) (expressions : List Expr) :
    report table (expressions.map (Visit.mk facts)) =
      SignCheck.callSites.calls table facts expressions := by
  have hfindings := funext (callFindings_eq table facts)
  simp only [report, calls, hfindings, List.flatMap_map, List.map_flatMap, Visit.flagged,
    Expr.callSites, List.filter_flatMap]

theorem report_cons (facts : Facts) (expression : Expr) (rest : List Visit) :
    report table (⟨facts, expression⟩ :: rest) =
      SignCheck.callSites.calls table facts [expression] ++ report table rest := by
  rw [← report_visit, ← report_append]
  rfl

/-- Looking for negative arguments, the walk reports nothing about the action itself. -/
theorem action_snd (contract : Option Contract) (facts : Facts) (line : Nat) (action : Action) :
    (callSites.action contract facts line action).2 = [] := by
  unfold SignCheck.action
  split
  · rfl
  · split <;> rfl

mutual

theorem stmt_snd : ∀ statement contract facts,
    (callSites.stmt table contract facts statement).2 =
      report table (stmt table contract facts statement)
  | .simple line action, contract, facts => by
      rw [stmt, report_visit, ← List.append_nil (calls ..), ← action_snd contract facts line action]
      rfl
  | .function _ declaration, _, facts => function_snd declaration facts
  | .classDecl _ ⟨_, _, _, _, classMembers⟩, _, facts => members_snd classMembers facts
  | .nested _ opener body, contract, facts => by
      rw [stmt, report_append, report_visit, ← block_snd body contract facts]
      rfl
  | .branch _ condition positive alternative, contract, facts => by
      rw [stmt, report_cons, report_append, ← block_snd positive, ← negative_snd alternative,
        ← List.append_assoc]
      rfl
  | .switch _ scrutinee clauses default, contract, facts => by
      rw [stmt, report_cons, report_append, ← cases_snd clauses, ← fallback_snd default,
        ← List.append_assoc]
      rfl
  | .select _ scrutinee clauses default, contract, facts => by
      rw [stmt, report_cons, report_append, ← arms_snd clauses, ← fallback_snd default,
        ← List.append_assoc]
      rfl
  | .attempt _ body _ handler, contract, facts => by
      rw [stmt, report_append, ← block_snd body, ← block_snd handler]
      rfl

theorem stmts_snd : ∀ statements contract facts,
    (callSites.stmts table contract facts statements).2 =
      report table (stmts table contract facts statements)
  | [], _, _ => rfl
  | first :: rest, contract, facts => by
      rw [stmts, report_append, ← stmt_snd first, ← stmts_snd rest]
      rfl

theorem block_snd : ∀ body contract facts,
    (callSites.block table contract facts body).2 = report table (block table contract facts body)
  | ⟨_, statements⟩, contract, facts => stmts_snd statements contract facts.push

theorem function_snd : ∀ declaration facts,
    (callSites.function table facts declaration).2 = report table (function table facts declaration)
  | ⟨_, _, _, _, _, _, ⟨_, statements⟩⟩, _ => stmts_snd statements _ _

theorem members_snd : ∀ classMembers facts,
    (callSites.members table facts classMembers).2 =
      report table (members table facts classMembers)
  | [], _ => rfl
  | .field _ _ :: rest, facts => members_snd rest facts
  | .method _ declaration :: rest, facts => by
      rw [members, report_append, ← function_snd declaration, ← members_snd rest]
      rfl

theorem negative_snd : ∀ alternative contract facts,
    (callSites.negative table contract facts alternative).2 =
      report table (negative table contract facts alternative)
  | none, _, _ => rfl
  | some statement, contract, facts => stmt_snd statement contract facts

theorem cases_snd : ∀ clauses contract facts,
    (callSites.cases table contract facts clauses).2 =
      report table (cases table contract facts clauses)
  | [], _, _ => rfl
  | ⟨_, body⟩ :: rest, contract, facts => by
      rw [cases, report_append, ← block_snd body, ← cases_snd rest]
      rfl

theorem arms_snd : ∀ clauses contract facts,
    (callSites.arms table contract facts clauses).2 =
      report table (arms table contract facts clauses)
  | [], _, _ => rfl
  | ⟨_, body⟩ :: rest, contract, facts => by
      rw [arms, report_append, ← block_snd body, ← arms_snd rest]
      rfl

theorem fallback_snd : ∀ default contract facts,
    (callSites.fallback table contract facts default).2 =
      report table (fallback table contract facts default)
  | none, _, _ => rfl
  | some body, contract, facts => block_snd body contract facts

end

/-! ## It looks at the expressions of every statement -/

mutual

theorem stmt_expressions : ∀ statement contract facts,
    (stmt table contract facts statement).map Visit.expression =
      (Node.statements (Node.ofStmt .declarations statement)).flatMap Stmt.ownExpressions
  | .simple _ action, _, _ => by
      simp [stmt, Node.ofStmt, Node.ofAction, Stmt.ownExpressions]
  | .function _ declaration, _, facts => function_expressions declaration facts
  | .classDecl _ ⟨_, _, _, _, classMembers⟩, _, facts => members_expressions classMembers facts
  | .nested _ opener body, contract, facts => by
      simp [stmt, Node.ofStmt, Stmt.ownExpressions, block_expressions body]
  | .branch _ condition positive alternative, contract, facts => by
      simp [stmt, Node.ofStmt, Stmt.ownExpressions, block_expressions positive,
        negative_expressions alternative]
  | .switch _ scrutinee clauses default, contract, facts => by
      simp [stmt, Node.ofStmt, Stmt.ownExpressions, cases_expressions clauses,
        fallback_expressions default]
  | .select _ scrutinee clauses default, contract, facts => by
      simp [stmt, Node.ofStmt, Stmt.ownExpressions, arms_expressions clauses,
        fallback_expressions default]
  | .attempt _ body _ handler, contract, facts => by
      simp [stmt, Node.ofStmt, Stmt.ownExpressions, block_expressions body,
        block_expressions handler]

theorem stmts_expressions : ∀ statements contract facts,
    (stmts table contract facts statements).map Visit.expression =
      (Node.statements (Node.ofStmts .declarations statements)).flatMap Stmt.ownExpressions
  | [], _, _ => rfl
  | first :: rest, contract, facts => by
      simp [stmts, Node.ofStmts, stmt_expressions first, stmts_expressions rest]

theorem block_expressions : ∀ body contract facts,
    (block table contract facts body).map Visit.expression =
      (Node.statements (Node.ofBlock .declarations body)).flatMap Stmt.ownExpressions
  | ⟨_, statements⟩, contract, facts => stmts_expressions statements contract facts.push

theorem function_expressions : ∀ declaration facts,
    (function table facts declaration).map Visit.expression =
      (Node.statements (Node.ofFunction declaration)).flatMap Stmt.ownExpressions
  | ⟨_, _, _, _, _, _, ⟨_, statements⟩⟩, _ => by
      simp [function, Node.ofFunction, Node.ofBlock, stmts_expressions statements]

theorem members_expressions : ∀ classMembers facts,
    (members table facts classMembers).map Visit.expression =
      (Node.statements (Node.ofMembers classMembers)).flatMap Stmt.ownExpressions
  | [], _ => rfl
  | .field _ _ :: rest, facts => by
      simp [members, Node.ofMembers, members_expressions rest]
  | .method _ declaration :: rest, facts => by
      simp [members, Node.ofMembers, function_expressions declaration, members_expressions rest]

theorem negative_expressions : ∀ alternative contract facts,
    (negative table contract facts alternative).map Visit.expression =
      (Node.statements (Node.ofNegative .declarations alternative)).flatMap Stmt.ownExpressions
  | none, _, _ => rfl
  | some statement, contract, facts => stmt_expressions statement contract facts

theorem cases_expressions : ∀ clauses contract facts,
    (cases table contract facts clauses).map Visit.expression =
      (Node.statements (Node.ofCases .declarations clauses)).flatMap Stmt.ownExpressions
  | [], _, _ => rfl
  | ⟨_, body⟩ :: rest, contract, facts => by
      simp [cases, Node.ofCases, block_expressions body, cases_expressions rest]

theorem arms_expressions : ∀ clauses contract facts,
    (arms table contract facts clauses).map Visit.expression =
      (Node.statements (Node.ofArms .declarations clauses)).flatMap Stmt.ownExpressions
  | [], _, _ => rfl
  | ⟨_, body⟩ :: rest, contract, facts => by
      simp [arms, Node.ofArms, block_expressions body, arms_expressions rest]

theorem fallback_expressions : ∀ default contract facts,
    (fallback table contract facts default).map Visit.expression =
      (Node.statements (Node.ofFallback .declarations default)).flatMap Stmt.ownExpressions
  | none, _, _ => rfl
  | some body, contract, facts => block_expressions body contract facts

end

end Visits

end SignCheck

/-! ## Whole programs -/

namespace Program

variable (table : FunctionTable) (program : Program)

/-- The contracted arguments of all calls that are met in the program. -/
def callSites : List ContractedArgument :=
  (program.nodes.filterMap Node.expression?).flatMap (Expr.callSites table)

/-- Those of the calls in statements. -/
def statementSites : List ContractedArgument :=
  program.ownExpressions.flatMap (Expr.callSites table)

/-- Those of the calls in the values of fields. -/
def fieldSites : List ContractedArgument :=
  program.fieldValues.flatMap (Expr.callSites table)

/-- The contracted arguments that are reported. -/
def flaggedSites : List ContractedArgument :=
  (SignCheck.Visits.stmts table none .empty program).flatMap (SignCheck.Visit.flagged table)

theorem callSites_perm :
    (program.callSites table).Perm (program.statementSites table ++ program.fieldSites table) := by
  rw [callSites, statementSites, fieldSites, ← List.flatMap_append]
  exact program.expressions_perm.flatMap_right _

theorem statementSites_eq :
    program.statementSites table = (SignCheck.Visits.stmts table none .empty program).flatMap
      fun visit => visit.expression.callSites table := by
  have hexpressions : _ = program.ownExpressions :=
    SignCheck.Visits.stmts_expressions table program none .empty
  rw [statementSites, ← hexpressions, List.flatMap_map]

theorem flaggedSites_sublist :
    (program.flaggedSites table).Sublist (program.statementSites table) := by
  rw [statementSites_eq]
  exact List.Sublist.flatMap_right _ fun visit _ => List.filter_sublist

theorem run_callSites :
    SignCheck.callSites.run table program =
      (program.flaggedSites table).map ContractedArgument.finding :=
  SignCheck.Visits.stmts_snd table program none .empty

/-- In statements, no negative literal is passed by. -/
theorem filter_flaggedSites :
    (program.flaggedSites table).filter ContractedArgument.isNegativeLiteral =
      (program.statementSites table).filter ContractedArgument.isNegativeLiteral := by
  rw [statementSites_eq, flaggedSites, List.filter_flatMap, List.filter_flatMap]
  congr 1
  funext visit
  rw [SignCheck.Visit.flagged, List.filter_filter]
  -- A negative literal is negative by any facts.
  apply List.filter_congr
  intro site _
  rw [Bool.and_eq_left_iff_imp]
  exact fun hliteral => decide_eq_true (visit.facts.evaluate_negativeLiteral hliteral)

theorem not_nonneg_of_mem_flaggedSites {site : ContractedArgument}
    (hsite : site ∈ program.flaggedSites table) : site.argument.isNonnegLiteral = false := by
  obtain ⟨visit, -, hflagged⟩ := List.mem_flatMap.mp hsite
  have hnegative : visit.facts.evaluate site.argument = .negative :=
    of_decide_eq_true (List.mem_filter.mp hflagged).2
  by_contra hliteral
  rw [visit.facts.evaluate_nonnegLiteral (Bool.not_eq_false _ ▸ hliteral)] at hnegative
  cases hnegative

/-- All negative literals are reported just if none of them stands in the value of a field. -/
theorem filter_flaggedSites_perm_iff :
    ((program.flaggedSites table).filter ContractedArgument.isNegativeLiteral).Perm
        ((program.callSites table).filter ContractedArgument.isNegativeLiteral) ↔
      ∀ site ∈ program.fieldSites table, site.isNegativeLiteral = false := by
  have hperm := (program.callSites_perm table).filter ContractedArgument.isNegativeLiteral
  rw [List.filter_append] at hperm
  have hfields : (program.fieldSites table).filter ContractedArgument.isNegativeLiteral = [] ↔
      ∀ site ∈ program.fieldSites table, site.isNegativeLiteral = false := by
    simp [List.filter_eq_nil_iff]
  rw [filter_flaggedSites, ← hfields]
  constructor
  · intro hall
    have hlength := (hall.trans hperm).length_eq
    rw [List.length_append] at hlength
    exact List.length_eq_zero_iff.mp (by omega)
  · intro hnone
    rw [hnone, List.append_nil] at hperm
    exact hperm.symm

/-- The check of call sites reports contracted arguments of calls in statements, each at most once.
Every negative literal among them is reported, and no literal that is not negative is.  The check
covers a whole program just if no value of a field has a negative literal in the place of a
contracted parameter. -/
theorem literal_arguments_checked :
    SignCheck.callSites.run table program =
        (program.flaggedSites table).map ContractedArgument.finding ∧
      (program.flaggedSites table).Sublist (program.statementSites table) ∧
      (program.flaggedSites table).filter ContractedArgument.isNegativeLiteral =
        (program.statementSites table).filter ContractedArgument.isNegativeLiteral ∧
      (∀ site ∈ program.flaggedSites table, site.argument.isNonnegLiteral = false) ∧
      (((program.flaggedSites table).filter ContractedArgument.isNegativeLiteral).Perm
          ((program.callSites table).filter ContractedArgument.isNegativeLiteral) ↔
        ∀ site ∈ program.fieldSites table, site.isNegativeLiteral = false) := by
  refine ⟨program.run_callSites table, program.flaggedSites_sublist table,
    program.filter_flaggedSites table, fun site hsite => ?_,
    program.filter_flaggedSites_perm_iff table⟩
  exact program.not_nonneg_of_mem_flaggedSites table hsite

/-- The tokens of `overlay nonneg_x Fn root "x" { ret x }` and, on the line after it,
`class A { let y = root(-3) }`. -/
def negativeField : List Token :=
  [⟨.keyword .overlay, "overlay", 1⟩, ⟨.identifier, "nonneg_x", 1⟩, ⟨.keyword .fnWord, "Fn", 1⟩,
   ⟨.identifier, "root", 1⟩, ⟨.string, "x", 1⟩, ⟨.symbol .openBrace, "\x7b", 1⟩,
   ⟨.keyword .returnWord, "ret", 1⟩, ⟨.identifier, "x", 1⟩, ⟨.symbol .closeBrace, "\x7d", 1⟩,
   ⟨.keyword .classWord, "class", 2⟩, ⟨.identifier, "A", 2⟩, ⟨.symbol .openBrace, "\x7b", 2⟩,
   ⟨.keyword .letWord, "let", 2⟩, ⟨.identifier, "y", 2⟩, ⟨.symbol .equals, "=", 2⟩,
   ⟨.identifier, "root", 2⟩, ⟨.symbol .openParen, "(", 2⟩, ⟨.symbol .minus, "-", 2⟩,
   ⟨.number, "3", 2⟩, ⟨.symbol .closeParen, ")", 2⟩, ⟨.symbol .closeBrace, "\x7d", 2⟩]

/-- A negative argument in the value of a field is passed by. -/
theorem negative_field_unchecked : ∃ program,
    (ofTokens negativeField).result = .ok program ∧
      ((program.callSites program.functionTable).filter
        ContractedArgument.isNegativeLiteral).map ContractedArgument.finding =
          [⟨2, .negativeArgument "x" "root"⟩] ∧
      SignCheck.callSites.run program.functionTable program = [] := by
  have hview : (ofTokens negativeField).result.toOption.map (fun program =>
      (((program.callSites program.functionTable).filter
        ContractedArgument.isNegativeLiteral).map ContractedArgument.finding,
        SignCheck.callSites.run program.functionTable program)) =
      some ([⟨2, .negativeArgument "x" "root"⟩], []) := by decide +kernel
  obtain ⟨program, hread, hshown⟩ := exists_read_of_view hview
  exact ⟨program, hread, Prod.mk.inj hshown⟩

end Program

end Tide
