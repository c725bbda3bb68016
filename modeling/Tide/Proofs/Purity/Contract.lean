import Tide.Analysis.Report
import Tide.Proofs.Purity.PureNames
import Tide.Proofs.Tree.Occurrence

/-!
# The contract of pure functions

In an accepted program a function declared pure has no side effect and assigns to none of its
parameters, and neither does any function that its calls can reach.  Calls go by bare names, so a
call reaches every declaration of its name, and call chains may be cyclic.
-/

namespace Tide

/-! ## What a pure function keeps to -/

/-- The statement gives the variable, or a part of it, a new value; declarations do not. -/
inductive Stmt.Reassigns : Stmt → String → Prop
  | assign {line target operator value name} (hroot : target.rootName = some name) :
      Reassigns (.simple line (.assign target operator value)) name
  | step {line target operator name} (hroot : target.rootName = some name) :
      Reassigns (.simple line (.step target operator)) name
  | mutate {line target value name} (hroot : target.rootName = some name) :
      Reassigns (.simple line (.mutate target value)) name
  | bounds {line name low high} : Reassigns (.simple line (.bounds name low high)) name
  | scale {line name fromLow fromHigh toLow toHigh} :
      Reassigns (.simple line (.scale name fromLow fromHigh toLow toHigh)) name

namespace FunctionDecl

/-- Nothing in the body has a side effect or assigns to a parameter. -/
structure KeepsPure (declaration : FunctionDecl) : Prop where
  noSideEffect : ∀ statement, declaration.body.Contains statement → statement.hasSideEffect = false
  noReassignment : ∀ statement, declaration.body.Contains statement →
    ∀ name ∈ declaration.parameterNames, ¬ statement.Reassigns name

/-- Something in the body makes a call that goes by the name. -/
def Calls (declaration : FunctionDecl) (name : String) : Prop :=
  ∃ statement, declaration.body.Contains statement ∧
    ∃ expression ∈ statement.ownExpressions, expression.Calls name

end FunctionDecl

/-- Calls lead from the function to the name, in one step or through functions declared by the names
on the way. -/
inductive Program.Reaches (program : Program) (declaration : FunctionDecl) : String → Prop
  | call {name} (hcall : declaration.Calls name) : Reaches program declaration name
  | step {caller : FunctionDecl} {name} (hreaches : Reaches program declaration caller.name)
      (hcaller : program.Declares caller) (hcall : caller.Calls name) :
      Reaches program declaration name

/-! ## Effects -/

theorem Stmt.Reassigns.assignedRoot_eq {statement : Stmt} {name : String}
    (hreassigns : statement.Reassigns name) : statement.assignedRoot = some name := by
  cases hreassigns with
  | assign hroot | step hroot | mutate hroot => exact hroot
  | bounds | scale => rfl

theorem Expr.Calls.exists_mem_namedCalls {expression : Expr} {name : String}
    (hcalls : expression.Calls name) : ∃ line, (line, name) ∈ expression.namedCalls := by
  obtain ⟨line, callee, arguments, hpart, hname⟩ := hcalls
  refine ⟨line, List.mem_filterMap.mpr ⟨_, hpart.mem_subterms, ?_⟩⟩
  simp [hname]

namespace Effects

variable {declaration : FunctionDecl}

theorem mem_statements {statement : Stmt} (hcontains : declaration.body.Contains statement) :
    statement ∈ (Node.ofBlock .ownBody declaration.body).filterMap Node.statement? :=
  List.mem_filterMap.mpr
    ⟨.statement statement, hcontains.mem_ofBlock (Node.mem_ofStmt_self statement), rfl⟩

/-- A function without effects of its own keeps to what a pure function may do. -/
theorem keepsPure_of_isClean (hclean : (ofFunction declaration).isClean = true) :
    declaration.KeepsPure := by
  simp only [isClean, ofFunction, ofBody, Bool.and_eq_true, List.isEmpty_iff,
    List.filterMap_eq_nil_iff] at hclean
  obtain ⟨heffects, hreassigned⟩ := hclean
  constructor
  · intro statement hcontains
    have heffect := heffects statement (mem_statements hcontains)
    simpa using heffect
  · intro statement hcontains name hname hreassigns
    have hroot := hreassigned statement (mem_statements hcontains)
    simp [hreassigns.assignedRoot_eq, Option.filter, hname] at hroot

/-- The calls of a function are among its effects. -/
theorem exists_mem_calls {name : String} (hcalls : declaration.Calls name) :
    ∃ line, (line, name) ∈ (ofFunction declaration).calls := by
  obtain ⟨statement, hcontains, expression, hexpression, hcalls⟩ := hcalls
  obtain ⟨line, hline⟩ := hcalls.exists_mem_namedCalls
  have hnode : .expression expression ∈ Node.ofBlock .ownBody declaration.body :=
    hcontains.mem_ofBlock (Node.mem_ofStmt_expression hexpression)
  exact ⟨line, List.mem_flatMap.mpr ⟨expression, List.mem_filterMap.mpr ⟨_, hnode, rfl⟩, hline⟩⟩

end Effects

/-! ## The walk -/

namespace Analysis.Purity

section

variable (table : FunctionTable) (inside : Bool)

theorem stmts_eq_flatMap (statements : List Stmt) :
    stmts table inside statements = statements.flatMap (stmt table inside) := by
  induction statements with
  | nil => rfl
  | cons head tail ih => rw [stmts, ih, List.flatMap_cons]

theorem block_eq_flatMap (body : Block) :
    block table inside body = body.statements.flatMap (stmt table inside) := by
  rcases body with ⟨line, statements⟩
  rw [block, stmts_eq_flatMap]

theorem cases_eq_flatMap (clauses : List SwitchCase) :
    cases table inside clauses = clauses.flatMap fun clause => block table inside clause.body := by
  induction clauses with
  | nil => rfl
  | cons head tail ih =>
      rcases head with ⟨label, body⟩
      rw [cases, ih, List.flatMap_cons]

theorem arms_eq_flatMap (clauses : List MatchArm) :
    arms table inside clauses = clauses.flatMap fun clause => block table inside clause.body := by
  induction clauses with
  | nil => rfl
  | cons head tail ih =>
      rcases head with ⟨patterns, body⟩
      rw [arms, ih, List.flatMap_cons]

theorem function_eq (declaration : FunctionDecl) :
    function table inside declaration =
      if declaration.isPure then pureFunction table declaration ++ block table true declaration.body
      else block table inside declaration.body := by
  rcases declaration with ⟨line, flavor, name, parameters, result, overlays, body⟩
  rw [function]

end

variable {table : FunctionTable} {inside : Bool} {finding : Diagnostic}

theorem mem_block {body : Block} {statement : Stmt} (hstatement : statement ∈ body.statements)
    (hfinding : finding ∈ stmt table inside statement) : finding ∈ block table inside body := by
  rw [block_eq_flatMap]
  exact List.mem_flatMap_of_mem hstatement hfinding

theorem mem_cases {clauses : List SwitchCase} {clause : SwitchCase} (hclause : clause ∈ clauses)
    (hfinding : finding ∈ block table inside clause.body) :
    finding ∈ cases table inside clauses := by
  rw [cases_eq_flatMap]
  exact List.mem_flatMap.mpr ⟨clause, hclause, hfinding⟩

theorem mem_arms {clauses : List MatchArm} {clause : MatchArm} (hclause : clause ∈ clauses)
    (hfinding : finding ∈ block table inside clause.body) :
    finding ∈ arms table inside clauses := by
  rw [arms_eq_flatMap]
  exact List.mem_flatMap.mpr ⟨clause, hclause, hfinding⟩

theorem mem_members {members : List ClassMember} {access : Access} {method : FunctionDecl}
    (hmethod : .method access method ∈ members)
    (hfinding : finding ∈ function table inside method) :
    finding ∈ Purity.members table inside members := by
  induction members with
  | nil => simp at hmethod
  | cons head tail ih =>
      rcases List.mem_cons.mp hmethod with rfl | htail
      · exact List.mem_append_left _ hfinding
      · cases head with
        | field => exact ih htail
        | method => exact List.mem_append_right _ (ih htail)

/-- What is found in a pure function of its own is found wherever it is declared. -/
theorem mem_function_of_isPure {declaration : FunctionDecl} (hpure : declaration.isPure = true)
    (hfinding : finding ∈ pureFunction table declaration) :
    finding ∈ function table inside declaration := by
  rw [function_eq, if_pos hpure]
  exact List.mem_append_left _ hfinding

/-- The walk goes into what a statement declares. -/
theorem mem_stmt_of_declares {statement : Stmt} {declaration : FunctionDecl}
    (hdeclares : statement.Declares declaration)
    (hfinding : finding ∈ function table inside declaration) :
    finding ∈ stmt table inside statement := by
  cases hdeclares with
  | function => exact hfinding
  | @method line owner access method hmethod =>
      rcases owner with ⟨classLine, kind, name, bases, members⟩
      exact mem_members hmethod hfinding

/-- The walk goes into the body of a function. -/
theorem exists_mem_function (table : FunctionTable) (inside : Bool) (declaration : FunctionDecl) :
    ∃ around, ∀ statement ∈ declaration.body.statements,
      ∀ finding ∈ stmt table around statement, finding ∈ function table inside declaration := by
  rw [function_eq]
  split
  case isTrue =>
    exact ⟨true, fun _ hstatement _ hfinding =>
      List.mem_append_right _ (mem_block hstatement hfinding)⟩
  case isFalse => exact ⟨inside, fun _ hstatement _ hfinding => mem_block hstatement hfinding⟩

theorem exists_mem_nested (table : FunctionTable) (inside : Bool) (line : Nat) (opener : Opener)
    (body : Block) :
    ∃ around, ∀ statement ∈ body.statements, ∀ finding ∈ stmt table around statement,
      finding ∈ stmt table inside (.nested line opener body) := by
  cases opener with
  | pureRegion =>
      exact ⟨true, fun _ hstatement _ hfinding =>
        List.mem_append_right _ (mem_block hstatement hfinding)⟩
  | _ => exact ⟨inside, fun _ hstatement _ hfinding => mem_block hstatement hfinding⟩

/-- The walk goes into what a statement holds. -/
theorem exists_mem_stmt_of_holds {parent child : Stmt} (hholds : parent.Holds child)
    (table : FunctionTable) (inside : Bool) :
    ∃ around, ∀ finding ∈ stmt table around child, finding ∈ stmt table inside parent := by
  cases hholds with
  | @nested line opener body _ hchild =>
      obtain ⟨around, haround⟩ := exists_mem_nested table inside line opener body
      exact ⟨around, haround child hchild⟩
  | positive hchild =>
      exact ⟨inside, fun _ hfinding => List.mem_append_left _ (mem_block hchild hfinding)⟩
  | negative => exact ⟨inside, fun _ hfinding => List.mem_append_right _ hfinding⟩
  | case hclause hchild =>
      exact ⟨inside, fun _ hfinding =>
        List.mem_append_left _ (mem_cases hclause (mem_block hchild hfinding))⟩
  | arm hclause hchild =>
      exact ⟨inside, fun _ hfinding =>
        List.mem_append_left _ (mem_arms hclause (mem_block hchild hfinding))⟩
  | switchFallback hchild | selectFallback hchild =>
      exact ⟨inside, fun _ hfinding => List.mem_append_right _ (mem_block hchild hfinding)⟩
  | body hchild =>
      exact ⟨inside, fun _ hfinding => List.mem_append_left _ (mem_block hchild hfinding)⟩
  | handler hchild =>
      exact ⟨inside, fun _ hfinding => List.mem_append_right _ (mem_block hchild hfinding)⟩

/-- The walk reaches every statement of a program. -/
theorem exists_mem_purity_of_contains {program : Program} {statement : Stmt}
    (hcontains : program.Contains statement) (table : FunctionTable) :
    ∃ inside, ∀ finding ∈ stmt table inside statement, finding ∈ purity table program := by
  -- What is around a statement decides about pure regions only, so each level may have its own.
  induction hcontains with
  | direct hstatement =>
      refine ⟨false, fun finding hfinding => ?_⟩
      rw [purity, stmts_eq_flatMap]
      exact List.mem_flatMap_of_mem hstatement hfinding
  | inner hparent hholds ih =>
      obtain ⟨inside, hinside⟩ := ih
      obtain ⟨around, haround⟩ := exists_mem_stmt_of_holds hholds table inside
      exact ⟨around, fun finding hfinding => hinside finding (haround finding hfinding)⟩
  | declared hparent hdeclares hchild ih =>
      obtain ⟨inside, hinside⟩ := ih
      obtain ⟨around, haround⟩ := exists_mem_function table inside _
      refine ⟨around, fun finding hfinding => hinside finding ?_⟩
      exact mem_stmt_of_declares hdeclares (haround _ hchild finding hfinding)

/-- Every pure function of a program is looked at. -/
theorem mem_purity_of_declares {program : Program} {declaration : FunctionDecl}
    (hdeclares : program.Declares declaration) (hpure : declaration.isPure = true)
    (hfinding : finding ∈ pureFunction table declaration) : finding ∈ purity table program := by
  obtain ⟨statement, hcontains, hdeclares⟩ := hdeclares
  obtain ⟨inside, hinside⟩ := exists_mem_purity_of_contains hcontains table
  exact hinside finding (mem_stmt_of_declares hdeclares (mem_function_of_isPure hpure hfinding))

/-- What is found about a pure function refuses the program. -/
theorem isError_of_mem_pureFunction {declaration : FunctionDecl}
    (hfinding : finding ∈ pureFunction table declaration) :
    finding.isError = true := by
  simp only [pureFunction, List.mem_append, List.mem_map, List.mem_filterMap] at hfinding
  rcases hfinding with (⟨effect, -, rfl⟩ | ⟨effect, -, rfl⟩) | ⟨call, -, hcall⟩
  · rfl
  · rfl
  · split at hcall
    · split at hcall
      · cases hcall
      · cases hcall
        rfl
    · cases hcall

end Analysis.Purity

/-! ## Accepted programs -/

namespace Program

variable {program : Program} {accepted : Accepted} {declaration : FunctionDecl}

/-- An accepted program has no errors, of whichever check. -/
theorem isError_eq_false_of_analyze (haccepted : program.analyze = .ok accepted)
    {finding : Diagnostic} (hfinding : finding ∈ (AnalysisReport.ofProgram program).findings) :
    finding.isError = false := by
  rw [analyze, AnalysisReport.verdict] at haccepted
  split at haccepted
  case isTrue hnone => simpa using List.countP_eq_zero.mp hnone finding hfinding
  case isFalse => cases haccepted

/-- Nothing is found in the pure functions of an accepted program. -/
theorem pureFunction_eq_nil (haccepted : program.analyze = .ok accepted)
    (hdeclares : program.Declares declaration) (hpure : declaration.isPure = true) :
    Analysis.pureFunction program.functionTable declaration = [] := by
  apply List.eq_nil_iff_forall_not_mem.mpr
  intro finding hfinding
  have hpurity := Analysis.Purity.mem_purity_of_declares hdeclares hpure hfinding
  have hfindings : finding ∈ (AnalysisReport.ofProgram program).findings := by
    simp [AnalysisReport.findings, AnalysisReport.ofProgram, hpurity]
  have hclean := isError_eq_false_of_analyze haccepted hfindings
  rw [Analysis.Purity.isError_of_mem_pureFunction hfinding] at hclean
  cases hclean

theorem isClean_of_pureFunction
    (hnone : Analysis.pureFunction program.functionTable declaration = []) :
    (Effects.ofFunction declaration).isClean = true := by
  simp only [Analysis.pureFunction, List.append_eq_nil_iff, List.map_eq_nil_iff] at hnone
  simp [Effects.isClean, hnone.1]

theorem callee_mem_pureNames_of_pureFunction
    (hnone : Analysis.pureFunction program.functionTable declaration = [])
    {callee : FunctionDecl} (hcallee : callee ∈ program.functions)
    (hcalls : declaration.Calls callee.name) :
    callee.name ∈ Analysis.pureNames program.functions := by
  obtain ⟨line, hcall⟩ := Effects.exists_mem_calls hcalls
  obtain ⟨info, hinfo, hiff⟩ := Analysis.find_functionTable hcallee
  simp only [Analysis.pureFunction, List.append_eq_nil_iff, List.filterMap_eq_nil_iff] at hnone
  have hpure := hnone.2 (line, callee.name) hcall
  simp only [hinfo] at hpure
  by_contra hmem
  simp [mt hiff.mp hmem] at hpure

/-- Every declared name that calls reach from a pure function is transitively pure. -/
theorem Reaches.mem_pureNames
    (hnone : Analysis.pureFunction program.functionTable declaration = []) {name : String}
    (hreaches : program.Reaches declaration name) {callee : FunctionDecl}
    (hcallee : program.Declares callee) (hname : callee.name = name) :
    callee.name ∈ Analysis.pureNames program.functions := by
  -- A name on the way stands for all its declarations, so the callee is any one of them.
  induction hreaches generalizing callee with
  | call hcall =>
      subst hname
      exact callee_mem_pureNames_of_pureFunction hnone hcallee.mem_functions hcall
  | step hreaches hcaller hcall ih =>
      subst hname
      obtain ⟨line, hline⟩ := Effects.exists_mem_calls hcall
      exact Analysis.callee_mem_pureNames (ih hcaller rfl) hcaller.mem_functions
        (List.mem_map.mpr ⟨_, hline, rfl⟩) hcallee.mem_functions

/-- In an accepted program every function declared pure keeps to what a pure function may do, and so
does every declaration of every name that its calls reach. -/
theorem keepsPure_of_analyze (haccepted : program.analyze = .ok accepted)
    (hdeclares : program.Declares declaration) (hpure : declaration.isPure = true) :
    declaration.KeepsPure ∧ ∀ callee, program.Declares callee →
      program.Reaches declaration callee.name → callee.KeepsPure := by
  have hnone := pureFunction_eq_nil haccepted hdeclares hpure
  constructor
  · exact Effects.keepsPure_of_isClean (isClean_of_pureFunction hnone)
  · intro callee hcallee hreaches
    have hmem := hreaches.mem_pureNames hnone hcallee rfl
    exact Effects.keepsPure_of_isClean
      (Analysis.isClean_of_mem_pureNames hmem hcallee.mem_functions)

/-- A pure function that calls `odd` in one of its branches. -/
def evenFunction : FunctionDecl where
  line := 1
  flavor := .function
  name := "even"
  parameters := .listed [⟨"n", none⟩]
  result := none
  overlays := [⟨1, "pure", []⟩]
  body := ⟨1, [.branch 2 (.name 2 "n")
    ⟨2, [.simple 3 (.leave (some (.call 3 (.name 3 "odd") [.name 3 "n"])))]⟩ none]⟩

/-- A method that calls `even` back. -/
def oddMethod : FunctionDecl where
  line := 6
  flavor := .method
  name := "odd"
  parameters := .listed [⟨"n", none⟩]
  result := none
  overlays := []
  body := ⟨6, [.simple 7 (.leave (some (.call 7 (.name 7 "even") [.name 7 "n"])))]⟩

def parityProgram : Program :=
  [.function 1 evenFunction,
    .classDecl 5 ⟨5, .classKind, "Parity", [], [.method .publicAccess oddMethod]⟩]

theorem keepsPure_of_analyze_parity :
    (∃ accepted, parityProgram.analyze = .ok accepted) ∧
      evenFunction.isPure = true ∧ evenFunction.KeepsPure ∧ oddMethod.KeepsPure := by
  have haccepted : ∃ accepted, parityProgram.analyze = .ok accepted := ⟨_, rfl⟩
  have heven : parityProgram.Declares evenFunction :=
    ⟨_, .direct List.mem_cons_self, .function⟩
  have hodd : parityProgram.Declares oddMethod :=
    ⟨_, .direct (List.mem_cons_of_mem _ List.mem_cons_self), .method List.mem_cons_self⟩
  have hreaches : parityProgram.Reaches evenFunction oddMethod.name :=
    .call ⟨_, .inner (.direct List.mem_cons_self) (.positive List.mem_cons_self), _,
      List.mem_cons_self, 3, .name 3 "odd", _, .self _, rfl⟩
  obtain ⟨accepted, hanalyze⟩ := haccepted
  obtain ⟨hfirst, hsecond⟩ := keepsPure_of_analyze hanalyze heven rfl
  exact ⟨⟨accepted, hanalyze⟩, rfl, hfirst, hsecond oddMethod hodd hreaches⟩

end Program

end Tide
