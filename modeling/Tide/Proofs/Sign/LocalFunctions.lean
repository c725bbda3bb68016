import Tide.Proofs.Sign.Changes

/-!
# Signs and the functions declared in a block

A function that is declared in a block can assign to the variables of the block.  What is known of
their signs does not follow that: neither the declaration nor a call changes any fact.  A variable
keeps the sign that the last statement to touch it has left, whatever was called since.
-/

namespace Tide

/-- Something in the statement makes a call that goes by the name, in no function or class declared
there. -/
inductive Stmt.Calls : Stmt → String → Prop
  | own {statement name expression} (hexpression : expression ∈ statement.ownExpressions)
      (hcalls : expression.Calls name) : Calls statement name
  | inner {parent child name} (hholds : parent.Holds child) (hcalls : Calls child name) :
      Calls parent name

/-- A variable bound by the statements `before` is assigned to by a function declared behind them,
and a later statement calls that function. -/
structure AssignedByCall (before : List Stmt) (declaration : FunctionDecl) (caller : Stmt)
    (name : String) : Prop where
  bound : ∃ statement ∈ before, statement.Binds name
  reassigned : ∃ statement, declaration.body.Contains statement ∧ statement.Reassigns name
  /-- The variable is not one of the function's own. -/
  notParameter : name ∉ declaration.parameterNames
  notDeclared : ∀ line binding, declaration.body.Contains (.simple line (.declare binding)) →
    binding.name ≠ name
  called : caller.Calls declaration.name

namespace SignCheck

/-- The sign that an action gives to the name, going by the facts before it. -/
inductive GivesSign (facts : Facts) : Action → String → Sign → Prop
  | declare {binding} :
      GivesSign facts (.declare binding) binding.name
        ((binding.value.map facts.evaluate).getD .unknown)
  | assign {action name sign} (hassigned : assigned facts action = some (name, sign)) :
      GivesSign facts action name sign

section

variable (check : SignCheck) (table : FunctionTable) (contract : Option Contract)

/-- What is known behind some statements. -/
def factsAfter (facts : Facts) (statements : List Stmt) : Facts :=
  (check.stmts table contract facts statements).1

theorem factsAfter_append (facts : Facts) (front back : List Stmt) :
    check.factsAfter table contract facts (front ++ back) =
      check.factsAfter table contract (check.factsAfter table contract facts front) back := by
  induction front generalizing facts with
  | nil => rfl
  | cons head tail ih => exact ih (check.stmt table contract facts head).1

/-- The declaration of a function can be left out without a change to the facts. -/
theorem factsAfter_function (facts : Facts) (line : Nat) (declaration : FunctionDecl)
    (rest : List Stmt) :
    check.factsAfter table contract facts (.function line declaration :: rest) =
      check.factsAfter table contract facts rest := by
  change check.factsAfter table contract (check.function table facts declaration).1 rest = _
  rw [function_unchanged]

/-- Statements that do not touch the name leave its sign. -/
theorem sign_factsAfter {statements : List Stmt} {name : String}
    (hnone : ∀ statement ∈ statements, ¬ statement.Touches name) (facts : Facts) :
    (check.factsAfter table contract facts statements).sign name = facts.sign name := by
  apply (changes_run check table contract statements facts).sign_eq
  rintro ⟨statement, hstatement, hname⟩
  exact hnone statement hstatement hname

theorem sign_bind (facts : Facts) (name : String) (sign : Sign) :
    Facts.sign (facts.bind name sign) name = sign := by
  rw [Facts.sign, Scopes.shallow?_bind, if_pos rfl]
  rfl

/-- Behind an action, what it binds has the sign that it gives. -/
theorem givesSign_of_binds {line : Nat} {action : Action} {name : String}
    (hbinds : (Stmt.simple line action).Binds name) (facts : Facts) :
    GivesSign facts action name
      ((check.stmt table contract facts (.simple line action)).1.sign name) := by
  change GivesSign facts action name ((check.action contract facts line action).1.sign name)
  rcases exists_assigned_of_binds hbinds with
    ⟨binding, rfl, rfl⟩ | ⟨sign, hassigned⟩
  · rw [SignCheck.action, sign_bind]
    exact .declare
  · have hdeclare : ∀ binding, action ≠ .declare binding := by
      rintro binding rfl
      cases hassigned
    rw [action_eq check contract hdeclare, hassigned, Option.elim_some, sign_bind]
    exact .assign hassigned

end

/-- Where some statement touches the name, one is the last to do so. -/
theorem exists_last_touching {statements : List Stmt} {name : String}
    (htouches : ∃ statement ∈ statements, statement.Touches name) :
    ∃ earlier last later, statements = earlier ++ last :: later ∧ last.Touches name ∧
      ∀ statement ∈ later, ¬ statement.Touches name := by
  induction statements with
  | nil => simp at htouches
  | cons head tail ih =>
      by_cases htail : ∃ statement ∈ tail, statement.Touches name
      · obtain ⟨earlier, last, later, rfl, hlast, hlater⟩ := ih htail
        exact ⟨head :: earlier, last, later, rfl, hlast, hlater⟩
      · have hhead : head.Touches name := by
          obtain ⟨statement, hstatement, hname⟩ := htouches
          rcases List.mem_cons.mp hstatement with rfl | hmem
          · exact hname
          · exact absurd ⟨statement, hmem, hname⟩ htail
        exact ⟨[], head, tail, rfl, hhead, fun statement hstatement hname =>
          htail ⟨statement, hstatement, hname⟩⟩

/-- Behind a statement that may call a local function, a variable bound before the function has the
sign that the last statement to touch it left: unknown behind a compound statement, and what an
action gave otherwise.  The function and what it assigns to play no part in that. -/
theorem local_functions_keep_facts (check : SignCheck) (table : FunctionTable)
    (contract : Option Contract) (facts : Facts) (line : Nat) (declaration : FunctionDecl)
    {before : List Stmt} (between : List Stmt) (caller : Stmt) {name : String}
    (hbound : ∃ statement ∈ before, statement.Binds name) :
    check.factsAfter table contract facts
        (before ++ .function line declaration :: (between ++ [caller])) =
      check.factsAfter table contract facts (before ++ (between ++ [caller])) ∧
    ∃ earlier last later, before ++ (between ++ [caller]) = earlier ++ last :: later ∧
      last.Touches name ∧ (∀ statement ∈ later, ¬ statement.Touches name) ∧
      (check.factsAfter table contract facts
          (before ++ .function line declaration :: (between ++ [caller]))).sign name =
        (check.factsAfter table contract facts (earlier ++ [last])).sign name ∧
      (last.IsChained →
        (check.factsAfter table contract facts (earlier ++ [last])).sign name = .unknown) ∧
      (∀ actionLine action, last = .simple actionLine action →
        GivesSign (check.factsAfter table contract facts earlier) action name
          ((check.factsAfter table contract facts (earlier ++ [last])).sign name)) := by
  have hdropped : check.factsAfter table contract facts
      (before ++ .function line declaration :: (between ++ [caller])) =
        check.factsAfter table contract facts (before ++ (between ++ [caller])) := by
    rw [factsAfter_append, factsAfter_function, ← factsAfter_append]
  have htouches : ∃ statement ∈ before ++ (between ++ [caller]), statement.Touches name := by
    obtain ⟨statement, hstatement, hbinds⟩ := hbound
    exact ⟨statement, List.mem_append_left _ hstatement, .self hbinds⟩
  obtain ⟨earlier, last, later, hsplit, hlast, hlater⟩ := exists_last_touching htouches
  refine ⟨hdropped, earlier, last, later, hsplit, hlast, hlater, ?_, ?_, ?_⟩
  · rw [hdropped, hsplit, List.append_cons, factsAfter_append]
    exact sign_factsAfter check table contract hlater _
  · intro hchained
    rw [factsAfter_append]
    exact (changes_chained check table contract hchained _).sign_eq_unknown hlast
  · rintro actionLine action rfl
    rw [factsAfter_append]
    exact givesSign_of_binds check table contract (Stmt.touches_simple_iff.mp hlast) _

/-- The statement `let x = -1`. -/
def negativeLet : Stmt :=
  .simple 2 (.declare ⟨"x", false, none, some (.unary 2 .negate (.literal 2 (.number .one)))⟩)

/-- The function `Fn g { x = 5 }`. -/
def assigningFunction : FunctionDecl :=
  ⟨3, .function, "g", .listed [], none, [], ⟨3,
    [.simple 3 (.assign (.name 3 "x") .assign (.literal 3 (.number ⟨0x4014000000000000⟩)))]⟩⟩

/-- The statement `g()`. -/
def callingStatement : Stmt := .simple 4 (.evaluate (.call 4 (.name 4 "g") []))

/-- The program with `overlay nonneg_v Fn root "v" { ret v }` and the function
`Fn main2 { let x = -1`, `Fn g { x = 5 }`, `g()`, `root(x) }`. -/
def callBeforeRoot : Program :=
  [.function 1 ⟨1, .function, "root", .listed [⟨"v", none⟩], none, [⟨1, "nonneg_v", []⟩],
    ⟨1, [.simple 1 (.leave (some (.name 1 "v")))]⟩⟩,
   .function 2 ⟨2, .function, "main2", .listed [], none, [], ⟨2,
    [negativeLet, .function 3 assigningFunction, callingStatement,
     .simple 5 (.evaluate (.call 5 (.name 5 "root") [.name 5 "x"]))]⟩⟩]

theorem assignedByCall_callingStatement :
    AssignedByCall [negativeLet] assigningFunction callingStatement "x" where
  bound := ⟨negativeLet, List.mem_singleton_self _, .declare⟩
  reassigned := ⟨_, .direct List.mem_cons_self, .assign rfl⟩
  notParameter := by decide
  notDeclared line binding hcontains := by
    have hmem := Effects.mem_statements hcontains
    simp [assigningFunction, Node.ofBlock, Node.ofStmts, Node.ofStmt, Node.ofAction,
      Node.statement?, Action.overlays, Action.expressions] at hmem
  called := .own List.mem_cons_self ⟨4, .name 4 "g", [], .self _, rfl⟩

theorem local_functions_keep_facts_call :
    (∃ statement ∈ [negativeLet], statement.Binds "x") ∧
      ∃ earlier last later, [negativeLet, callingStatement] = earlier ++ last :: later ∧
        last.Touches "x" ∧ (∀ statement ∈ later, ¬ statement.Touches "x") ∧
        (callSites.factsAfter [] none .empty
            [negativeLet, .function 3 assigningFunction, callingStatement]).sign "x" =
          (callSites.factsAfter [] none .empty (earlier ++ [last])).sign "x" := by
  have hbound := assignedByCall_callingStatement.bound
  obtain ⟨-, earlier, last, later, hsplit, hlast, hlater, hsign, -⟩ :=
    local_functions_keep_facts callSites [] none .empty 3 assigningFunction []
      callingStatement hbound
  exact ⟨hbound, earlier, last, later, hsplit, hlast, hlater, hsign⟩

/-- The sign of `x` is still that of its declaration, and the call of `root` is reported. -/
theorem stale_after_local_call :
    AssignedByCall [negativeLet] assigningFunction callingStatement "x" ∧
      (callSites.factsAfter callBeforeRoot.functionTable none .empty
        [negativeLet, .function 3 assigningFunction, callingStatement]).sign "x" = .negative ∧
      callSites.run callBeforeRoot.functionTable callBeforeRoot =
        [⟨5, .negativeArgument "v" "root"⟩] :=
  ⟨assignedByCall_callingStatement, by decide +kernel, by decide +kernel⟩

end SignCheck

end Tide
