import Tide.Proofs.Emit.Depth
import Tide.Proofs.Emit.Leading

/-!
# The lines of nested blocks

Whatever block stands in a statement, its lines stand between a line that the statement opens and
the one that closes it, so they are all deeper than both.  Emission as a whole leaves the depth as
it finds it.
-/

namespace Tide.Emit

/-- The block is one of those in a statement.  The blocks of a statement that joins an `else` belong
to the whole chain, and any other statement behind an `else` is a block of its own. -/
inductive Nests : Stmt → Block → Prop
  | own {statement : Stmt} {body : Block} (hbody : body ∈ Optimize.ownBlocks statement) :
      Nests statement body
  | chained {line : Nat} {condition : Expr} {positive body : Block} {next : Stmt}
      (hjoins : joinsElse next = true) (hbody : Nests next body) :
      Nests (.branch line condition positive (some next)) body
  | otherwise {line : Nat} {condition : Expr} {positive : Block} {next : Stmt}
      (hplain : joinsElse next = false) (start : Nat) :
      Nests (.branch line condition positive (some next)) ⟨start, [next]⟩

theorem among_indent (opening : String) (inner back : List Command) :
    Among Opens (.indent opening :: inner ++ back) inner :=
  ⟨[.indent opening], opens_indent opening, back, rfl⟩

theorem opens_indent_line (opening text : String) : Opens [.indent opening, .line text] :=
  (opens_indent opening).then fun _ _ => rfl

/-! ## Clauses -/

theorem among_eachOf {α : Type} {emitOne : α → Emitter (List Command)}
    (hbalanced : ∀ part emission, Balanced ((emitOne part).run emission).1) {parts : List α}
    {part : α} (hpart : part ∈ parts) (emission : Emission) :
    ∃ next, Among Balanced ((eachOf emitOne parts).run emission).1 ((emitOne part).run next).1 := by
  obtain ⟨front, back, rfl⟩ := List.append_of_mem hpart
  rw [eachOf_append_cons]
  exact ⟨_, _, balanced_eachOf hbalanced front emission, _, rfl⟩

theorem among_native_clause {clauses : List SwitchCase} {clause : SwitchCase}
    (hclause : clause ∈ clauses) (emission : Emission) :
    ∃ next, Among Opens ((eachOf nativeCase clauses).run emission).1
      ((block clause.body).run next).1 := by
  have hbalanced (clause : SwitchCase) (emission : Emission) :
      Balanced ((nativeCase clause).run emission).1 := by
    have hlines : Writes true _ _ _ _ := writes_nativeCase (writtenBlock clause.body) emission
    exact hlines.balanced
  obtain ⟨next, hnext⟩ := among_eachOf hbalanced hclause emission
  exact ⟨next, hnext.trans (among_indent _ _ _) fun _ _ => Balanced.thenOpens⟩

theorem among_native_fallback (body : Block) (emission : Emission) :
    Among Opens ((nativeFallback (some body)).run emission).1 ((block body).run emission).1 := by
  simp only [nativeFallback, run_bind, run_pure]
  exact among_indent _ _ _

theorem among_tested_clause {α : Type} (value matched : String) (patterns : α → List Pattern)
    (body : α → Block) {clauses : List α} {clause : α} (hclause : clause ∈ clauses)
    (emission : Emission) :
    ∃ next, Among Opens ((eachOf (fun clause =>
        testedClause value matched (patterns clause) (body clause)) clauses).run emission).1
      ((block (body clause)).run next).1 := by
  have hbalanced (clause : α) (emission : Emission) :
      Balanced ((testedClause value matched (patterns clause) (body clause)).run emission).1 := by
    have hlines : Writes true _ _ _ _ :=
      writes_testedClause value matched (patterns clause) (writtenBlock (body clause)) emission
    exact hlines.balanced
  obtain ⟨next, hnext⟩ := among_eachOf hbalanced hclause emission
  exact ⟨next, hnext.trans ⟨_, opens_indent_line _ _, [closeBrace], rfl⟩
    fun _ _ => Balanced.thenOpens⟩

theorem among_tested_fallback (matched : String) (body : Block) (emission : Emission) :
    Among Opens ((testedFallback matched (some body)).run emission).1
      ((block body).run emission).1 := by
  simp only [testedFallback, run_bind, run_pure]
  exact among_indent _ _ _

theorem opens_testedOpening (scrutinee : Expr) (value matched : String) :
    Opens (testedOpening scrutinee value matched) :=
  (opens_indent _).then fun _ _ => rfl

/-- A block in a switch or match that is tested clause by clause. -/
theorem among_tested {α : Type} {patterns : α → List Pattern} {bodyOf : α → Block}
    {clauses : List α} {fallback : Option Block} {body : Block}
    (hbody : body ∈ clauses.map bodyOf ++ fallback.toList) (scrutinee : Expr)
    (emission : Emission) :
    ∃ next, Among Opens ((tested scrutinee (fun value matched => eachOf (fun clause =>
        testedClause value matched (patterns clause) (bodyOf clause)) clauses) fallback).run
        emission).1
      ((block body).run next).1 := by
  simp only [tested, run_bind, run_pure]
  generalize ((fresh "match").run emission).1 = value
  generalize ((fresh "match").run emission).2 = started
  generalize ((fresh "matched").run started).1 = matched
  generalize ((fresh "matched").run started).2 = ready
  have hopening := opens_testedOpening scrutinee value matched
  rcases List.mem_append.mp hbody with hclause | hfallback
  · obtain ⟨clause, hmem, rfl⟩ := List.mem_map.mp hclause
    obtain ⟨next, hnext⟩ := among_tested_clause value matched patterns bodyOf hmem ready
    refine ⟨next, Among.trans ⟨_, hopening, ?_⟩ hnext fun _ _ => Opens.append⟩
    simp only [testedOpening, List.append_assoc, List.cons_append, List.nil_append]
    exact ⟨_, rfl⟩
  · obtain rfl := Option.mem_toList.mp hfallback
    have hclauses := balanced_testedClauses value matched patterns bodyOf clauses ready
    refine ⟨_, Among.trans ⟨_, hopening.then hclauses, [closeBrace], rfl⟩
      (among_tested_fallback matched body _) fun _ _ => Opens.append⟩

/-! ## Declarations -/

theorem opens_functionOpening (placement : Placement) (flavor : FunctionFlavor) (name : String)
    (parameters : List Parameter) (result : Option TypeName) (overlays : List Overlay) :
    Opens (functionOpening placement flavor name parameters result overlays) := by
  obtain ⟨texts, opening, hopening⟩ := functionOpening_eq placement flavor name parameters result
    overlays
  rw [hopening]
  exact (balanced_lines id texts).thenOpens (opens_indent opening)

theorem among_function (placement : Placement) (declaration : FunctionDecl) (emission : Emission) :
    Among Opens ((function placement declaration).run emission).1
      ((block declaration.body).run emission).1 := by
  rcases declaration with ⟨line, flavor, name, parameters, result, overlays, body⟩
  simp only [function, run_bind, run_pure]
  exact ⟨_, opens_functionOpening _ _ _ _ _ _, _, rfl⟩

theorem balanced_accessLabel (current access : Access) : Balanced (accessLabel current access) :=
  (writes_accessLabel current access .start).balanced

theorem balanced_function (placement : Placement) (declaration : FunctionDecl)
    (emission : Emission) : Balanced ((function placement declaration).run emission).1 := by
  have hlines : Writes true _ _ _ _ :=
    writes_function placement (writtenBlock declaration.body) emission
  exact hlines.balanced

theorem among_members {found : List ClassMember} {body : Block}
    (hbody : body ∈ found.filterMap ClassMember.body?) (current : Access) (emission : Emission) :
    ∃ next, Among Opens ((members current found).run emission).1 ((block body).run next).1 := by
  induction found generalizing current emission with
  | nil => cases hbody
  | cons first rest ih =>
      cases first with
      | field access binding =>
          obtain ⟨next, hnext⟩ := ih hbody access emission
          simp only [members, run_bind, run_pure]
          have hfront : Balanced (accessLabel current access ++
              [.line (fieldDeclaration binding)]) :=
            (balanced_accessLabel current access).append fun _ _ => rfl
          refine ⟨next, Among.trans ⟨_, hfront, [], ?_⟩ hnext fun _ _ => Balanced.thenOpens⟩
          simp only [List.append_assoc, List.singleton_append, List.append_nil]
      | method access declaration =>
          simp only [members, run_bind, run_pure]
          rcases List.mem_cons.mp hbody with rfl | hbody
          · refine ⟨_, Among.trans ⟨_, balanced_accessLabel current access, _, rfl⟩
              (among_function .member declaration emission) fun _ _ => Balanced.thenOpens⟩
          · obtain ⟨next, hnext⟩ := ih hbody access ((function .member declaration).run emission).2
            have hfront := (balanced_accessLabel current access).append
              (balanced_function .member declaration emission)
            refine ⟨next, Among.trans ⟨_, hfront, [], ?_⟩ hnext fun _ _ => Balanced.thenOpens⟩
            simp only [List.append_nil]

theorem among_classDecl {declaration : ClassDecl} {body : Block}
    (hbody : body ∈ declaration.members.filterMap ClassMember.body?) (emission : Emission) :
    ∃ next, Among Opens ((classDecl declaration).run emission).1 ((block body).run next).1 := by
  rcases declaration with ⟨line, kind, name, bases, classMembers⟩
  obtain ⟨next, hnext⟩ := among_members hbody kind.defaultAccess emission
  simp only [classDecl, run_bind, run_pure]
  exact ⟨next, (among_indent _ _ _).trans hnext fun _ _ => Opens.append⟩

/-! ## Tasks -/

theorem opens_openRunList (list : String) : Opens (openRunList list) := opens_indent_line _ _

/-- A task stands in its run list, whether it opens that or joins it. -/
theorem among_task (line : Nat) (priority : Expr) (body : Block) (list : Option String)
    (rest : List Stmt) (emission : Emission) :
    ∃ next, Among Opens
      ((stmts list (.nested line (.schedule priority) body :: rest)).run emission).1
      ((block body).run next).1 := by
  cases list with
  | some list =>
      simp only [stmts, run_bind, run_pure, task, List.append_assoc, List.cons_append]
      exact ⟨_, among_indent _ _ _⟩
  | none =>
      simp only [stmts, run_bind, run_pure, task, List.append_assoc, List.cons_append]
      exact ⟨_, Among.trans ⟨_, opens_openRunList _, [], (List.append_nil _).symm⟩
        (among_indent _ _ _) fun _ _ => Opens.append⟩

/-! ## Statements -/

theorem among_nested (line : Nat) (opener : Opener) (body : Block) (emission : Emission) :
    ∃ next, Among Opens ((stmt (.nested line opener body)).run emission).1
      ((block body).run next).1 := by
  cases opener with
  | block | whileLoop | forLoop =>
      simp only [stmt, run_bind, run_pure]
      exact ⟨_, among_indent _ _ _⟩
  | pureRegion =>
      simp only [stmt, run_bind, run_pure]
      have hcomment : Balanced [.line "// pure region"] := fun _ _ => rfl
      exact ⟨_, [.line "// pure region", openBrace ""], hcomment.thenOpens (opens_indent _), _, rfl⟩
  | schedule priority =>
      rw [stmt_task]
      exact among_task line priority body none [] emission

theorem among_switch_native {clauses : List SwitchCase} (hnative : isNative clauses = true)
    {line : Nat} {scrutinee : Expr} {fallback : Option Block} {body : Block}
    (hbody : body ∈ clauses.map (·.body) ++ fallback.toList) (emission : Emission) :
    ∃ next, Among Opens ((stmt (.switch line scrutinee clauses fallback)).run emission).1
      ((block body).run next).1 := by
  rw [stmt_switch_of_native hnative]
  simp only [run_bind, run_pure]
  rcases List.mem_append.mp hbody with hclause | hfallback
  · obtain ⟨clause, hmem, rfl⟩ := List.mem_map.mp hclause
    obtain ⟨next, hnext⟩ := among_native_clause hmem emission
    simp only [List.append_assoc, List.cons_append]
    exact ⟨next, (among_indent _ _ _).trans hnext fun _ _ => Opens.append⟩
  · obtain rfl := Option.mem_toList.mp hfallback
    refine ⟨_, Among.trans ⟨openBrace _ :: ((eachOf nativeCase clauses).run emission).1,
      (opens_indent _).then (balanced_nativeCases clauses emission), [closeBrace], rfl⟩
      (among_native_fallback body _) fun _ _ => Opens.append⟩

theorem among_attempt {line : Nat} {tried handler body : Block} {binding : Option String}
    (hbody : body ∈ [tried, handler]) (emission : Emission) :
    ∃ next, Among Opens ((stmt (.attempt line tried binding handler)).run emission).1
      ((block body).run next).1 := by
  simp only [stmt, run_bind, run_pure]
  generalize ((rely (.including ["stdexcept"])).run emission).2 = ready
  rcases List.mem_pair.mp hbody with rfl | rfl
  · refine ⟨ready, [openBrace "try "], opens_indent _, ?_⟩
    simp only [List.append_assoc, List.cons_append, List.nil_append]
    exact ⟨_, rfl⟩
  · have htried := (balanced_block tried ready).enclosed "try \x7b" "\x7d"
    have hcaught := htried.thenOpens (opens_indent "catch (const std::exception& tide_error) \x7b")
    have hfront := hcaught.then (balanced_lines
      (fun name => "std::string " ++ name ++ " = tide_error.what();") binding.toList)
    refine ⟨((block tried).run ready).2, _, hfront, [closeBrace], ?_⟩
    simp only [List.append_assoc, List.cons_append, List.nil_append]
    rfl

theorem among_own {statement : Stmt} {body : Block} (hbody : body ∈ Optimize.ownBlocks statement)
    (emission : Emission) :
    ∃ next, Among Opens ((stmt statement).run emission).1 ((block body).run next).1 := by
  cases statement with
  | simple => cases hbody
  | function line declaration =>
      obtain rfl := List.mem_singleton.mp hbody
      rw [stmt]
      exact ⟨_, among_function .inBlock declaration emission⟩
  | classDecl line declaration =>
      rw [Optimize.ownBlocks_classDecl] at hbody
      rw [stmt]
      exact among_classDecl hbody emission
  | nested line opener inner =>
      obtain rfl := List.mem_singleton.mp hbody
      exact among_nested line opener body emission
  | branch line condition positive negative =>
      obtain rfl := List.mem_singleton.mp hbody
      simp only [stmt, run_bind, run_pure]
      exact ⟨_, among_indent _ _ _⟩
  | switch line scrutinee clauses fallback =>
      cases hnative : isNative clauses with
      | true => exact among_switch_native hnative hbody emission
      | false =>
          rw [stmt_switch_of_not_native hnative]
          exact among_tested hbody scrutinee emission
  | select line scrutinee clauses fallback =>
      rw [stmt_select]
      exact among_tested hbody scrutinee emission
  | attempt line tried binding handler => exact among_attempt hbody emission

/-! ## Chains of `else` -/

theorem block_singleton (start : Nat) (statement : Stmt) (emission : Emission) :
    ((block ⟨start, [statement]⟩).run emission).1 = ((stmt statement).run emission).1 := by
  rw [block]
  by_cases htask : isTask statement
  · obtain ⟨line, priority, body, rfl⟩ := exists_of_isTask htask
    rw [stmt_task]
  · rw [stmts_cons (Bool.eq_false_iff.mpr htask)]
    simp only [stmts, run_bind, run_pure, closeRunList, List.nil_append, List.append_nil]

theorem balanced_outer (text : String) : Balanced [.outer text] := fun _ _ => rfl

theorem among_else_plain {statement : Stmt} (hplain : joinsElse statement = false) (start : Nat)
    (emission : Emission) :
    Among Balanced ((negative (some statement)).run emission).1
      ((block ⟨start, [statement]⟩).run emission).1 := by
  rw [negative_some hplain, block_singleton]
  exact ⟨[.outer _], balanced_outer _, [closeBrace], rfl⟩

theorem among_else_branch (line : Nat) (condition : Expr) (positive : Block) (next : Stmt)
    (emission : Emission) :
    Among Balanced ((negative (some (.branch line condition positive (some next)))).run emission).1
      ((negative (some next)).run ((block positive).run emission).2).1 := by
  rw [negative]
  exact ⟨.outer _ :: _, (balanced_outer _).append (balanced_block positive emission), [],
    (List.append_nil _).symm⟩

/-- In front of a block of the chain, the lines of an `else` leave nothing open that was not. -/
theorem among_else {statement : Stmt} {body : Block} (hnests : Nests statement body)
    (hjoins : joinsElse statement = true) (emission : Emission) :
    ∃ next, Among Balanced ((negative (some statement)).run emission).1
      ((block body).run next).1 := by
  induction hnests generalizing emission with
  | @own statement body hbody =>
      cases statement with
      | branch line condition positive next =>
          obtain rfl := List.mem_singleton.mp hbody
          simp only [negative, run_bind, run_pure]
          exact ⟨_, [.outer _], balanced_outer _, _, rfl⟩
      | nested line opener inner =>
          cases opener with
          | block =>
              obtain rfl := List.mem_singleton.mp hbody
              simp only [negative, run_bind, run_pure]
              exact ⟨_, [.outer _], balanced_outer _, _, rfl⟩
          | _ => cases hjoins
      | _ => cases hjoins
  | @chained line condition positive body next hnext hbody ih =>
      obtain ⟨last, hlast⟩ := ih hnext ((block positive).run emission).2
      exact ⟨last, (among_else_branch line condition positive next emission).trans hlast
        fun _ _ => Balanced.append⟩
  | @otherwise line condition positive next hplain start =>
      exact ⟨_, (among_else_branch line condition positive next emission).trans
        (among_else_plain hplain start _) fun _ _ => Balanced.append⟩

theorem among_branch (line : Nat) (condition : Expr) (positive : Block) (branch : Option Stmt)
    (emission : Emission) :
    Among Opens ((stmt (.branch line condition positive branch)).run emission).1
      ((negative branch).run ((block positive).run emission).2).1 := by
  rw [stmt]
  exact ⟨openBrace _ :: _, (opens_indent _).then (balanced_block positive emission), [],
    (List.append_nil _).symm⟩

theorem among_stmt {statement : Stmt} {body : Block} (hnests : Nests statement body)
    (emission : Emission) :
    ∃ next, Among Opens ((stmt statement).run emission).1 ((block body).run next).1 := by
  cases hnests with
  | own hbody => exact among_own hbody emission
  | @chained line condition positive _ next hjoins hbody =>
      obtain ⟨last, hlast⟩ := among_else hbody hjoins ((block positive).run emission).2
      exact ⟨last, (among_branch line condition positive (some next) emission).trans hlast
        fun _ _ => Opens.then⟩
  | @otherwise line condition positive next hplain start =>
      exact ⟨_, (among_branch line condition positive (some next) emission).trans
        (among_else_plain hplain start _) fun _ _ => Opens.then⟩

/-! ## Statements one after the other -/

/-- The lines leave something open, also if they close the run list that is open before them. -/
def OpensBehind : Option String → List Command → Prop
  | none, lines => Opens lines
  | some _, lines => ∀ position opener around, ∃ opened, opened ≠ [] ∧
    openLines position (opener :: around) lines = opened ++ around

theorem Opens.behind {lines : List Command} (hlines : Opens lines) (list : Option String) :
    OpensBehind list lines := by
  cases list with
  | none => exact hlines
  | some list =>
      intro position opener around
      obtain ⟨opened, -, hopened⟩ := hlines position (opener :: around)
      refine ⟨opened ++ [opener], by simp, ?_⟩
      rw [hopened, List.append_assoc, List.singleton_append]

theorem Balanced.thenOpensBehind {front back : List Command} {list : Option String}
    (hfront : Balanced front) (hback : OpensBehind list back) :
    OpensBehind list (front ++ back) := by
  cases list with
  | none => exact hfront.thenOpens hback
  | some list =>
      intro position opener around
      rw [openLines_append, hfront]
      exact hback _ opener around

/-- What begins behind a run list that the lines in front have closed. -/
theorem opensBehind_closeRunList (list : Option String) {lines : List Command}
    (hlines : Opens lines) : OpensBehind list (closeRunList list ++ lines) := by
  cases list with
  | none => exact hlines
  | some list =>
      intro position opener around
      rw [openLines_append]
      exact hlines _ around

/-- What stands in a run list that the lines in front have opened. -/
theorem opens_openRunList_append {list : String} {lines : List Command}
    (hlines : OpensBehind (some list) lines) : Opens (openRunList list ++ lines) := by
  intro position around
  rw [openLines_append]
  exact hlines _ _ around

theorem balanced_task (list : String) (priority : Expr) (body : Block) (emission : Emission) :
    Balanced (task list priority ((block body).run emission).1) :=
  (balanced_block body emission).enclosed _ _

theorem balanced_stmt (statement : Stmt) (emission : Emission) :
    Balanced ((stmt statement).run emission).1 :=
  ((written statement).asStmt true emission).balanced

/-- The block of a task stands in the run list, wherever the task stands among the statements. -/
theorem among_stmts {statements : List Stmt} {line : Nat} {priority : Expr} {body : Block}
    (htask : .nested line (.schedule priority) body ∈ statements) (list : Option String)
    (emission : Emission) :
    ∃ next, Among (OpensBehind list) ((stmts list statements).run emission).1
      ((block body).run next).1 := by
  induction statements generalizing list emission with
  | nil => cases htask
  | cons first rest ih =>
      rcases List.mem_cons.mp htask with rfl | hrest
      · obtain ⟨next, front, hfront, hlines⟩ := among_task line priority body list rest emission
        exact ⟨next, front, hfront.behind list, hlines⟩
      by_cases hfirst : isTask first
      · obtain ⟨line, priority, other, rfl⟩ := exists_of_isTask hfirst
        cases list with
        | some list =>
            simp only [stmts, run_bind, run_pure]
            obtain ⟨next, hnext⟩ := ih hrest (some list) ((block other).run emission).2
            exact ⟨next, Among.trans ⟨_, balanced_task list priority other emission, [],
              (List.append_nil _).symm⟩ hnext fun _ _ => Balanced.thenOpensBehind⟩
        | none =>
            simp only [stmts, run_bind, run_pure]
            generalize (newRunList.run emission).1 = list
            generalize (newRunList.run emission).2 = started
            obtain ⟨next, hnext⟩ := ih hrest (some list) ((block other).run started).2
            have htasks := Among.trans ⟨_, balanced_task list priority other started, [],
              (List.append_nil _).symm⟩ hnext fun _ _ => Balanced.thenOpensBehind
            obtain ⟨front, hfront, back, hlines⟩ := htasks
            refine ⟨next, openRunList list ++ front, opens_openRunList_append hfront, back, ?_⟩
            rw [List.append_assoc, hlines]
            simp only [List.append_assoc]
      · rw [stmts_cons (Bool.eq_false_iff.mpr hfirst)]
        simp only [run_bind, run_pure]
        obtain ⟨next, hnext⟩ := ih hrest none ((stmt first).run emission).2
        have hlines := Among.trans ⟨_, balanced_stmt first emission, [], (List.append_nil _).symm⟩
          hnext fun _ _ => Balanced.thenOpens
        obtain ⟨front, hfront, back, hlines⟩ := hlines
        refine ⟨next, closeRunList list ++ front, opensBehind_closeRunList list hfront, back, ?_⟩
        rw [List.append_assoc, hlines]
        simp only [List.append_assoc]

/-! ## Emission as a whole -/

theorem supported_block (body : Block) (emission : Emission) :
    Supported 0 [] ((block body).run emission).1 :=
  (writtenBlock body false emission).supported 0 nofun

theorem writes_stmts (statements : List Stmt) (emission : Emission) :
    Writes false (statements.flatMap Stmt.withDescendants) emission
      ((stmts none statements).run emission).1 ((stmts none statements).run emission).2 :=
  writesFrom_none.mp (writesFrom_stmts (fun found _ => written found) false none emission nofun)

/-- From any depth and in any state, everything that emission writes is laid out: it leaves the
depth as it finds it, and no line steps back from no depth at all.  The lines of a nested block
stand deeper than the line that opens it. -/
theorem emission_laidOut (depth : Nat) (emission : Emission) :
    (∀ lines, renderFrom depth lines = List.zipWith Command.laid lines (levels depth lines)) ∧
    (∀ statement, LaidOut depth ((stmt statement).run emission).1) ∧
    (∀ statements, LaidOut depth ((stmts none statements).run emission).1) ∧
    (∀ name body argument, LaidOut depth ((derivative name body argument).run emission).1) ∧
    (∀ placement declaration, LaidOut depth ((function placement declaration).run emission).1) ∧
    (∀ declaration, LaidOut depth ((classDecl declaration).run emission).1) ∧
    (∀ program, LaidOut depth ((commands program).run .start).1) ∧
    (∀ statement body, Nests statement body → ∃ next,
      EnclosesDeeper depth ((stmt statement).run emission).1 ((block body).run next).1) ∧
    (∀ statements line priority body, .nested line (.schedule priority) body ∈ statements → ∃ next,
      EnclosesDeeper depth ((stmts none statements).run emission).1 ((block body).run next).1) ∧
    (∀ placement declaration, ∃ next,
      EnclosesDeeper depth ((function placement declaration).run emission).1
        ((block declaration.body).run next).1) ∧
    (∀ declaration body,
      body ∈ (ClassDecl.members declaration).filterMap ClassMember.body? → ∃ next,
      EnclosesDeeper depth ((classDecl declaration).run emission).1 ((block body).run next).1) := by
  have hstmt (statement : Stmt) : Writes false _ emission ((stmt statement).run emission).1 _ :=
    (written statement).asStmt false emission
  have hfunction (placement : Placement) (declaration : FunctionDecl) :
      Writes false _ emission ((function placement declaration).run emission).1 _ :=
    writes_function placement (writtenBlock declaration.body) emission
  have hclass (declaration : ClassDecl) :
      Writes false _ emission ((classDecl declaration).run emission).1 _ :=
    writes_classDecl declaration (fun body _ => writtenBlock body) false emission
  refine ⟨renderFrom_eq_zipWith depth, fun statement => ?_, fun statements => ?_,
    fun name body argument => ?_, fun placement declaration => ?_, fun declaration => ?_,
    fun program => ?_, fun statement body hnests => ?_,
    fun statements line priority body htask => ?_, fun placement declaration => ?_,
    fun declaration body hbody => ?_⟩
  · exact (hstmt statement).laidOut depth
  · exact (writes_stmts statements emission).laidOut depth
  · exact (writes_derivative name body argument emission).laidOut depth
  · exact (hfunction placement declaration).laidOut depth
  · exact (hclass declaration).laidOut depth
  · exact (writes_commands program).laidOut depth
  · obtain ⟨next, hnext⟩ := among_stmt hnests emission
    exact ⟨next, hnext.deeper ((hstmt statement).supported 0 nofun)
      (supported_block body next) depth⟩
  · obtain ⟨next, hnext⟩ := among_stmts htask none emission
    exact ⟨next, hnext.deeper ((writes_stmts statements emission).supported 0 nofun)
      (supported_block body next) depth⟩
  · exact ⟨_, (among_function placement declaration emission).deeper
      ((hfunction placement declaration).supported 0 nofun)
      (supported_block declaration.body _) depth⟩
  · obtain ⟨next, hnext⟩ := among_classDecl hbody emission
    exact ⟨next, hnext.deeper ((hclass declaration).supported 0 nofun)
      (supported_block body next) depth⟩

/-- A chain with a block behind its last `else`. -/
def elseChain : Stmt :=
  .branch 1 (.name 1 "a") ⟨1, []⟩ (some (.branch 1 (.name 1 "b") ⟨1, []⟩
    (some (.nested 1 .block ⟨1, [.simple 1 .sync]⟩))))

theorem emission_laidOut_elseChain :
    Nests elseChain ⟨1, [.simple 1 .sync]⟩ ∧ ∃ next,
      EnclosesDeeper 0 ((stmt elseChain).run .start).1
        ((block ⟨1, [.simple 1 .sync]⟩).run next).1 := by
  have hnests : Nests elseChain ⟨1, [.simple 1 .sync]⟩ :=
    .chained rfl (.chained rfl (.own List.mem_cons_self))
  exact ⟨hnests, (emission_laidOut 0 .start).2.2.2.2.2.2.2.1 _ _ hnests⟩

end Tide.Emit
