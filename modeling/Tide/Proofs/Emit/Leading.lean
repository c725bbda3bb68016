import Tide.Proofs.Emit.OpenLines
import Tide.Proofs.Tree.Locus

/-!
# The lines that lead to a place

The lines in front of those of a statement are the same for every statement that stands there, so a
place in the program has a place in the output.  The lines that lead into a loop or into a native
switch open what a `break` leaves; those that lead into any other statement open nothing of the
kind.
-/

namespace Tide

namespace Enclosure

/-- A clause of a switch that is native in the output. -/
def isNativeClause : Enclosure → Bool
  | case _ _ front label gap back _ => Emit.isNative (front ++ ⟨label, gap.closed⟩ :: back)
  | switchFallback _ _ cases _ => Emit.isNative cases
  | _ => false

/-- A `break` inside goes on to what stands around. -/
def isPassable (enclosure : Enclosure) : Bool :=
  !enclosure.isLoop && !enclosure.isNativeClause && !enclosure.isDetached

end Enclosure

namespace Emit

/-! ## Lines in front of a place -/

/-- Whatever statement is accepted, the outer lines are the inner ones behind lines that are the
same for all of them. -/
def Leads (accepts : Stmt → Prop) (fronts : List Command → Prop)
    (outer inner : Stmt → Emitter (List Command)) : Prop :=
  ∀ emission, ∃ front next, fronts front ∧ ∀ statement, accepts statement →
    ∃ back, ((outer statement).run emission).1 = front ++ ((inner statement).run next).1 ++ back

namespace Leads

variable {accepts accepted : Stmt → Prop} {fronts first second : List Command → Prop}
variable {outer middle inner : Stmt → Emitter (List Command)}

theorem refl : Leads accepts (· = []) inner inner :=
  fun emission => ⟨[], emission, rfl, fun _ _ => ⟨[], (List.append_nil _).symm⟩⟩

theorem trans (hfirst : Leads accepts first outer middle)
    (hsecond : Leads accepts second middle inner)
    (hfronts : ∀ front more, first front → second more → fronts (front ++ more)) :
    Leads accepts fronts outer inner := by
  intro emission
  obtain ⟨front, next, hfront, houter⟩ := hfirst emission
  obtain ⟨more, last, hmore, hmiddle⟩ := hsecond next
  refine ⟨front ++ more, last, hfronts front more hfront hmore, fun statement haccepts => ?_⟩
  obtain ⟨back, houter⟩ := houter statement haccepts
  obtain ⟨tail, hmiddle⟩ := hmiddle statement haccepts
  refine ⟨tail ++ back, ?_⟩
  rw [houter, hmiddle]
  simp only [List.append_assoc]

theorem transAny (hfirst : Leads accepts first outer middle)
    (hsecond : Leads accepts second middle inner) : Leads accepts (fun _ => True) outer inner :=
  hfirst.trans hsecond fun _ _ _ _ => trivial

theorem congr (hleads : Leads accepts fronts outer inner)
    {other : Stmt → Emitter (List Command)}
    (hother : ∀ statement, accepts statement → other statement = outer statement) :
    Leads accepts fronts other inner := by
  intro emission
  obtain ⟨front, next, hfront, houter⟩ := hleads emission
  refine ⟨front, next, hfront, fun statement haccepts => ?_⟩
  rw [hother statement haccepts]
  exact houter statement haccepts

theorem mono (hleads : Leads accepts first outer inner)
    (hfronts : ∀ front, first front → fronts front) : Leads accepts fronts outer inner := by
  intro emission
  obtain ⟨front, next, hfront, houter⟩ := hleads emission
  exact ⟨front, next, hfronts front hfront, houter⟩

/-- Statements that are built from others. -/
theorem comp (hleads : Leads accepted fronts outer inner) {build : Stmt → Stmt}
    (hbuild : ∀ statement, accepts statement → accepted (build statement)) :
    Leads accepts fronts (fun statement => outer (build statement))
      (fun statement => inner (build statement)) := by
  intro emission
  obtain ⟨front, next, hfront, houter⟩ := hleads emission
  exact ⟨front, next, hfront, fun statement haccepts =>
    houter (build statement) (hbuild statement haccepts)⟩

theorem weaken (hleads : Leads accepted fronts outer inner)
    (haccepts : ∀ statement, accepts statement → accepted statement) :
    Leads accepts fronts outer inner :=
  hleads.comp haccepts

/-- Something else is emitted first. -/
theorem bind {α : Type} {before : Emitter α} {after : α → Stmt → Emitter (List Command)}
    (hafter : ∀ emission, Leads accepts fronts (after (before.run emission).1) inner) :
    Leads accepts fronts (fun statement => before >>= fun value => after value statement) inner :=
  fun emission => hafter emission (before.run emission).2

/-- Lines are put around. -/
theorem wrap (front : List Command) {around : List Command → Emitter (List Command)}
    (hfront : fronts front)
    (haround : ∀ lines emission, ∃ back,
      ((around lines).run emission).1 = front ++ lines ++ back) :
    Leads accepts fronts (fun statement => inner statement >>= around) inner :=
  fun emission => ⟨front, emission, hfront, fun _ _ => haround _ _⟩

/-- Lines are put around what is led to, and the lines in front do not matter. -/
theorem wrapAny (front : List Command) {around : List Command → Emitter (List Command)}
    (hleads : Leads accepts fronts middle inner)
    (haround : ∀ lines emission, ∃ back,
      ((around lines).run emission).1 = front ++ lines ++ back) :
    Leads accepts (fun _ => True) (fun statement => middle statement >>= around) inner :=
  (wrap front rfl haround : Leads accepts (· = front) _ _).transAny hleads

theorem prependAny (front : List Command) (hleads : Leads accepts fronts middle inner) :
    Leads accepts (fun _ => True) (fun statement => do
      let lines ← middle statement
      return front ++ lines) inner :=
  hleads.wrapAny front fun _ _ => ⟨[], (List.append_nil _).symm⟩

end Leads

/-! ## Into a statement -/

/-- The lines of a statement in this slot, with those of what else stands there. -/
def slotLines (slot : Slot) (statement : Stmt) : Emitter (List Command) :=
  match slot with
  | .gap gap => block (gap.fill statement)
  | .otherwise => negative (some statement)

section

variable {accepts : Stmt → Prop} {fronts : List Command → Prop}

theorem leads_braces {opening : String} {inner : Stmt → Emitter (List Command)}
    (hopening : fronts [openBrace opening]) :
    Leads accepts fronts (fun statement => do
      let inside ← inner statement
      return openBrace opening :: inside ++ [closeBrace]) inner :=
  .wrap _ hopening fun _ _ => ⟨[closeBrace], rfl⟩

theorem transparent_openBrace {opening : String}
    (hopening : isBreakable (opening ++ "\x7b") = false) : Transparent [openBrace opening] :=
  transparent_indent hopening

theorem eachOf_append_cons {α : Type} (emitOne : α → Emitter (List Command)) (front : List α)
    (part : α) (back : List α) :
    eachOf emitOne (front ++ part :: back) = do
      let before ← eachOf emitOne front
      let lines ← emitOne part
      let after ← eachOf emitOne back
      return before ++ lines ++ after := by
  induction front with
  | nil => simp [eachOf]
  | cons first rest ih =>
      rw [List.cons_append, eachOf, ih, eachOf]
      simp only [bind_assoc, pure_bind, List.append_assoc]

theorem leads_eachOf {α : Type} {emitOne : α → Emitter (List Command)} {part : Stmt → α}
    {front : List α} (hfront : ∀ emission, fronts ((eachOf emitOne front).run emission).1)
    (back : List α) :
    Leads accepts fronts (fun statement => eachOf emitOne (front ++ part statement :: back))
      (fun statement => emitOne (part statement)) := by
  simp only [eachOf_append_cons]
  exact .bind fun emission => .wrap _ (hfront emission) fun _ _ => ⟨_, rfl⟩

theorem leads_nativeCase (label : Literal) (gap : Gap) :
    Leads accepts Transparent (fun statement => nativeCase ⟨label, gap.fill statement⟩)
      (slotLines (.gap gap)) := by
  simp only [nativeCase]
  refine .wrap _ (transparent_openBrace ?_) fun _ _ => ⟨[.line "break;", closeBrace], rfl⟩
  simp [isBreakable, List.isPrefixOf]

theorem leads_nativeFallback (gap : Gap) :
    Leads accepts Transparent (fun statement => nativeFallback (some (gap.fill statement)))
      (slotLines (.gap gap)) := by
  simp only [nativeFallback]
  exact .wrap _ (transparent_openBrace (by decide)) fun _ _ =>
    ⟨[.line "break;", closeBrace], rfl⟩

theorem transparent_armOpening (matched condition : String) :
    Transparent (armOpening matched condition) := by
  have hopening :
      Transparent [openBrace ("if (!" ++ matched ++ " && (" ++ condition ++ ")) ")] := by
    apply transparent_openBrace
    simp [isBreakable, List.isPrefixOf]
  exact hopening.append fun _ _ => rfl

theorem leads_testedClause (value matched : String) (patterns : List Pattern) (gap : Gap) :
    Leads accepts Transparent
      (fun statement => testedClause value matched patterns (gap.fill statement))
      (slotLines (.gap gap)) :=
  .wrap _ (transparent_armOpening _ _) fun _ _ => ⟨[closeBrace], rfl⟩

theorem leads_testedFallback (matched : String) (gap : Gap) :
    Leads accepts Transparent (fun statement => testedFallback matched (some (gap.fill statement)))
      (slotLines (.gap gap)) := by
  simp only [testedFallback]
  apply leads_braces
  apply transparent_openBrace
  simp [isBreakable, List.isPrefixOf]

/-- The lines in front of the clauses of a switch or match that is tested clause by clause. -/
def testedOpening (scrutinee : Expr) (value matched : String) : List Command :=
  [openBrace "", .line ("const auto " ++ value ++ " = " ++ scrutinee.cppText ++ ";"),
    .line ("bool " ++ matched ++ " = false;")]

theorem transparent_testedOpening (scrutinee : Expr) (value matched : String) :
    Transparent (testedOpening scrutinee value matched) := by
  have hopening : Transparent [openBrace ""] := transparent_openBrace (by decide)
  exact hopening.append fun _ _ => rfl

theorem leads_tested_clauses {scrutinee : Expr}
    {clauses : Stmt → String → String → Emitter (List Command)}
    {inner : Stmt → Emitter (List Command)} (fallback : Option Block)
    (hclauses : ∀ value matched, Leads accepts Transparent
      (fun statement => clauses statement value matched) inner) :
    Leads accepts Transparent
      (fun statement => tested scrutinee (clauses statement) fallback) inner := by
  simp only [tested]
  refine .bind fun start => .bind fun next => ?_
  generalize ((fresh "match").run start).1 = value
  generalize ((fresh "matched").run next).1 = matched
  refine .trans (.wrap (testedOpening scrutinee value matched) (transparent_testedOpening _ _ _)
    fun lines emission => ?_) (hclauses value matched) fun _ _ => Transparent.append
  refine ⟨((testedFallback matched fallback).run emission).1 ++ [closeBrace], ?_⟩
  simp only [run_bind, run_pure, testedOpening, List.append_assoc, List.cons_append,
    List.nil_append]

theorem leads_tested_fallback {scrutinee : Expr}
    {clauses : String → String → Emitter (List Command)} (gap : Gap)
    (hclauses : ∀ value matched emission, Balanced ((clauses value matched).run emission).1) :
    Leads accepts Transparent
      (fun statement => tested scrutinee clauses (some (gap.fill statement)))
      (slotLines (.gap gap)) := by
  simp only [tested]
  refine .bind fun start => .bind fun next => .bind fun emission => ?_
  generalize ((fresh "match").run start).1 = value
  generalize ((fresh "matched").run next).1 = matched
  refine .trans (.wrap (testedOpening scrutinee value matched ++ _)
    ((transparent_testedOpening _ _ _).append (hclauses value matched emission).transparent)
    fun lines _ => ⟨[closeBrace], ?_⟩) (leads_testedFallback matched gap)
    fun _ _ => Transparent.append
  simp only [run_pure, testedOpening, List.append_assoc, List.cons_append, List.nil_append]

/-! ### Switches -/

theorem isNative_fill (front : List SwitchCase) (label : Literal) (body other : Block)
    (back : List SwitchCase) :
    isNative (front ++ ⟨label, body⟩ :: back) = isNative (front ++ ⟨label, other⟩ :: back) := by
  simp [isNative, List.mapM_append, List.mapM_cons]

theorem balanced_nativeCases (cases : List SwitchCase) (emission : Emission) :
    Balanced ((eachOf nativeCase cases).run emission).1 := by
  refine balanced_eachOf (fun clause emission => ?_) cases emission
  have hlines : Writes true _ _ _ _ := writes_nativeCase (writtenBlock clause.body) emission
  exact hlines.balanced

theorem balanced_testedClauses {α : Type} (value matched : String) (patterns : α → List Pattern)
    (body : α → Block) (clauses : List α) (emission : Emission) :
    Balanced ((eachOf (fun clause => testedClause value matched (patterns clause) (body clause))
      clauses).run emission).1 := by
  refine balanced_eachOf (fun clause emission => ?_) clauses emission
  have hlines : Writes true _ _ _ _ :=
    writes_testedClause value matched (patterns clause) (writtenBlock (body clause)) emission
  exact hlines.balanced

theorem captures_switch (scrutinee : Expr) :
    Captures [openBrace ("switch (static_cast<long long>(" ++ scrutinee.cppText ++ ")) ")] := by
  apply captures_indent
  simp [isBreakable, List.isPrefixOf]

theorem leads_case_native {front back : List SwitchCase} {label : Literal} {gap : Gap}
    (hnative : ∀ body, isNative (front ++ ⟨label, body⟩ :: back) = true) (line : Nat)
    (scrutinee : Expr) (fallback : Option Block) :
    Leads accepts Captures (fun statement => stmt
        (.switch line scrutinee (front ++ ⟨label, gap.fill statement⟩ :: back) fallback))
      (slotLines (.gap gap)) := by
  simp only [stmt_switch_of_native (hnative _)]
  have hclause : Leads accepts Transparent _ _ := .trans
    (leads_eachOf (fun emission => (balanced_nativeCases front emission).transparent) back)
    (leads_nativeCase label gap) fun _ _ => Transparent.append
  refine .trans (.wrap _ (captures_switch scrutinee) fun lines emission => ?_) hclause
    fun _ _ => Captures.append
  refine ⟨((nativeFallback fallback).run emission).1 ++ [closeBrace], ?_⟩
  simp only [run_bind, run_pure, List.append_assoc, List.cons_append, List.nil_append]

theorem leads_case_tested {front back : List SwitchCase} {label : Literal} {gap : Gap}
    (hnative : ∀ body, isNative (front ++ ⟨label, body⟩ :: back) = false) (line : Nat)
    (scrutinee : Expr) (fallback : Option Block) :
    Leads accepts Transparent (fun statement => stmt
        (.switch line scrutinee (front ++ ⟨label, gap.fill statement⟩ :: back) fallback))
      (slotLines (.gap gap)) := by
  simp only [stmt_switch_of_not_native (hnative _)]
  refine leads_tested_clauses fallback fun value matched => ?_
  exact .trans (leads_eachOf (fun emission =>
    (balanced_testedClauses value matched _ _ front emission).transparent) back)
    (leads_testedClause value matched [.literal label] gap) fun _ _ => Transparent.append

theorem leads_switchFallback_native {cases : List SwitchCase} (hnative : isNative cases = true)
    (line : Nat) (scrutinee : Expr) (gap : Gap) :
    Leads accepts Captures
      (fun statement => stmt (.switch line scrutinee cases (some (gap.fill statement))))
      (slotLines (.gap gap)) := by
  simp only [stmt_switch_of_native hnative]
  refine .bind fun emission => .trans (.wrap (_ ++ _)
    ((captures_switch scrutinee).append (balanced_nativeCases cases emission).transparent)
    fun lines _ => ⟨[closeBrace], ?_⟩) (leads_nativeFallback gap) fun _ _ => Captures.append
  simp only [run_pure, List.append_assoc, List.cons_append, List.nil_append]

theorem leads_switchFallback_tested {cases : List SwitchCase} (hnative : isNative cases = false)
    (line : Nat) (scrutinee : Expr) (gap : Gap) :
    Leads accepts Transparent
      (fun statement => stmt (.switch line scrutinee cases (some (gap.fill statement))))
      (slotLines (.gap gap)) := by
  simp only [stmt_switch_of_not_native hnative]
  exact leads_tested_fallback gap fun value matched =>
    balanced_testedClauses value matched _ _ cases

theorem leads_arm (line : Nat) (scrutinee : Expr) (front : List MatchArm)
    (patterns : List Pattern) (gap : Gap) (back : List MatchArm) (fallback : Option Block) :
    Leads accepts Transparent (fun statement => stmt
        (.select line scrutinee (front ++ ⟨patterns, gap.fill statement⟩ :: back) fallback))
      (slotLines (.gap gap)) := by
  simp only [stmt_select]
  refine leads_tested_clauses fallback fun value matched => ?_
  exact .trans (leads_eachOf (fun emission =>
    (balanced_testedClauses value matched _ _ front emission).transparent) back)
    (leads_testedClause value matched patterns gap) fun _ _ => Transparent.append

theorem leads_selectFallback (line : Nat) (scrutinee : Expr) (arms : List MatchArm) (gap : Gap) :
    Leads accepts Transparent
      (fun statement => stmt (.select line scrutinee arms (some (gap.fill statement))))
      (slotLines (.gap gap)) := by
  simp only [stmt_select]
  exact leads_tested_fallback gap fun value matched => balanced_testedClauses value matched _ _ arms

/-! ### Other statements -/

theorem leads_loop {opener : Opener}
    (hloop : Enclosure.isLoop (.nested 0 opener ⟨0, [], []⟩) = true) (line : Nat) (gap : Gap) :
    Leads accepts Captures (fun statement => stmt (.nested line opener (gap.fill statement)))
      (slotLines (.gap gap)) := by
  cases opener with
  | whileLoop condition | forLoop header =>
      simp only [stmt]
      refine leads_braces (captures_indent ?_)
      simp [isBreakable, List.isPrefixOf]
  | _ => cases hloop

theorem leads_block (line : Nat) (gap : Gap) :
    Leads accepts Transparent (fun statement => stmt (.nested line .block (gap.fill statement)))
      (slotLines (.gap gap)) := by
  simp only [stmt]
  exact leads_braces (transparent_openBrace (by decide))

theorem leads_pureRegion (line : Nat) (gap : Gap) :
    Leads accepts Transparent
      (fun statement => stmt (.nested line .pureRegion (gap.fill statement)))
      (slotLines (.gap gap)) := by
  simp only [stmt]
  have hcomment : Balanced [.line "// pure region"] := fun _ _ => rfl
  exact .wrap _ (hcomment.transparent.append (transparent_openBrace (by decide)))
    fun _ _ => ⟨[closeBrace], rfl⟩

theorem transparent_if (condition : Expr) :
    Transparent [openBrace ("if (" ++ condition.cppText ++ ") ")] := by
  apply transparent_openBrace
  simp [isBreakable, List.isPrefixOf]

theorem leads_positive (line : Nat) (condition : Expr) (gap : Gap) (branch : Option Stmt) :
    Leads accepts Transparent
      (fun statement => stmt (.branch line condition (gap.fill statement) branch))
      (slotLines (.gap gap)) := by
  simp only [stmt]
  exact .wrap _ (transparent_if condition) fun _ _ => ⟨_, rfl⟩

theorem leads_negative (line : Nat) (condition : Expr) (positive : Block) :
    Leads accepts Transparent
      (fun statement => stmt (.branch line condition positive (some statement)))
      (fun statement => negative (some statement)) := by
  simp only [stmt]
  refine .bind fun emission => .wrap (_ ++ _)
    ((transparent_if condition).append (balanced_block positive emission).transparent)
    fun lines _ => ⟨[], ?_⟩
  simp only [run_pure, List.cons_append, List.nil_append, List.append_nil]

theorem leads_body (line : Nat) (gap : Gap) (binding : Option String) (rescue : Block) :
    Leads accepts Transparent
      (fun statement => stmt (.attempt line (gap.fill statement) binding rescue))
      (slotLines (.gap gap)) := by
  simp only [stmt]
  have hopening : Transparent [openBrace "try "] := transparent_openBrace (by decide)
  refine .bind fun _ => .wrap _ hopening fun lines emission => ?_
  simp only [run_bind, run_pure, List.append_assoc, List.cons_append, List.nil_append]
  exact ⟨_, rfl⟩

theorem leads_handler (line : Nat) (tried : Block) (binding : Option String) (gap : Gap) :
    Leads accepts Transparent
      (fun statement => stmt (.attempt line tried binding (gap.fill statement)))
      (slotLines (.gap gap)) := by
  simp only [stmt]
  refine .bind fun _ => .bind fun emission => ?_
  have hcatch : Transparent [openBrace "catch (const std::exception& tide_error) "] :=
    transparent_openBrace (by decide)
  have htried := (balanced_block tried emission).enclosed "try \x7b" "\x7d"
  have hfront := (htried.transparent.append hcatch).append (balanced_lines
    (fun name => "std::string " ++ name ++ " = tide_error.what();") binding.toList).transparent
  refine .wrap _ hfront fun lines _ => ⟨[closeBrace], ?_⟩
  simp only [run_pure, List.append_assoc, List.cons_append, List.nil_append]
  rfl

/-! ### Functions and methods -/

theorem leads_function (placement : Placement) (declaration : FunctionDecl) (gap : Gap) :
    Leads accepts (fun _ => True)
      (fun statement => function placement { declaration with body := gap.fill statement })
      (slotLines (.gap gap)) := by
  simp only [function]
  exact .wrap _ trivial fun _ _ => ⟨_, rfl⟩

theorem leads_members (current access : Access) (front : List ClassMember) (called : FunctionDecl)
    (gap : Gap) (back : List ClassMember) :
    Leads accepts (fun _ => True) (fun statement => members current
        (front ++ .method access { called with body := gap.fill statement } :: back))
      (slotLines (.gap gap)) := by
  induction front generalizing current with
  | nil =>
      simp only [List.nil_append, members]
      refine .wrapAny (accessLabel current access) (leads_function .member called gap)
        fun lines emission => ⟨((members access back).run emission).1, ?_⟩
      simp only [run_bind, run_pure]
  | cons first rest ih =>
      cases first with
      | field other binding =>
          simp only [List.cons_append, members]
          have hfield := (ih other).prependAny (accessLabel current other ++
            [.line (fieldDeclaration binding)])
          simpa only [List.append_assoc, List.singleton_append] using hfield
      | method other declaration =>
          simp only [List.cons_append, members]
          exact .bind fun _ => .prependAny _ (ih other)

theorem leads_classDecl (declaration : ClassDecl) (front : List ClassMember) (access : Access)
    (called : FunctionDecl) (gap : Gap) (back : List ClassMember) :
    Leads accepts (fun _ => True) (fun statement => classDecl { declaration with
        members := front ++ .method access { called with body := gap.fill statement } :: back })
      (slotLines (.gap gap)) := by
  simp only [classDecl]
  exact .wrapAny [classOpening ..] (leads_members _ access front called gap back)
    fun _ _ => ⟨[.dedent "\x7d;"], rfl⟩

/-! ## Into a list of statements -/

theorem stmts_append_cons {statement : Stmt} (hplain : isTask statement = false)
    (list : Option String) (front back : List Stmt) :
    stmts list (front ++ statement :: back) = do
      let before ← stmts list front
      let lines ← stmt statement
      let after ← stmts none back
      return before ++ lines ++ after := by
  induction front generalizing list with
  | nil =>
      rw [List.nil_append, stmts_cons hplain, stmts]
      simp only [pure_bind]
  | cons first rest ih =>
      by_cases htask : isTask first
      · obtain ⟨line, priority, body, rfl⟩ := exists_of_isTask htask
        cases list <;> simp only [List.cons_append, stmts, ih, bind_assoc, pure_bind,
          List.append_assoc]
      · have hfirst := Bool.eq_false_iff.mpr htask
        simp only [List.cons_append, stmts_cons hfirst, ih, bind_assoc, pure_bind,
          List.append_assoc]

theorem block_fill (gap : Gap) (statement : Stmt) :
    block (gap.fill statement) = stmts none (gap.front ++ statement :: gap.back) := by
  simp only [Gap.fill, block]

/-- A statement that is no task has its own lines behind those of the statements before it. -/
theorem leads_gap (gap : Gap) :
    Leads (isTask · = false) Balanced (slotLines (.gap gap)) stmt := by
  intro emission
  refine ⟨((stmts none gap.front).run emission).1, ((stmts none gap.front).run emission).2,
    balanced_stmts gap.front emission, fun statement hplain => ?_⟩
  simp only [slotLines, block_fill, stmts_append_cons hplain]
  exact ⟨_, rfl⟩

/-- Statements in front, some of which may have left a run list open. -/
theorem leads_stmts_append {rest : Stmt → List Stmt} {inner : Stmt → Emitter (List Command)}
    (hrest : ∀ list, Leads accepts (fun _ => True) (fun statement => stmts list (rest statement))
      inner) (list : Option String) (front : List Stmt) :
    Leads accepts (fun _ => True) (fun statement => stmts list (front ++ rest statement))
      inner := by
  induction front generalizing list with
  | nil => exact hrest list
  | cons first front ih =>
      by_cases htask : isTask first
      · obtain ⟨line, priority, body, rfl⟩ := exists_of_isTask htask
        cases list with
        | some list =>
            simp only [List.cons_append, stmts]
            exact .bind fun _ => .prependAny _ (ih (some list))
        | none =>
            simp only [List.cons_append, stmts]
            exact .bind fun _ => .bind fun _ => .prependAny _ (ih (some _))
      · simp only [List.cons_append, stmts_cons (Bool.eq_false_iff.mpr htask)]
        exact .bind fun _ => .prependAny _ (ih none)

theorem leads_task (line : Nat) (priority : Expr) (gap : Gap) (list : Option String)
    (back : List Stmt) :
    Leads accepts (fun _ => True) (fun statement => stmts list
        (.nested line (.schedule priority) (gap.fill statement) :: back))
      (slotLines (.gap gap)) := by
  cases list with
  | some list =>
      simp only [stmts]
      refine .wrap [openBrace (list ++ ".add(" ++ priority.cppText ++ ", [&]() ")] trivial
        fun lines emission => ?_
      simp only [run_bind, run_pure, task, List.append_assoc, List.cons_append, List.nil_append]
      exact ⟨_, rfl⟩
  | none =>
      simp only [stmts]
      refine .bind fun start => .wrap (openRunList (newRunList.run start).1 ++
        [openBrace ((newRunList.run start).1 ++ ".add(" ++ priority.cppText ++ ", [&]() ")]) trivial
        fun lines emission => ?_
      simp only [run_bind, run_pure, task, List.append_assoc, List.cons_append, List.nil_append]
      exact ⟨_, rfl⟩

theorem leads_gap_task (line : Nat) (priority : Expr) (gap inner : Gap) :
    Leads accepts (fun _ => True) (fun statement => block
        (gap.fill (.nested line (.schedule priority) (inner.fill statement))))
      (fun statement => block (inner.fill statement)) := by
  simp only [block_fill gap]
  exact leads_stmts_append (fun list => leads_task line priority inner list gap.back) none gap.front

/-! ## Behind an `else` -/

theorem leads_else :
    Leads (joinsElse · = false) Balanced (fun statement => negative (some statement)) stmt := by
  intro emission
  refine ⟨[.outer "\x7d else \x7b"], emission, fun _ _ => rfl, fun statement hplain => ?_⟩
  simp only [negative_some hplain]
  exact ⟨[closeBrace], rfl⟩

theorem leads_else_block (line : Nat) (gap : Gap) :
    Leads accepts Balanced
      (fun statement => negative (some (.nested line .block (gap.fill statement))))
      (slotLines (.gap gap)) := by
  simp only [negative]
  exact .wrap [.outer "\x7d else \x7b"] (fun _ _ => rfl) fun _ _ => ⟨[closeBrace], rfl⟩

theorem leads_else_positive (line : Nat) (condition : Expr) (gap : Gap) (branch : Option Stmt) :
    Leads accepts Balanced
      (fun statement => negative (some (.branch line condition (gap.fill statement) branch)))
      (slotLines (.gap gap)) := by
  simp only [negative]
  exact .wrap [.outer _] (fun _ _ => rfl) fun _ _ => ⟨_, rfl⟩

theorem leads_else_negative (line : Nat) (condition : Expr) (positive : Block) :
    Leads accepts Balanced
      (fun statement => negative (some (.branch line condition positive (some statement))))
      (fun statement => negative (some statement)) := by
  simp only [negative]
  refine .bind fun emission => .wrap (.outer _ :: ((block positive).run emission).1) ?_
    fun _ _ => ⟨[], (List.append_nil _).symm⟩
  exact fun position around => balanced_block positive emission (position + 1) around

/-! ## Along a path -/

/-- A statement with lines of its own in every slot. -/
def hasOwnLines (statement : Stmt) : Bool :=
  !isTask statement && !joinsElse statement && !isDeclaration statement

/-- The lines that lead into a statement. -/
theorem leads_stmt (enclosure : Enclosure) :
    Leads accepts (fun front => enclosure.isPassable = true → Transparent front)
      (fun statement => stmt (enclosure.fill statement)) (slotLines enclosure.slot) := by
  cases enclosure with
  | nested line opener gap =>
      cases opener with
      | block => exact (leads_block line gap).mono fun _ hfront _ => hfront
      | pureRegion => exact (leads_pureRegion line gap).mono fun _ hfront _ => hfront
      | whileLoop | forLoop =>
          exact (leads_loop rfl line gap).mono fun _ _ hpass => absurd hpass Bool.false_ne_true
      | schedule priority =>
          simp only [Enclosure.fill, stmt_task]
          exact (leads_task line priority gap none []).mono
            fun _ _ hpass => absurd hpass Bool.false_ne_true
  | positive line condition gap branch =>
      exact (leads_positive line condition gap branch).mono fun _ hfront _ => hfront
  | negative line condition before =>
      exact (leads_negative line condition before).mono fun _ hfront _ => hfront
  | case line scrutinee front label gap back fallback =>
      cases hnative : isNative (front ++ ⟨label, gap.closed⟩ :: back) with
      | true =>
          refine (leads_case_native (fun body => ?_) line scrutinee fallback).mono
            fun _ _ hpass => ?_
          · rw [isNative_fill front label body gap.closed back, hnative]
          · simp [Enclosure.isPassable, Enclosure.isNativeClause, hnative] at hpass
      | false =>
          refine (leads_case_tested (fun body => ?_) line scrutinee fallback).mono
            fun _ hfront _ => hfront
          rw [isNative_fill front label body gap.closed back, hnative]
  | switchFallback line scrutinee cases gap =>
      cases hnative : isNative cases with
      | true =>
          refine (leads_switchFallback_native hnative line scrutinee gap).mono fun _ _ hpass => ?_
          simp [Enclosure.isPassable, Enclosure.isNativeClause, hnative] at hpass
      | false =>
          exact (leads_switchFallback_tested hnative line scrutinee gap).mono
            fun _ hfront _ => hfront
  | arm line scrutinee front patterns gap back fallback =>
      exact (leads_arm line scrutinee front patterns gap back fallback).mono
        fun _ hfront _ => hfront
  | selectFallback line scrutinee arms gap =>
      exact (leads_selectFallback line scrutinee arms gap).mono fun _ hfront _ => hfront
  | body line gap binding rescue =>
      exact (leads_body line gap binding rescue).mono fun _ hfront _ => hfront
  | handler line tried binding gap =>
      exact (leads_handler line tried binding gap).mono fun _ hfront _ => hfront
  | function line declaration gap =>
      simp only [Enclosure.fill, stmt]
      exact (leads_function .inBlock declaration gap).mono
        fun _ _ hpass => absurd hpass Bool.false_ne_true
  | method line declaration front access called gap back =>
      simp only [Enclosure.fill, stmt]
      exact (leads_classDecl declaration front access called gap back).mono
        fun _ _ hpass => absurd hpass Bool.false_ne_true

/-- The lines that lead into a loop or into a clause of a native switch. -/
theorem leads_capturing {enclosure : Enclosure}
    (hcaptures : enclosure.isLoop = true ∨ enclosure.isNativeClause = true) :
    Leads accepts Captures (fun statement => stmt (enclosure.fill statement))
      (slotLines enclosure.slot) := by
  cases enclosure with
  | nested line opener gap =>
      cases opener with
      | whileLoop condition => exact leads_loop rfl line gap
      | forLoop header => exact leads_loop rfl line gap
      | _ => rcases hcaptures with hloop | hnative <;> contradiction
  | case line scrutinee front label gap back fallback =>
      refine leads_case_native (fun body => ?_) line scrutinee fallback
      rw [isNative_fill front label body gap.closed back]
      exact hcaptures.resolve_left nofun
  | switchFallback line scrutinee cases gap =>
      exact leads_switchFallback_native (hcaptures.resolve_left nofun) line scrutinee gap
  | _ => rcases hcaptures with hloop | hnative <;> contradiction

/-- The lines that lead from a slot into a statement that stands there. -/
theorem leads_slot (slot : Slot) (enclosure : Enclosure) :
    Leads accepts (fun front => enclosure.isPassable = true → Transparent front)
      (fun statement => slotLines slot (enclosure.fill statement))
      (slotLines enclosure.slot) := by
  have hstmt : ∀ {accepted}, (∀ statement, accepted (enclosure.fill statement)) →
      Leads accepted Balanced (slotLines slot) stmt →
      Leads accepts (fun front => enclosure.isPassable = true → Transparent front)
        (fun statement => slotLines slot (enclosure.fill statement))
        (slotLines enclosure.slot) := by
    intro accepted hall hslot
    exact (hslot.comp fun statement _ => hall statement).trans (leads_stmt enclosure)
      fun _ _ hfront hmore hpass => hfront.transparent.append (hmore hpass)
  cases slot with
  | gap gap =>
      cases enclosure with
      | nested line opener inner =>
          cases opener with
          | schedule priority =>
              exact (leads_gap_task line priority gap inner).mono fun _ _ => nofun
          | _ => exact hstmt (fun _ => rfl) (leads_gap gap)
      | _ => exact hstmt (fun _ => rfl) (leads_gap gap)
  | otherwise =>
      cases enclosure with
      | nested line opener inner =>
          cases opener with
          | block => exact (leads_else_block line inner).mono fun _ hfront _ => hfront.transparent
          | _ => exact hstmt (fun _ => rfl) leads_else
      | positive line condition inner branch =>
          exact (leads_else_positive line condition inner branch).mono
            fun _ hfront _ => hfront.transparent
      | negative line condition before =>
          exact (leads_else_negative line condition before).mono
            fun _ hfront _ => hfront.transparent
      | _ => exact hstmt (fun _ => rfl) leads_else

/-- The lines that lead from a slot to a place further in. -/
theorem leads_path (slot : Slot) (path : List Enclosure) :
    Leads (hasOwnLines · = true)
      (fun front => (∀ enclosure ∈ path, enclosure.isPassable = true) → Transparent front)
      (fun statement => slotLines slot (Enclosure.fillAll path statement)) stmt := by
  induction path generalizing slot with
  | nil =>
      cases slot with
      | gap gap =>
          refine ((leads_gap gap).weaken fun statement hplain => ?_).mono
            fun _ hfront _ => hfront.transparent
          simp_all [hasOwnLines]
      | otherwise =>
          refine (leads_else.weaken fun statement hplain => ?_).mono
            fun _ hfront _ => hfront.transparent
          simp_all [hasOwnLines]
  | cons enclosure path ih =>
      have hinto : Leads (fun _ => True) _ _ _ := leads_slot slot enclosure
      refine (hinto.comp fun _ _ => trivial).trans (ih enclosure.slot) ?_
      intro front more hfront hmore hpass
      obtain ⟨hfirst, hrest⟩ := List.forall_mem_cons.mp hpass
      exact (hfront hfirst).append (hmore hrest)

/-! ## From the top of the program -/

theorem leads_declarations {α : Type} (emitOne : α → Emitter (List Command)) (front back : List α)
    (part : Stmt → α) :
    Leads accepts (fun _ => True)
      (fun statement => declarations emitOne (front ++ part statement :: back))
      (fun statement => emitOne (part statement)) := by
  simp only [declarations_eq_eachOf]
  have hpart : Leads accepts (· = []) (fun statement => do
      let lines ← emitOne (part statement)
      return lines ++ [.blank]) (fun statement => emitOne (part statement)) :=
    .wrap [] rfl fun _ _ => ⟨[.blank], rfl⟩
  exact (leads_eachOf (fun _ => trivial) back : Leads accepts (fun _ => True) _ _).transAny hpart

/-- The parts of the output, put together. -/
def assembled (classes functions body : Emitter (List Command)) : Emitter (List Command) := do
  let classes ← classes
  let functions ← functions
  let body ← body
  return classes ++ functions ++ openBrace "int main() "
    :: .line "std::cout << std::boolalpha;" :: body ++ [.line "return 0;", closeBrace]

theorem commands_eq_assembled (program : Program) :
    commands program = assembled (declarations classDecl (topClasses program))
      (declarations (function .free) (topFunctions program)) (stmts none (topStatements program)) :=
  rfl

section

variable {inner : Stmt → Emitter (List Command)}

theorem leads_assembled_classes {classes : Stmt → Emitter (List Command)}
    (hclasses : Leads accepts fronts classes inner) (functions body : Emitter (List Command)) :
    Leads accepts (fun _ => True) (fun statement => assembled (classes statement) functions body)
      inner := by
  refine hclasses.wrapAny [] fun lines emission => ?_
  simp only [run_bind, run_pure, List.append_assoc, List.nil_append]
  exact ⟨_, rfl⟩

theorem leads_assembled_functions {functions : Stmt → Emitter (List Command)}
    (hfunctions : Leads accepts fronts functions inner) (classes body : Emitter (List Command)) :
    Leads accepts (fun _ => True) (fun statement => assembled classes (functions statement) body)
      inner := by
  refine .bind fun start => hfunctions.wrapAny (classes.run start).1 fun lines emission => ?_
  simp only [run_bind, run_pure, List.append_assoc]
  exact ⟨_, rfl⟩

theorem leads_assembled_body {body : Stmt → Emitter (List Command)}
    (hbody : Leads accepts fronts body inner) (classes functions : Emitter (List Command)) :
    Leads accepts (fun _ => True) (fun statement => assembled classes functions (body statement))
      inner := by
  refine .bind fun start => .bind fun next => hbody.wrapAny
    ((classes.run start).1 ++ (functions.run next).1 ++
      [openBrace "int main() ", .line "std::cout << std::boolalpha;"]) fun lines emission => ?_
  simp only [run_pure, List.append_assoc, List.cons_append, List.nil_append]
  exact ⟨_, rfl⟩

end

theorem leads_commands_method (front back : Program) (line : Nat) (declaration : ClassDecl)
    (before : List ClassMember) (access : Access) (called : FunctionDecl) (gap : Gap)
    (after : List ClassMember) :
    Leads accepts (fun _ => True)
      (fun statement => commands (front ++ .classDecl line { declaration with
        members := before ++ .method access { called with body := gap.fill statement } :: after }
          :: back)) (slotLines (.gap gap)) := by
  have hparts : ∀ declaration,
      topClasses (front ++ .classDecl line declaration :: back) =
          topClasses front ++ declaration :: topClasses back ∧
        topFunctions (front ++ .classDecl line declaration :: back) =
          topFunctions (front ++ back) ∧
        topStatements (front ++ .classDecl line declaration :: back) =
          topStatements (front ++ back) := by
    simp [topClasses, topFunctions, topStatements, isDeclaration]
  simp only [commands_eq_assembled, hparts]
  exact leads_assembled_classes ((leads_declarations classDecl _ _ _).transAny
    (leads_classDecl declaration before access called gap after)) _ _

theorem leads_commands_function (front back : Program) (line : Nat) (declaration : FunctionDecl)
    (gap : Gap) :
    Leads accepts (fun _ => True) (fun statement => commands
        (front ++ .function line { declaration with body := gap.fill statement } :: back))
      (slotLines (.gap gap)) := by
  have hparts : ∀ declaration,
      topClasses (front ++ .function line declaration :: back) = topClasses (front ++ back) ∧
        topFunctions (front ++ .function line declaration :: back) =
          topFunctions front ++ declaration :: topFunctions back ∧
        topStatements (front ++ .function line declaration :: back) =
          topStatements (front ++ back) := by
    simp [topClasses, topFunctions, topStatements, isDeclaration]
  simp only [commands_eq_assembled, hparts]
  exact leads_assembled_functions ((leads_declarations (function .free) _ _ _).transAny
    (leads_function .free declaration gap)) _ _

/-- What is no declaration goes into `main`. -/
theorem leads_commands_statement (front back : Program) :
    Leads (isDeclaration · = false) (fun _ => True)
      (fun statement => commands (front ++ statement :: back))
      (slotLines (.gap ⟨0, topStatements front, topStatements back⟩)) := by
  have hparts : ∀ statement, isDeclaration statement = false →
      commands (front ++ statement :: back) =
        assembled (declarations classDecl (topClasses (front ++ back)))
          (declarations (function .free) (topFunctions (front ++ back)))
          (slotLines (.gap ⟨0, topStatements front, topStatements back⟩) statement) := by
    intro statement hplain
    rw [commands_eq_assembled, slotLines, block_fill]
    cases statement with
    | function | classDecl => cases hplain
    | _ => simp [topClasses, topFunctions, topStatements, isDeclaration]
  exact .congr (leads_assembled_body .refl _ _) hparts

/-- The lines that lead to a place. -/
theorem leads_locus (locus : Locus) :
    Leads (hasOwnLines · = true) (fun _ => True) (fun statement => commands (locus.fill statement))
      stmt := by
  obtain ⟨front, path, back⟩ := locus
  cases path with
  | nil =>
      refine (leads_commands_statement front back).weaken ?_ |>.transAny (leads_path _ [])
      simp [hasOwnLines]
  | cons enclosure path =>
      cases enclosure with
      | function line declaration gap =>
          have hinto : Leads (fun _ => True) _ _ _ :=
            leads_commands_function front back line declaration gap
          exact (hinto.comp fun _ _ => trivial).transAny (leads_path (.gap gap) path)
      | method line declaration before access called gap after =>
          have hinto : Leads (fun _ => True) _ _ _ :=
            leads_commands_method front back line declaration before access called gap after
          exact (hinto.comp fun _ _ => trivial).transAny (leads_path (.gap gap) path)
      | _ =>
          exact ((leads_commands_statement front back).comp fun _ _ => rfl).transAny
            (leads_path _ (_ :: path))

end

end Emit

end Tide
