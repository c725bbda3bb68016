import Tide.Emit.Unit
import Tide.Proofs.Tree.Children

/-!
# What emission can do

Emission writes lines that open and close again, hands out names, and notes what statements rely on.
`Writes` has one rule for each of these, and says for which statements they are done.  Everything
that emission writes is written by these rules, so an invariant of emission is shown once for each
rule and needs no walk through the statements.
-/

namespace Tide.Emit

theorem run_bind {α β : Type} (first : Emitter α) (next : α → Emitter β) (emission : Emission) :
    (first >>= next).run emission = (next (first.run emission).1).run (first.run emission).2 :=
  rfl

theorem run_pure {α : Type} (value : α) (emission : Emission) :
    (pure value : Emitter α).run emission = (value, emission) :=
  rfl

/-- What a statement itself relies on, besides what was noted before. -/
def ownNote : Stmt → Requirements → Requirements
  | .simple _ found, noted => actionNote found noted
  | .nested _ (.schedule _) _, noted => { noted with runList := true }
  | .attempt _ _ _ _, noted => noted.including ["stdexcept"]
  | _, noted => noted

/-- The labels of the names that emission hands out. -/
def temporaryLabels : List String := ["match", "matched", "run", "origin", "base", "shifted"]

/-- The lines are written for these statements, in this order, on the way from one state of emission
to another.  Lines that stand further out need an open line before them, so they are written only
`inside` of one. -/
inductive Writes : (inside : Bool) → (found : List Stmt) → (before : Emission) →
    (lines : List Command) → (after : Emission) → Prop
  | nothing {inside emission} : Writes inside [] emission [] emission
  | append {inside first second before middle after front back}
      (hfront : Writes inside first before front middle)
      (hback : Writes inside second middle back after) :
      Writes inside (first ++ second) before (front ++ back) after
  | line {inside emission} (text : String) : Writes inside [] emission [.line text] emission
  | blank {inside emission} : Writes inside [] emission [.blank] emission
  | outer {emission} (text : String) : Writes true [] emission [.outer text] emission
  | enclosed {inside found before lines after} (opening closing : String)
      (hlines : Writes true found before lines after) :
      Writes inside found before (.indent opening :: lines ++ [.dedent closing]) after
  | handOut {inside emission label} (hlabel : label ∈ temporaryLabels) :
      Writes inside [] emission [] ((fresh label).run emission).2
  | note {inside emission} (statement : Stmt) :
      Writes inside [statement] emission []
        { emission with requirements := ownNote statement emission.requirements }

namespace Writes

variable {inside : Bool} {found rest : List Stmt} {before middle after : Emission}
variable {lines more : List Command}

theorem braces (opening : String) (hlines : Writes true found before lines after) :
    Writes inside found before (openBrace opening :: lines ++ [closeBrace]) after :=
  .enclosed _ _ hlines

theorem lineThen (text : String) (hlines : Writes inside found before lines after) :
    Writes inside found before (.line text :: lines) after :=
  .append (.line text) hlines

theorem outerThen (text : String) (hlines : Writes true found before lines after) :
    Writes true found before (.outer text :: lines) after :=
  .append (.outer text) hlines

theorem thenLine (hlines : Writes inside found before lines after) (text : String) :
    Writes inside found before (lines ++ [.line text]) after := by
  simpa using hlines.append (.line text)

theorem handOutThen {label : String} (hlabel : label ∈ temporaryLabels)
    (hlines : Writes inside found ((fresh label).run before).2 lines after) :
    Writes inside found before lines after :=
  .append (.handOut hlabel) hlines

/-- The statement whose note comes first. -/
theorem noteThen {statement : Stmt}
    (hlines : Writes inside found
      { before with requirements := ownNote statement before.requirements } lines after) :
    Writes inside (statement :: found) before lines after :=
  .append (.note statement) hlines

theorem ofTexts (texts : List String) : Writes inside [] before (texts.map .line) before := by
  induction texts with
  | nil => exact .nothing
  | cons text texts ih => exact .lineThen text ih

/-- Everything can be written inside of a line. -/
theorem inner (hlines : Writes inside found before lines after) :
    Writes true found before lines after := by
  induction hlines with
  | nothing => exact .nothing
  | append hfront hback ihFront ihBack => exact ihFront.append ihBack
  | line text => exact .line text
  | blank => exact .blank
  | outer text => exact .outer text
  | enclosed opening closing hlines ih => exact .enclosed opening closing ih
  | handOut hlabel => exact .handOut hlabel
  | note statement => exact .note statement

/-- What was noted stays noted. -/
theorem runList (hlines : Writes inside found before lines after)
    (hnoted : before.requirements.runList = true) : after.requirements.runList = true := by
  induction hlines with
  | nothing | line | blank | outer | handOut => exact hnoted
  | append hfront hback ihFront ihBack => exact ihBack (ihFront hnoted)
  | enclosed opening closing hlines ih => exact ih hnoted
  | note statement =>
      cases statement with
      | simple line found => cases found <;> exact hnoted
      | nested line opener body =>
          cases opener with
          | schedule priority => rfl
          | _ => exact hnoted
      | _ => exact hnoted

end Writes

/-! ## Statements one after the other -/

/-- The statement goes into a run list. -/
def isTask : Stmt → Bool
  | .nested _ (.schedule _) _ => true
  | _ => false

theorem exists_of_isTask {statement : Stmt} (htask : isTask statement = true) :
    ∃ line priority body, statement = .nested line (.schedule priority) body := by
  cases statement with
  | nested line opener body =>
      cases opener with
      | schedule priority => exact ⟨line, priority, body, rfl⟩
      | _ => cases htask
  | _ => cases htask

theorem stmts_cons {first : Stmt} (hfirst : isTask first = false) (list : Option String)
    (rest : List Stmt) :
    stmts list (first :: rest) = do
      let lines ← stmt first
      let after ← stmts none rest
      return closeRunList list ++ lines ++ after := by
  cases first with
  | nested line opener body =>
      cases opener with
      | schedule priority => cases hfirst
      | _ =>
          rw [stmts]
          simp
  | _ =>
      rw [stmts]
      simp

/-- A task on its own is a run list with one entry. -/
theorem stmt_task (line : Nat) (priority : Expr) (body : Block) :
    stmt (.nested line (.schedule priority) body) =
      stmts none [.nested line (.schedule priority) body] := by
  simp [stmt, stmts]

/-- The lines end the run list that is open, if one is, and go on behind it. -/
def WritesFrom (list : Option String) (inside : Bool) (found : List Stmt) (before : Emission)
    (lines : List Command) (after : Emission) : Prop :=
  ∃ first second middle front back, found = first ++ second ∧
    lines = front ++ closeRunList list ++ back ∧
    Writes inside first before front middle ∧ Writes inside second middle back after

/-- The lines of an else, up to the brace that closes the if. -/
def WritesElse (found : List Stmt) (before : Emission) (lines : List Command) (after : Emission) :
    Prop :=
  ∃ front, lines = front ++ [closeBrace] ∧ Writes true found before front after

/-- The block is written by the rules. -/
def WrittenBlock (body : Block) : Prop :=
  ∀ inside emission, Writes inside body.descendants emission
    ((block body).run emission).1 ((block body).run emission).2

/-- The statement is written by the rules, wherever it stands. -/
structure Written (statement : Stmt) : Prop where
  asStmt : ∀ inside emission, Writes inside statement.withDescendants emission
    ((stmt statement).run emission).1 ((stmt statement).run emission).2
  asElse : ∀ emission, WritesElse statement.withDescendants emission
    ((negative (some statement)).run emission).1 ((negative (some statement)).run emission).2
  asTask : ∀ line priority body, statement = .nested line (.schedule priority) body →
    WrittenBlock body

theorem writesFrom_none {inside : Bool} {found : List Stmt} {before after : Emission}
    {lines : List Command} :
    WritesFrom none inside found before lines after ↔ Writes inside found before lines after := by
  constructor
  · rintro ⟨first, second, middle, front, back, rfl, rfl, hfront, hback⟩
    simpa [closeRunList] using hfront.append hback
  · intro hlines
    exact ⟨[], found, before, [], lines, rfl, rfl, .nothing, hlines⟩

theorem writesFrom_nil (list : Option String) (inside : Bool) (emission : Emission) :
    WritesFrom list inside [] emission ((stmts list []).run emission).1
      ((stmts list []).run emission).2 := by
  rw [stmts]
  exact ⟨[], [], emission, [], [], rfl, (List.append_nil _).symm, .nothing, .nothing⟩

theorem writes_task {inside : Bool} {body : Block} (hbody : WrittenBlock body) (list : String)
    (priority : Expr) (emission : Emission) :
    Writes inside body.descendants emission
      (task list priority ((block body).run emission).1) ((block body).run emission).2 :=
  .enclosed _ _ (hbody true emission)

/-- A task that joins the run list that is open. -/
theorem writesFrom_task_some {line : Nat} {priority : Expr} {body : Block} {rest : List Stmt}
    (hbody : WrittenBlock body) {inside : Bool} {list : String} {emission : Emission}
    (hopen : emission.requirements.runList = true)
    (hrest : WritesFrom (some list) inside (rest.flatMap Stmt.withDescendants)
      ((block body).run emission).2
      ((stmts (some list) rest).run ((block body).run emission).2).1
      ((stmts (some list) rest).run ((block body).run emission).2).2) :
    WritesFrom (some list) inside
      ((.nested line (.schedule priority) body :: rest).flatMap Stmt.withDescendants) emission
      ((stmts (some list) (.nested line (.schedule priority) body :: rest)).run emission).1
      ((stmts (some list) (.nested line (.schedule priority) body :: rest)).run emission).2 := by
  obtain ⟨first, second, middle, front, back, hfound, hlines, hfront, hback⟩ := hrest
  have hnoted : { emission with
      requirements := { emission.requirements with runList := true } } = emission := by
    rw [← hopen]
  have htask : Writes inside (Stmt.nested line (.schedule priority) body).withDescendants emission
      (task list priority ((block body).run emission).1) ((block body).run emission).2 := by
    rw [Stmt.withDescendants_nested]
    apply Writes.noteThen
    simp only [ownNote, hnoted]
    exact writes_task hbody list priority emission
  refine ⟨_ ++ first, second, middle, _, back, ?_, ?_, htask.append hfront, ?_⟩
  · rw [List.flatMap_cons, hfound, List.append_assoc]
  · simp only [stmts, run_bind, run_pure, hlines, List.append_assoc]
  · simpa only [stmts, run_bind, run_pure] using hback

/-- A task that opens a run list. -/
theorem writesFrom_task_none {line : Nat} {priority : Expr} {body : Block} {rest : List Stmt}
    (hbody : WrittenBlock body) {inside : Bool} {emission : Emission}
    (hrest : ∀ list, WritesFrom (some list) inside (rest.flatMap Stmt.withDescendants)
      ((block body).run (newRunList.run emission).2).2
      ((stmts (some list) rest).run ((block body).run (newRunList.run emission).2).2).1
      ((stmts (some list) rest).run ((block body).run (newRunList.run emission).2).2).2) :
    WritesFrom none inside
      ((.nested line (.schedule priority) body :: rest).flatMap Stmt.withDescendants) emission
      ((stmts none (.nested line (.schedule priority) body :: rest)).run emission).1
      ((stmts none (.nested line (.schedule priority) body :: rest)).run emission).2 := by
  rw [writesFrom_none]
  simp only [stmts, run_bind, run_pure]
  generalize (newRunList.run emission).1 = list
  obtain ⟨first, second, middle, front, back, hfound, hlines, hfront, hback⟩ := hrest list
  have hinside : Writes true (body.descendants ++ first)
      (newRunList.run emission).2
      (.line ("tide::RunList " ++ list ++ ";") ::
        (task list priority ((block body).run (newRunList.run emission).2).1 ++ front ++
          [.line (list ++ ".run();")])) middle :=
    .lineThen _ (.thenLine ((writes_task hbody list priority _).append hfront.inner) _)
  have hgroup := (hinside.braces "" : Writes inside _ _ _ _).append hback
  have hnewRunList : Writes inside [.nested line (.schedule priority) body] emission []
      (newRunList.run emission).2 :=
    .noteThen (.handOut (by decide))
  convert hnewRunList.append hgroup using 1
  · rw [List.flatMap_cons, Stmt.withDescendants_nested, hfound]
    simp
  · rw [hlines]
    simp [openRunList, closeRunList, openBrace, closeBrace]

/-- Tasks leave the run list open for their neighbours, and any other statement ends it. -/
theorem writesFrom_stmts {statements : List Stmt} (hwritten : ∀ found ∈ statements, Written found)
    (inside : Bool) (list : Option String) (emission : Emission)
    (hopen : list.isSome → emission.requirements.runList = true) :
    WritesFrom list inside (statements.flatMap Stmt.withDescendants) emission
      ((stmts list statements).run emission).1 ((stmts list statements).run emission).2 := by
  induction statements generalizing list emission with
  | nil => exact writesFrom_nil list inside emission
  | cons first rest ih =>
      have hrest := ih fun found hfound => hwritten found (List.mem_cons_of_mem _ hfound)
      have hfirst := hwritten first List.mem_cons_self
      by_cases htask : isTask first
      · obtain ⟨line, priority, body, rfl⟩ := exists_of_isTask htask
        have hbody := hfirst.asTask line priority body rfl
        cases list with
        | some list =>
            apply writesFrom_task_some hbody (hopen rfl)
            exact hrest _ _ fun _ => (hbody inside emission).runList (hopen rfl)
        | none =>
            apply writesFrom_task_none hbody
            intro list
            exact hrest _ _ fun _ => (hbody inside _).runList rfl
      · rw [stmts_cons (Bool.eq_false_iff.mpr htask)]
        simp only [run_bind, run_pure]
        have hafter := writesFrom_none.mp (hrest none ((stmt first).run emission).2 nofun)
        refine ⟨[], _, emission, [], _, rfl, ?_, .nothing,
          (hfirst.asStmt inside emission).append hafter⟩
        simp

theorem writtenBlock_of_forall {body : Block} (hwritten : body.Forall Written) :
    WrittenBlock body := by
  intro inside emission
  rcases body with ⟨line, statements⟩
  rw [block]
  exact writesFrom_none.mp (writesFrom_stmts hwritten inside none emission nofun)

/-! ## Clauses -/

/-- The lines of several parts, each emitted on its own. -/
def eachOf {α : Type} (emitOne : α → Emitter (List Command)) : List α → Emitter (List Command)
  | [] => return []
  | first :: rest => do
    let lines ← emitOne first
    let after ← eachOf emitOne rest
    return lines ++ after

/-- A clause of a native switch. -/
def nativeCase (clause : SwitchCase) : Emitter (List Command) := do
  let inside ← block clause.body
  return openBrace ("case " ++ caseLabelText clause.label ++ ": ") :: inside
    ++ [.line "break;", closeBrace]

/-- A clause that is tested. -/
def testedClause (value matched : String) (patterns : List Pattern) (body : Block) :
    Emitter (List Command) := do
  let inside ← block body
  return armOpening matched (armCondition value patterns) ++ inside ++ [closeBrace]

theorem nativeCases_eq_eachOf (cases : List SwitchCase) :
    nativeCases cases = eachOf nativeCase cases := by
  induction cases with
  | nil => rfl
  | cons first rest ih =>
      rcases first with ⟨label, body⟩
      rw [nativeCases, ih, eachOf, nativeCase]
      simp only [bind_assoc, pure_bind, List.append_assoc, List.cons_append, List.nil_append]

theorem testedCases_eq_eachOf (value matched : String) (cases : List SwitchCase) :
    testedCases value matched cases = eachOf (fun clause =>
      testedClause value matched [.literal clause.label] clause.body) cases := by
  induction cases with
  | nil => rfl
  | cons first rest ih =>
      rcases first with ⟨label, body⟩
      rw [testedCases, ih, eachOf, testedClause]
      simp only [bind_assoc, pure_bind, List.append_assoc, List.singleton_append]

theorem arms_eq_eachOf (value matched : String) (clauses : List MatchArm) :
    arms value matched clauses = eachOf (fun clause =>
      testedClause value matched clause.patterns clause.body) clauses := by
  induction clauses with
  | nil => rfl
  | cons first rest ih =>
      rcases first with ⟨patterns, body⟩
      rw [arms, ih, eachOf, testedClause]
      simp only [bind_assoc, pure_bind, List.append_assoc, List.singleton_append]

theorem declarations_eq_eachOf {α : Type} (emitOne : α → Emitter (List Command))
    (found : List α) :
    declarations emitOne found = eachOf (fun declaration => do
      let lines ← emitOne declaration
      return lines ++ [.blank]) found := by
  induction found with
  | nil => rfl
  | cons first rest ih =>
      rw [declarations, ih, eachOf]
      simp only [bind_assoc, pure_bind, List.append_assoc, List.singleton_append]

section

variable {inside : Bool}

theorem writes_eachOf {α : Type} {emitOne : α → Emitter (List Command)}
    {statementsOf : α → List Stmt} {parts : List α}
    (heach : ∀ part ∈ parts, ∀ emission, Writes inside (statementsOf part) emission
      ((emitOne part).run emission).1 ((emitOne part).run emission).2) (emission : Emission) :
    Writes inside (parts.flatMap statementsOf) emission ((eachOf emitOne parts).run emission).1
      ((eachOf emitOne parts).run emission).2 := by
  induction parts generalizing emission with
  | nil => exact .nothing
  | cons first rest ih =>
      have hrest := ih fun part hpart => heach part (List.mem_cons_of_mem _ hpart)
      exact (heach first List.mem_cons_self emission).append (hrest _)

theorem writes_nativeCase {clause : SwitchCase} (hbody : WrittenBlock clause.body)
    (emission : Emission) :
    Writes inside clause.body.descendants emission
      ((nativeCase clause).run emission).1 ((nativeCase clause).run emission).2 := by
  have hlines : Writes inside _ _ _ _ := ((hbody true emission).thenLine "break;").braces
    ("case " ++ caseLabelText clause.label ++ ": ")
  simp only [nativeCase, run_bind, run_pure]
  simpa using hlines

theorem writes_nativeFallback {fallback : Option Block}
    (hbody : ∀ body ∈ fallback, WrittenBlock body) (emission : Emission) :
    Writes inside (fallback.toList.flatMap Block.descendants) emission
      ((nativeFallback fallback).run emission).1 ((nativeFallback fallback).run emission).2 := by
  cases fallback with
  | none => exact .nothing
  | some body =>
      have hlines : Writes inside _ _ _ _ :=
        ((hbody body rfl true emission).thenLine "break;").braces "default: "
      simp only [nativeFallback, run_bind, run_pure]
      simpa using hlines

theorem writes_testedClause (value matched : String) (patterns : List Pattern) {body : Block}
    (hbody : WrittenBlock body) (emission : Emission) :
    Writes inside body.descendants emission
      ((testedClause value matched patterns body).run emission).1
      ((testedClause value matched patterns body).run emission).2 :=
  .braces _ (.lineThen _ (hbody true emission))

theorem writes_testedFallback (matched : String) {fallback : Option Block}
    (hbody : ∀ body ∈ fallback, WrittenBlock body) (emission : Emission) :
    Writes inside (fallback.toList.flatMap Block.descendants) emission
      ((testedFallback matched fallback).run emission).1
      ((testedFallback matched fallback).run emission).2 := by
  cases fallback with
  | none => exact .nothing
  | some body =>
      rw [Option.toList_some, List.flatMap_singleton]
      exact .braces _ (hbody body rfl true emission)

/-! ## Actions and declarations -/

theorem writes_derivative (name : String) (body : Expr) (argument : String)
    (emission : Emission) :
    Writes inside [] emission ((derivative name body argument).run emission).1
      ((derivative name body argument).run emission).2 := by
  have hnames : Writes inside [] emission [] ((derivative name body argument).run emission).2 :=
    .append (.handOut (by decide)) (.append (.handOut (by decide)) (.handOut (by decide)))
  exact hnames.append (.lineThen _ (.braces "" (.ofTexts [_, _, _, _, _, _])))

theorem writes_action (line : Nat) (found : Action) (emission : Emission) :
    Writes inside [.simple line found] emission ((action found).run emission).1
      ((action found).run emission).2 := by
  apply Writes.noteThen
  cases found with
  | derivative name body argument => exact writes_derivative name body argument _
  | _ => exact .ofTexts _

/-- A comment or a template line may stand in front of the line that opens a function. -/
theorem functionOpening_eq (placement : Placement) (flavor : FunctionFlavor) (name : String)
    (parameters : List Parameter) (result : Option TypeName) (overlays : List Overlay) :
    ∃ (texts : List String) (opening : String),
      functionOpening placement flavor name parameters result overlays =
        texts.map .line ++ [.indent opening] := by
  have hoptional : ∀ (left : Bool) (text : String), ∃ texts : List String,
      (if left then [] else [Command.line text]) = texts.map .line := by
    intro left text
    cases left
    · exact ⟨[text], rfl⟩
    · exact ⟨[], rfl⟩
  obtain ⟨comment, hcomment⟩ := hoptional overlays.isEmpty
    ("// overlays: " ++ commentSafe (", ".intercalate (overlays.map (·.name))))
  obtain ⟨template, htemplate⟩ := hoptional (templateTypes parameters).isEmpty
    ("template <" ++ ", ".intercalate (templateTypes parameters) ++ ">")
  cases placement with
  | inBlock =>
      refine ⟨comment, ?_⟩
      rw [← hcomment]
      exact ⟨_, rfl⟩
  | free | member =>
      refine ⟨comment ++ template, ?_⟩
      simp only [List.map_append, ← hcomment, ← htemplate, List.append_assoc]
      exact ⟨_, rfl⟩

theorem writes_function (placement : Placement) {declaration : FunctionDecl}
    (hbody : WrittenBlock declaration.body) (emission : Emission) :
    Writes inside declaration.body.descendants emission
      ((function placement declaration).run emission).1
      ((function placement declaration).run emission).2 := by
  rcases declaration with ⟨line, flavor, name, parameters, result, overlays, body⟩
  obtain ⟨texts, opening, hopening⟩ := functionOpening_eq placement flavor name
    parameters.parameters result overlays
  obtain ⟨closing, hclosing⟩ : ∃ closing, functionClosing placement = .dedent closing := by
    cases placement <;> exact ⟨_, rfl⟩
  have hlines : Writes inside _ _ _ _ :=
    (Writes.ofTexts texts).append (.enclosed opening closing (hbody true emission))
  simp only [function, run_bind, run_pure, hopening, hclosing]
  simpa using hlines

theorem writes_accessLabel (current access : Access) (emission : Emission) :
    Writes true [] emission (accessLabel current access) emission := by
  rw [accessLabel]
  split
  · exact .nothing
  · exact .outer _

theorem writes_members {found : List ClassMember}
    (hbodies : ∀ body ∈ found.filterMap ClassMember.body?, WrittenBlock body) (current : Access)
    (emission : Emission) :
    Writes true ((found.filterMap ClassMember.body?).flatMap Block.descendants) emission
      ((members current found).run emission).1 ((members current found).run emission).2 := by
  induction found generalizing current emission with
  | nil => exact .nothing
  | cons first rest ih =>
      cases first with
      | field access binding =>
          have hrest := ih hbodies access emission
          have hlines := (writes_accessLabel current access emission).append
            (hrest.lineThen (fieldDeclaration binding))
          simp only [members, run_bind, run_pure]
          exact hlines
      | method access declaration =>
          have hfirst : Writes true _ _ _ _ :=
            writes_function .member (hbodies declaration.body List.mem_cons_self) emission
          have hrest := ih (fun body hbody => hbodies body (List.mem_cons_of_mem _ hbody)) access
            ((function .member declaration).run emission).2
          have hlines := ((writes_accessLabel current access emission).append hfirst).append hrest
          simp only [members, run_bind, run_pure]
          exact hlines

end

/-! ## Every statement -/

/-- The statement goes on with the line of the else it follows. -/
def joinsElse : Stmt → Bool
  | .branch _ _ _ _ | .nested _ .block _ => true
  | _ => false

theorem negative_some {statement : Stmt} (hplain : joinsElse statement = false) :
    negative (some statement) = do
      let inside ← stmt statement
      return .outer "\x7d else \x7b" :: inside ++ [closeBrace] := by
  cases statement with
  | branch => cases hplain
  | nested line opener body =>
      cases opener with
      | block => cases hplain
      | _ => rw [negative] <;> simp
  | _ => rw [negative] <;> simp

/-- A statement that starts a line of its own behind the else. -/
theorem Written.ofStmt {statement : Stmt} (hplain : joinsElse statement = false)
    (hstmt : ∀ inside emission, Writes inside statement.withDescendants emission
      ((stmt statement).run emission).1 ((stmt statement).run emission).2)
    (htask : ∀ line priority body, statement = .nested line (.schedule priority) body →
      WrittenBlock body) : Written statement where
  asStmt := hstmt
  asElse emission := by
    rw [negative_some hplain]
    exact ⟨_ :: _, rfl, .outerThen _ (hstmt true emission)⟩
  asTask := htask

theorem written_nested {line : Nat} {opener : Opener} {body : Block} (hbody : WrittenBlock body) :
    Written (.nested line opener body) := by
  cases opener with
  | block =>
      refine ⟨fun inside emission => ?_, fun emission => ?_, by simp⟩
      · rw [Stmt.withDescendants_nested, stmt]
        exact .noteThen (.braces "" (hbody true emission))
      · rw [Stmt.withDescendants_nested, negative]
        exact ⟨_ :: _, rfl, .noteThen (.outerThen _ (hbody true emission))⟩
  | pureRegion =>
      refine .ofStmt rfl (fun inside emission => ?_) (by simp)
      rw [Stmt.withDescendants_nested, stmt]
      exact .noteThen (.lineThen _ (.braces "" (hbody true emission)))
  | whileLoop condition | forLoop header =>
      refine .ofStmt rfl (fun inside emission => ?_) (by simp)
      rw [Stmt.withDescendants_nested, stmt]
      exact .noteThen (.braces _ (hbody true emission))
  | schedule priority =>
      refine .ofStmt rfl (fun inside emission => ?_) fun _ _ _ heq => ?_
      · rw [stmt_task]
        rw [← List.flatMap_singleton Stmt.withDescendants, ← writesFrom_none]
        exact writesFrom_task_none hbody fun list => writesFrom_nil (some list) inside _
      · cases heq
        exact hbody

theorem writesElse_negative {branch : Option Stmt} (hbranch : ∀ found ∈ branch, Written found)
    (emission : Emission) :
    WritesElse (branch.toList.flatMap Stmt.withDescendants) emission
      ((negative branch).run emission).1 ((negative branch).run emission).2 := by
  cases branch with
  | none =>
      rw [negative]
      exact ⟨[], rfl, .nothing⟩
  | some found =>
      rw [Option.toList_some, List.flatMap_singleton]
      exact (hbranch found rfl).asElse emission

theorem written_branch {line : Nat} {condition : Expr} {positive : Block} {branch : Option Stmt}
    (hpositive : WrittenBlock positive) (hbranch : ∀ found ∈ branch, Written found) :
    Written (.branch line condition positive branch) := by
  refine ⟨fun inside emission => ?_, fun emission => ?_, by simp⟩
  · obtain ⟨front, hlines, hfront⟩ := writesElse_negative hbranch ((block positive).run emission).2
    rw [Stmt.withDescendants_branch, stmt]
    simp only [run_bind, run_pure, hlines, ← List.append_assoc, List.cons_append]
    exact .noteThen (.braces _ ((hpositive true emission).append hfront))
  · obtain ⟨front, hlines, hfront⟩ := writesElse_negative hbranch ((block positive).run emission).2
    rw [Stmt.withDescendants_branch, negative]
    simp only [run_bind, run_pure, hlines]
    exact ⟨_, (List.append_assoc _ _ _).symm,
      .noteThen (.outerThen _ ((hpositive true emission).append hfront))⟩

/-- A switch or match that is tested clause by clause. -/
def tested (scrutinee : Expr) (clauses : String → String → Emitter (List Command))
    (fallback : Option Block) : Emitter (List Command) := do
  let value ← fresh "match"
  let matched ← fresh "matched"
  let inside ← clauses value matched
  let tail ← testedFallback matched fallback
  return openBrace "" :: .line ("const auto " ++ value ++ " = " ++ scrutinee.cppText ++ ";")
    :: .line ("bool " ++ matched ++ " = false;") :: inside ++ tail ++ [closeBrace]

theorem stmt_select (line : Nat) (scrutinee : Expr) (clauses : List MatchArm)
    (fallback : Option Block) :
    stmt (.select line scrutinee clauses fallback) =
      tested scrutinee (fun value matched => eachOf (fun clause =>
        testedClause value matched clause.patterns clause.body) clauses) fallback := by
  simp only [stmt, tested, arms_eq_eachOf]

theorem stmt_switch_of_not_native {clauses : List SwitchCase} (hnative : isNative clauses = false)
    (line : Nat) (scrutinee : Expr) (fallback : Option Block) :
    stmt (.switch line scrutinee clauses fallback) =
      tested scrutinee (fun value matched => eachOf (fun clause =>
        testedClause value matched [.literal clause.label] clause.body) clauses) fallback := by
  simp only [stmt, hnative, tested, testedCases_eq_eachOf]
  rfl

theorem stmt_switch_of_native {clauses : List SwitchCase} (hnative : isNative clauses = true)
    (line : Nat) (scrutinee : Expr) (fallback : Option Block) :
    stmt (.switch line scrutinee clauses fallback) = do
      let inside ← eachOf nativeCase clauses
      let tail ← nativeFallback fallback
      return openBrace ("switch (static_cast<long long>(" ++ scrutinee.cppText ++ ")) ")
        :: inside ++ tail ++ [closeBrace] := by
  simp only [stmt, hnative, nativeCases_eq_eachOf]
  rfl

theorem writes_tested {found : List Stmt} {scrutinee : Expr}
    {clauses : String → String → Emitter (List Command)} {fallback : Option Block}
    (hclauses : ∀ value matched emission, Writes true found emission
      ((clauses value matched).run emission).1 ((clauses value matched).run emission).2)
    (hfallback : ∀ body ∈ fallback, WrittenBlock body) (inside : Bool) (emission : Emission) :
    Writes inside (found ++ fallback.toList.flatMap Block.descendants) emission
      ((tested scrutinee clauses fallback).run emission).1
      ((tested scrutinee clauses fallback).run emission).2 := by
  simp only [tested, run_bind, run_pure]
  have hmatch : "match" ∈ temporaryLabels := by decide
  have hmatched : "matched" ∈ temporaryLabels := by decide
  refine .handOutThen hmatch (.handOutThen hmatched ?_)
  exact .braces _ (.lineThen _ (.lineThen _
    ((hclauses _ _ _).append (writes_testedFallback _ hfallback _))))

theorem written_switch {line : Nat} {scrutinee : Expr} {cases : List SwitchCase}
    {fallback : Option Block} (hcases : ∀ clause ∈ cases, WrittenBlock clause.body)
    (hfallback : ∀ body ∈ fallback, WrittenBlock body) :
    Written (.switch line scrutinee cases fallback) := by
  refine .ofStmt rfl (fun inside emission => ?_) (by simp)
  rw [Stmt.withDescendants_switch]
  apply Writes.noteThen
  cases hnative : isNative cases with
  | true =>
      rw [stmt_switch_of_native hnative]
      exact .braces _ ((writes_eachOf (fun clause hclause =>
        writes_nativeCase (hcases clause hclause)) _).append (writes_nativeFallback hfallback _))
  | false =>
      rw [stmt_switch_of_not_native hnative]
      exact writes_tested (fun value matched => writes_eachOf fun clause hclause =>
        writes_testedClause value matched _ (hcases clause hclause)) hfallback inside emission

theorem written_select {line : Nat} {scrutinee : Expr} {arms : List MatchArm}
    {fallback : Option Block} (harms : ∀ clause ∈ arms, WrittenBlock clause.body)
    (hfallback : ∀ body ∈ fallback, WrittenBlock body) :
    Written (.select line scrutinee arms fallback) := by
  refine .ofStmt rfl (fun inside emission => ?_) (by simp)
  rw [Stmt.withDescendants_select, stmt_select]
  apply Writes.noteThen
  exact writes_tested (fun value matched => writes_eachOf fun clause hclause =>
    writes_testedClause value matched _ (harms clause hclause)) hfallback inside emission

theorem written_attempt {line : Nat} {body handler : Block} {binding : Option String}
    (hbody : WrittenBlock body) (hhandler : WrittenBlock handler) :
    Written (.attempt line body binding handler) := by
  refine .ofStmt rfl (fun inside emission => ?_) (by simp)
  rw [Stmt.withDescendants_attempt]
  apply Writes.noteThen
  simp only [stmt, run_bind, run_pure]
  have hbound : ∀ emission, Writes true [] emission (binding.toList.map fun name =>
      Command.line ("std::string " ++ name ++ " = tide_error.what();")) emission := by
    intro emission
    cases binding with
    | none => exact .nothing
    | some name => exact .line _
  have hlines : Writes inside _ ((rely (.including ["stdexcept"])).run emission).2 _ _ :=
    ((hbody true _).braces "try ").append
      (((hbound _).append (hhandler true _)).braces "catch (const std::exception& tide_error) ")
  convert hlines using 1
  · rfl
  · rfl
  · simp

theorem writes_classDecl (declaration : ClassDecl)
    (hbodies : ∀ body ∈ declaration.members.filterMap ClassMember.body?, WrittenBlock body)
    (inside : Bool) (emission : Emission) :
    Writes inside declaration.descendants emission
      ((classDecl declaration).run emission).1 ((classDecl declaration).run emission).2 := by
  rcases declaration with ⟨line, kind, name, bases, classMembers⟩
  rw [classDecl]
  exact .enclosed _ _ (writes_members hbodies _ emission)

theorem writtenBlock_method {declaration : ClassDecl} {body : Block}
    (hmethods : ∀ access method, .method access method ∈ declaration.members →
      method.body.Forall Written)
    (hbody : body ∈ declaration.members.filterMap ClassMember.body?) : WrittenBlock body := by
  obtain ⟨member, hmember, hbody⟩ := List.mem_filterMap.mp hbody
  cases member with
  | field => cases hbody
  | method access method =>
      cases hbody
      exact writtenBlock_of_forall (hmethods access method hmember)

/-- Everything that emission writes for a statement is written by the rules. -/
theorem written (statement : Stmt) : Written statement := by
  induction statement with
  | simple line found =>
      refine .ofStmt rfl (fun inside emission => ?_) (by simp)
      rw [Stmt.withDescendants_simple, stmt]
      exact writes_action line found emission
  | function line declaration hbody =>
      refine .ofStmt rfl (fun inside emission => ?_) (by simp)
      rw [Stmt.withDescendants_function, stmt]
      exact .noteThen (writes_function .inBlock (writtenBlock_of_forall hbody) emission)
  | classDecl line declaration hmethods =>
      refine .ofStmt rfl (fun inside emission => ?_) (by simp)
      rw [Stmt.withDescendants_classDecl, stmt]
      have hbodies : ∀ body ∈ declaration.members.filterMap ClassMember.body?, WrittenBlock body :=
        fun _ => writtenBlock_method hmethods
      exact .noteThen (writes_classDecl declaration hbodies inside emission)
  | nested line opener body hbody => exact written_nested (writtenBlock_of_forall hbody)
  | branch line condition positive negative hpositive hnegative =>
      exact written_branch (writtenBlock_of_forall hpositive) hnegative
  | switch line scrutinee cases fallback hcases hfallback =>
      exact written_switch (fun clause hclause => writtenBlock_of_forall (hcases clause hclause))
        fun body hbody => writtenBlock_of_forall (hfallback body hbody)
  | select line scrutinee arms fallback harms hfallback =>
      exact written_select (fun clause hclause => writtenBlock_of_forall (harms clause hclause))
        fun body hbody => writtenBlock_of_forall (hfallback body hbody)
  | attempt line body binding handler hbody hhandler =>
      exact written_attempt (writtenBlock_of_forall hbody) (writtenBlock_of_forall hhandler)

theorem writtenBlock (body : Block) : WrittenBlock body :=
  writtenBlock_of_forall fun statement _ => written statement

/-! ## Programs -/

/-- The statements of a program in the order of their lines, but for the declarations at its top
level. -/
def emittedStatements (program : Program) : List Stmt :=
  (topClasses program).flatMap ClassDecl.descendants ++
    (topFunctions program).flatMap (·.body.descendants) ++
    (topStatements program).flatMap Stmt.withDescendants

theorem writes_declarations {α : Type} {emitOne : α → Emitter (List Command)}
    {statementsOf : α → List Stmt}
    (heach : ∀ declaration emission, Writes false (statementsOf declaration) emission
      ((emitOne declaration).run emission).1 ((emitOne declaration).run emission).2)
    (found : List α) (emission : Emission) :
    Writes false (found.flatMap statementsOf) emission
      ((declarations emitOne found).run emission).1
      ((declarations emitOne found).run emission).2 := by
  rw [declarations_eq_eachOf]
  apply writes_eachOf
  intro declaration _ emission
  simpa only [run_bind, run_pure, List.append_nil] using
    (heach declaration emission).append .blank

theorem writes_commands (program : Program) :
    Writes false (emittedStatements program) .start ((commands program).run .start).1
      ((commands program).run .start).2 := by
  let afterClasses := ((declarations classDecl (topClasses program)).run .start).2
  let afterFunctions := ((declarations (function .free) (topFunctions program)).run afterClasses).2
  have hclasses := writes_declarations (fun declaration =>
    writes_classDecl declaration (fun body _ => writtenBlock body) false) (topClasses program)
      .start
  have hfunctions := writes_declarations (fun declaration =>
    writes_function .free (writtenBlock declaration.body)) (topFunctions program) afterClasses
  have hstatements : Writes true _ afterFunctions _ _ := writesFrom_none.mp
    (writesFrom_stmts (fun found (_ : found ∈ topStatements program) => written found) true none
      afterFunctions nofun)
  have hmain : Writes false _ _ _ _ :=
    ((hstatements.lineThen "std::cout << std::boolalpha;").thenLine "return 0;").braces
      "int main() "
  simp only [commands, run_bind, run_pure]
  convert (hclasses.append hfunctions).append hmain using 1
  · rfl
  · simp [afterFunctions, afterClasses]

theorem mem_topClasses_iff {program : Program} {declaration : ClassDecl} :
    declaration ∈ topClasses program ↔ ∃ line, .classDecl line declaration ∈ program := by
  rw [topClasses, List.mem_filterMap]
  constructor
  · rintro ⟨top, htop, hdeclaration⟩
    cases top <;> cases hdeclaration
    exact ⟨_, htop⟩
  · rintro ⟨line, htop⟩
    exact ⟨_, htop, rfl⟩

theorem mem_topFunctions_iff {program : Program} {declaration : FunctionDecl} :
    declaration ∈ topFunctions program ↔ ∃ line, .function line declaration ∈ program := by
  rw [topFunctions, List.mem_filterMap]
  constructor
  · rintro ⟨top, htop, hdeclaration⟩
    cases top <;> cases hdeclaration
    exact ⟨_, htop⟩
  · rintro ⟨line, htop⟩
    exact ⟨_, htop, rfl⟩

/-- The statements with lines of their own are those that stand anywhere in the program, but for the
declarations at its top level. -/
theorem contains_iff_emitted {program : Program} {statement : Stmt} :
    Program.Contains program statement ↔
      statement ∈ emittedStatements program ∨ statement ∈ program ∧ isDeclaration statement := by
  rw [← Program.mem_allStatements_iff, Program.allStatements_eq_flatMap]
  simp only [emittedStatements, List.mem_append, List.mem_flatMap, mem_topClasses_iff,
    mem_topFunctions_iff]
  constructor
  · rintro ⟨top, htop, hmem⟩
    have hstatements : !isDeclaration top → top ∈ topStatements program :=
      fun hplain => List.mem_filter.mpr ⟨htop, hplain⟩
    cases top with
    | function line declaration =>
        rw [Stmt.withDescendants_function, List.mem_cons] at hmem
        rcases hmem with rfl | hmem
        · exact .inr ⟨htop, rfl⟩
        · exact .inl (.inl (.inr ⟨declaration, ⟨line, htop⟩, hmem⟩))
    | classDecl line declaration =>
        rw [Stmt.withDescendants_classDecl, List.mem_cons] at hmem
        rcases hmem with rfl | hmem
        · exact .inr ⟨htop, rfl⟩
        · exact .inl (.inl (.inl ⟨declaration, ⟨line, htop⟩, hmem⟩))
    | _ => exact .inl (.inr ⟨_, hstatements rfl, hmem⟩)
  · rintro (((⟨declaration, ⟨line, htop⟩, hmem⟩ | ⟨declaration, ⟨line, htop⟩, hmem⟩) |
      ⟨top, htop, hmem⟩) | ⟨htop, -⟩)
    · refine ⟨_, htop, ?_⟩
      rw [Stmt.withDescendants_classDecl]
      exact List.mem_cons_of_mem _ hmem
    · refine ⟨_, htop, ?_⟩
      rw [Stmt.withDescendants_function]
      exact List.mem_cons_of_mem _ hmem
    · exact ⟨top, List.mem_of_mem_filter htop, hmem⟩
    · refine ⟨statement, htop, ?_⟩
      rw [Stmt.withDescendants_eq]
      exact List.mem_cons_self

end Tide.Emit
