import Tide.Proofs.Tree.Pass

/-!
# Rewritings of trees

A rewriting says what becomes of an expression and of what is printed, and which statements of a
block are kept.  The relations here say form by form what becomes of a whole tree then: everything
that is neither an expression nor a list of statements stays as it is and where it is.  A pass that
agrees with the rewriting at every single place gives the only tree that is a rewriting of another.
-/

namespace Tide

structure Rewriting where
  /-- What becomes of an expression that is not part of another. -/
  expression : Expr → Expr → Prop
  /-- What becomes of the expression of a print statement. -/
  printed : Expr → Expr → Prop
  /-- Which statements of a block are kept, before any of them is rewritten. -/
  keeps : List Stmt → List Stmt → Prop

namespace Rewriting

/-! ## Forms of statements -/

section

variable (rules : Rewriting)

inductive BindingTo : Local → Local → Prop
  | intro {name constant type value value'} (hvalue : Option.Rel rules.expression value value') :
      BindingTo ⟨name, constant, type, value⟩ ⟨name, constant, type, value'⟩

inductive ActionTo : Action → Action → Prop
  | declare {binding binding'} (hbinding : rules.BindingTo binding binding') :
      ActionTo (.declare binding) (.declare binding')
  | directive {overlays} : ActionTo (.directive overlays) (.directive overlays)
  | assign {target target' operator value value'} (htarget : rules.expression target target')
      (hvalue : rules.expression value value') :
      ActionTo (.assign target operator value) (.assign target' operator value')
  | step {target target' operator} (htarget : rules.expression target target') :
      ActionTo (.step target operator) (.step target' operator)
  | mutate {target target' value value'} (htarget : rules.expression target target')
      (hvalue : rules.expression value value') :
      ActionTo (.mutate target value) (.mutate target' value')
  | leave {value value'} (hvalue : Option.Rel rules.expression value value') :
      ActionTo (.leave value) (.leave value')
  | breakLoop : ActionTo .breakLoop .breakLoop
  | continueLoop : ActionTo .continueLoop .continueLoop
  | raise {value value'} (hvalue : rules.expression value value') :
      ActionTo (.raise value) (.raise value')
  | evaluate {value value'} (hvalue : rules.expression value value') :
      ActionTo (.evaluate value) (.evaluate value')
  | print {value value'} (hvalue : Option.Rel rules.printed value value') :
      ActionTo (.print value) (.print value')
  | input {name} : ActionTo (.input name) (.input name)
  | readInto {path path' name} (hpath : rules.expression path path') :
      ActionTo (.readInto path name) (.readInto path' name)
  | writeOut {path path' value value' mode} (hpath : rules.expression path path')
      (hvalue : rules.expression value value') :
      ActionTo (.writeOut path value mode) (.writeOut path' value' mode)
  | channel {name element} : ActionTo (.channel name element) (.channel name element)
  | send {channel value value'} (hvalue : rules.expression value value') :
      ActionTo (.send channel value) (.send channel value')
  | receive {channel name} : ActionTo (.receive channel name) (.receive channel name)
  | sync : ActionTo .sync .sync
  | scale {name fromLow fromLow' fromHigh fromHigh' toLow toLow' toHigh toHigh'}
      (hfromLow : rules.expression fromLow fromLow')
      (hfromHigh : rules.expression fromHigh fromHigh') (htoLow : rules.expression toLow toLow')
      (htoHigh : rules.expression toHigh toHigh') :
      ActionTo (.scale name fromLow fromHigh toLow toHigh)
        (.scale name fromLow' fromHigh' toLow' toHigh')
  | bounds {name low low' high high'} (hlow : rules.expression low low')
      (hhigh : rules.expression high high') :
      ActionTo (.bounds name low high) (.bounds name low' high')
  | checkpoint {label} : ActionTo (.checkpoint label) (.checkpoint label)
  | duration {name amount amount' unit} (hamount : rules.expression amount amount') :
      ActionTo (.duration name amount unit) (.duration name amount' unit)
  | derivative {name body body' argument} (hbody : rules.expression body body') :
      ActionTo (.derivative name body argument) (.derivative name body' argument)
  | splice {text} : ActionTo (.splice text) (.splice text)
  | unknown {kind text} : ActionTo (.unknown kind text) (.unknown kind text)

inductive OpenerTo : Opener → Opener → Prop
  | block : OpenerTo .block .block
  | pureRegion : OpenerTo .pureRegion .pureRegion
  | whileLoop {condition condition'} (hcondition : rules.expression condition condition') :
      OpenerTo (.whileLoop condition) (.whileLoop condition')
  | forLoop {header} : OpenerTo (.forLoop header) (.forLoop header)
  | schedule {priority priority'} (hpriority : rules.expression priority priority') :
      OpenerTo (.schedule priority) (.schedule priority')

mutual

inductive StmtTo : Stmt → Stmt → Prop
  | simple {line action action'} (haction : rules.ActionTo action action') :
      StmtTo (.simple line action) (.simple line action')
  | function {line declaration declaration'} (hfunction : FunctionTo declaration declaration') :
      StmtTo (.function line declaration) (.function line declaration')
  | classDecl {line classLine kind name bases members members'}
      (hmembers : List.Forall₂ MemberTo members members') :
      StmtTo (.classDecl line ⟨classLine, kind, name, bases, members⟩)
        (.classDecl line ⟨classLine, kind, name, bases, members'⟩)
  | nested {line opener opener' body body'} (hopener : rules.OpenerTo opener opener')
      (hbody : BlockTo body body') :
      StmtTo (.nested line opener body) (.nested line opener' body')
  | branch {line condition condition' positive positive' negative negative'}
      (hcondition : rules.expression condition condition') (hpositive : BlockTo positive positive')
      (hnegative : Option.Rel StmtTo negative negative') :
      StmtTo (.branch line condition positive negative)
        (.branch line condition' positive' negative')
  | switch {line scrutinee scrutinee' cases cases' fallback fallback'}
      (hscrutinee : rules.expression scrutinee scrutinee')
      (hcases : List.Forall₂ CaseTo cases cases')
      (hfallback : Option.Rel BlockTo fallback fallback') :
      StmtTo (.switch line scrutinee cases fallback) (.switch line scrutinee' cases' fallback')
  | select {line scrutinee scrutinee' arms arms' fallback fallback'}
      (hscrutinee : rules.expression scrutinee scrutinee')
      (harms : List.Forall₂ ArmTo arms arms')
      (hfallback : Option.Rel BlockTo fallback fallback') :
      StmtTo (.select line scrutinee arms fallback) (.select line scrutinee' arms' fallback')
  | attempt {line body body' binding handler handler'} (hbody : BlockTo body body')
      (hhandler : BlockTo handler handler') :
      StmtTo (.attempt line body binding handler) (.attempt line body' binding handler')

/-- The statements that are kept are rewritten one by one. -/
inductive BlockTo : Block → Block → Prop
  | intro {line statements kept statements'} (hkept : rules.keeps statements kept)
      (hstatements : List.Forall₂ StmtTo kept statements') :
      BlockTo ⟨line, statements⟩ ⟨line, statements'⟩

inductive FunctionTo : FunctionDecl → FunctionDecl → Prop
  | intro {line flavor name parameters result overlays body body'} (hbody : BlockTo body body') :
      FunctionTo ⟨line, flavor, name, parameters, result, overlays, body⟩
        ⟨line, flavor, name, parameters, result, overlays, body'⟩

inductive MemberTo : ClassMember → ClassMember → Prop
  | field {access binding binding'} (hbinding : rules.BindingTo binding binding') :
      MemberTo (.field access binding) (.field access binding')
  | method {access declaration declaration'} (hfunction : FunctionTo declaration declaration') :
      MemberTo (.method access declaration) (.method access declaration')

inductive CaseTo : SwitchCase → SwitchCase → Prop
  | intro {label body body'} (hbody : BlockTo body body') : CaseTo ⟨label, body⟩ ⟨label, body'⟩

inductive ArmTo : MatchArm → MatchArm → Prop
  | intro {patterns body body'} (hbody : BlockTo body body') :
      ArmTo ⟨patterns, body⟩ ⟨patterns, body'⟩

end

/-- The statements at top level are rewritten one by one, and all of them are kept. -/
def ProgramTo (program program' : Program) : Prop := List.Forall₂ rules.StmtTo program program'

end

/-! ## Lists and options that are mapped -/

section

variable {α β : Type} {relation : α → β → Prop} {function : α → β}

theorem forall₂_iff_eq_map {items : List α} {items' : List β}
    (hitems : ∀ item ∈ items, ∀ item', relation item item' ↔ item' = function item) :
    List.Forall₂ relation items items' ↔ items' = items.map function := by
  induction items generalizing items' with
  | nil => exact List.forall₂_nil_left_iff
  | cons head tail ih =>
      have htail {rest : List β} : List.Forall₂ relation tail rest ↔ rest = tail.map function :=
        ih fun item hitem => hitems item (List.mem_cons_of_mem _ hitem)
      have hhead := hitems head List.mem_cons_self
      simp only [List.forall₂_cons_left_iff, hhead, htail, List.map_cons]
      constructor
      · rintro ⟨_, _, rfl, rfl, rfl⟩
        rfl
      · rintro rfl
        exact ⟨_, _, rfl, rfl, rfl⟩

theorem rel_iff_eq_map {item : Option α} {item' : Option β}
    (hitem : ∀ value ∈ item, ∀ value', relation value value' ↔ value' = function value) :
    Option.Rel relation item item' ↔ item' = item.map function := by
  cases item with
  | none =>
      constructor
      · rintro ⟨⟩
        rfl
      · rintro rfl
        exact .none
  | some value =>
      constructor
      · rintro ⟨hvalue⟩
        exact congrArg some ((hitem value rfl _).mp hvalue)
      · rintro rfl
        exact .some ((hitem value rfl _).mpr rfl)

end

end Rewriting

/-! ## Passes -/

/-- The pass does at every place what the rewriting says, and what it keeps of a block depends on
nothing that it replaces. -/
structure Pass.Realizes (pass : Pass) (rules : Rewriting) : Prop where
  expression : ∀ before after, rules.expression before after ↔ after = pass.expression before
  printed : ∀ before after, rules.printed before after ↔ after = pass.printed before
  keeps : ∀ statements kept, rules.keeps statements kept ↔ kept = pass.statements statements
  subset : ∀ statements, pass.statements statements ⊆ statements
  choosesAlike : ChoosesAlike pass pass

namespace Pass.Realizes

variable {pass : Pass} {rules : Rewriting} (hpass : pass.Realizes rules)

include hpass

theorem bindingTo_iff {binding binding' : Local} :
    rules.BindingTo binding binding' ↔ binding' = pass.binding binding := by
  have hvalue (value value' : Option Expr) := @Rewriting.rel_iff_eq_map _ _ _ _ value value'
    fun value _ => hpass.expression value
  constructor
  · rintro ⟨hrel⟩
    rw [(hvalue _ _).mp hrel]
    rfl
  · rintro rfl
    exact .intro ((hvalue _ _).mpr rfl)

theorem actionTo_iff {action action' : Action} :
    rules.ActionTo action action' ↔ action' = pass.action action := by
  have hvalue (value value' : Option Expr) := @Rewriting.rel_iff_eq_map _ _ _ _ value value'
    fun value _ => hpass.expression value
  have hprinted (value value' : Option Expr) := @Rewriting.rel_iff_eq_map _ _ _ _ value value'
    fun value _ => hpass.printed value
  constructor
  · intro haction
    cases haction <;> simp_all [Pass.action, hpass.expression, hpass.bindingTo_iff]
  · rintro rfl
    cases action <;> constructor <;> simp [hpass.expression, hpass.bindingTo_iff, hvalue, hprinted]

theorem openerTo_iff {opener opener' : Opener} :
    rules.OpenerTo opener opener' ↔ opener' = pass.opener opener := by
  constructor
  · intro hopener
    cases hopener <;> simp_all [Pass.opener, hpass.expression]
  · rintro rfl
    cases opener <;> constructor <;> simp [hpass.expression]

/-- By the rewriting, a statement becomes what the pass makes of it. -/
def Determines (pass : Pass) (rules : Rewriting) (statement : Stmt) : Prop :=
  ∀ statement', rules.StmtTo statement statement' ↔ statement' = pass.stmt statement

theorem blockTo_iff {block : Block}
    (hblock : block.Forall (Determines pass rules)) (block' : Block) :
    rules.BlockTo block block' ↔ block' = pass.block block := by
  rcases block with ⟨line, statements⟩
  have hkept {rewritten : List Stmt} :
      List.Forall₂ rules.StmtTo (pass.statements statements) rewritten ↔
        rewritten = (pass.statements statements).map pass.stmt :=
    Rewriting.forall₂_iff_eq_map fun statement hstatement =>
      hblock statement (hpass.subset statements hstatement)
  rw [block_eq, ← hpass.choosesAlike]
  constructor
  · rintro ⟨hkeeps, hstatements⟩
    cases (hpass.keeps _ _).mp hkeeps
    rw [hkept.mp hstatements]
  · rintro rfl
    exact .intro ((hpass.keeps _ _).mpr rfl) (hkept.mpr rfl)

theorem functionTo_iff {declaration : FunctionDecl}
    (hbody : declaration.body.Forall (Determines pass rules)) (declaration' : FunctionDecl) :
    rules.FunctionTo declaration declaration' ↔ declaration' = pass.function declaration := by
  rcases declaration with ⟨line, flavor, name, parameters, result, overlays, body⟩
  constructor
  · rintro ⟨hblock⟩
    rw [(hpass.blockTo_iff hbody _).mp hblock]
    rfl
  · rintro rfl
    exact .intro ((hpass.blockTo_iff hbody _).mpr rfl)

theorem memberTo_iff {classMember : ClassMember}
    (hmethod : ∀ access method, classMember = .method access method →
      method.body.Forall (Determines pass rules)) (classMember' : ClassMember) :
    rules.MemberTo classMember classMember' ↔ classMember' = pass.member classMember := by
  cases classMember with
  | field access binding =>
      constructor
      · intro hmember
        cases hmember with
        | field hbinding =>
            rw [hpass.bindingTo_iff.mp hbinding]
            rfl
      · rintro rfl
        exact .field (hpass.bindingTo_iff.mpr rfl)
  | method access method =>
      have hfunction := hpass.functionTo_iff (hmethod access method rfl)
      constructor
      · intro hmember
        cases hmember with
        | method hdeclaration =>
            rw [(hfunction _).mp hdeclaration]
            rfl
      · rintro rfl
        exact .method ((hfunction _).mpr rfl)

theorem caseTo_iff {clause : SwitchCase}
    (hbody : clause.body.Forall (Determines pass rules)) (clause' : SwitchCase) :
    rules.CaseTo clause clause' ↔ clause' = { clause with body := pass.block clause.body } := by
  rcases clause with ⟨label, body⟩
  constructor
  · rintro ⟨hblock⟩
    rw [(hpass.blockTo_iff hbody _).mp hblock]
  · rintro rfl
    exact .intro ((hpass.blockTo_iff hbody _).mpr rfl)

theorem armTo_iff {clause : MatchArm}
    (hbody : clause.body.Forall (Determines pass rules)) (clause' : MatchArm) :
    rules.ArmTo clause clause' ↔ clause' = { clause with body := pass.block clause.body } := by
  rcases clause with ⟨patterns, body⟩
  constructor
  · rintro ⟨hblock⟩
    rw [(hpass.blockTo_iff hbody _).mp hblock]
  · rintro rfl
    exact .intro ((hpass.blockTo_iff hbody _).mpr rfl)

theorem fallbackTo_iff {fallback : Option Block}
    (hbodies : ∀ body ∈ fallback, body.Forall (Determines pass rules)) {fallback' : Option Block} :
    Option.Rel rules.BlockTo fallback fallback' ↔ fallback' = pass.fallback fallback := by
  rw [fallback_eq_map]
  exact Rewriting.rel_iff_eq_map fun body hbody => hpass.blockTo_iff (hbodies body hbody)

/-- A statement has one rewriting, which is what the pass makes of it. -/
theorem stmtTo_iff (statement : Stmt) :
    Determines pass rules statement := by
  induction statement with
  | simple line action =>
      intro statement'
      constructor
      · intro hstatement
        cases hstatement with
        | simple haction =>
            rw [hpass.actionTo_iff.mp haction]
            rfl
      · rintro rfl
        exact .simple (hpass.actionTo_iff.mpr rfl)
  | function line declaration hbody =>
      intro statement'
      have hfunction := hpass.functionTo_iff hbody
      constructor
      · intro hstatement
        cases hstatement with
        | function hdeclaration =>
            rw [(hfunction _).mp hdeclaration]
            rfl
      · rintro rfl
        exact .function ((hfunction _).mpr rfl)
  | classDecl line declaration hmethods =>
      rcases declaration with ⟨classLine, kind, name, bases, members⟩
      intro statement'
      have hmembers {members'} :
          List.Forall₂ rules.MemberTo members members' ↔ members' = pass.members members := by
        rw [members_eq_map]
        refine Rewriting.forall₂_iff_eq_map fun classMember hmember => ?_
        refine hpass.memberTo_iff fun access method heq => hmethods access method ?_
        exact heq ▸ hmember
      constructor
      · intro hstatement
        cases hstatement with
        | classDecl hrel =>
            rw [hmembers.mp hrel]
            rfl
      · rintro rfl
        exact .classDecl (hmembers.mpr rfl)
  | nested line opener body hbody =>
      intro statement'
      constructor
      · intro hstatement
        cases hstatement with
        | nested hopener hblock =>
            rw [hpass.openerTo_iff.mp hopener, (hpass.blockTo_iff hbody _).mp hblock]
            rfl
      · rintro rfl
        exact .nested (hpass.openerTo_iff.mpr rfl) ((hpass.blockTo_iff hbody _).mpr rfl)
  | branch line condition positive negative hpositive hnegative =>
      intro statement'
      have helse {negative'} :
          Option.Rel rules.StmtTo negative negative' ↔ negative' = pass.negative negative := by
        rw [negative_eq_map]
        exact Rewriting.rel_iff_eq_map hnegative
      constructor
      · intro hstatement
        cases hstatement with
        | branch hcondition hblock hrel =>
            rw [(hpass.expression _ _).mp hcondition, (hpass.blockTo_iff hpositive _).mp hblock,
              helse.mp hrel]
            rfl
      · rintro rfl
        exact .branch ((hpass.expression _ _).mpr rfl) ((hpass.blockTo_iff hpositive _).mpr rfl)
          (helse.mpr rfl)
  | switch line scrutinee cases fallback hcases hfallback =>
      intro statement'
      have hclauses {cases'} :
          List.Forall₂ rules.CaseTo cases cases' ↔ cases' = pass.cases cases := by
        rw [cases_eq_map]
        exact Rewriting.forall₂_iff_eq_map fun clause hclause =>
          hpass.caseTo_iff (hcases clause hclause)
      constructor
      · intro hstatement
        cases hstatement with
        | switch hscrutinee hrel hdefault =>
            rw [(hpass.expression _ _).mp hscrutinee, hclauses.mp hrel,
              (hpass.fallbackTo_iff hfallback).mp hdefault]
            rfl
      · rintro rfl
        exact .switch ((hpass.expression _ _).mpr rfl) (hclauses.mpr rfl)
          ((hpass.fallbackTo_iff hfallback).mpr rfl)
  | select line scrutinee arms fallback harms hfallback =>
      intro statement'
      have hclauses {arms'} : List.Forall₂ rules.ArmTo arms arms' ↔ arms' = pass.arms arms := by
        rw [arms_eq_map]
        exact Rewriting.forall₂_iff_eq_map fun clause hclause =>
          hpass.armTo_iff (harms clause hclause)
      constructor
      · intro hstatement
        cases hstatement with
        | select hscrutinee hrel hdefault =>
            rw [(hpass.expression _ _).mp hscrutinee, hclauses.mp hrel,
              (hpass.fallbackTo_iff hfallback).mp hdefault]
            rfl
      · rintro rfl
        exact .select ((hpass.expression _ _).mpr rfl) (hclauses.mpr rfl)
          ((hpass.fallbackTo_iff hfallback).mpr rfl)
  | attempt line body binding handler hbody hhandler =>
      intro statement'
      constructor
      · intro hstatement
        cases hstatement with
        | attempt hblock hrescue =>
            rw [(hpass.blockTo_iff hbody _).mp hblock, (hpass.blockTo_iff hhandler _).mp hrescue]
            rfl
      · rintro rfl
        exact .attempt ((hpass.blockTo_iff hbody _).mpr rfl)
          ((hpass.blockTo_iff hhandler _).mpr rfl)

/-- A program has one rewriting, which is what the pass makes of it. -/
theorem programTo_iff {program program' : Program} :
    rules.ProgramTo program program' ↔ program' = pass.program program := by
  rw [Pass.program, stmts_eq_map]
  exact Rewriting.forall₂_iff_eq_map fun statement _ => hpass.stmtTo_iff statement

end Pass.Realizes

end Tide
