import Tide.Analysis.Sign
import Tide.Proofs.Scope
import Tide.Proofs.Sign.Binding

/-!
# What a walk changes

Following signs through a statement changes the innermost scope only, and there only the names that
the statement touches.  Those of a compound statement end up unknown, whichever of its blocks they
are bound in.
-/

namespace Tide

namespace Facts

/-- From `facts` to `after` nothing but the innermost scope changes.  There the names that are
`touched` get signs that are `allowed`, and the others stay as they are. -/
structure Changes (allowed : Sign → Prop) (touched : String → Prop) (facts after : Facts) :
    Prop where
  around : ∃ bindings, after = facts.withInnermost bindings
  bound : ∀ name, touched name → ∃ sign, after.shallow? name = some sign ∧ allowed sign
  kept : ∀ name, ¬ touched name → after.shallow? name = facts.shallow? name

namespace Changes

variable {allowed : Sign → Prop} {touched : String → Prop} {facts between after : Facts}

theorem refl (facts : Facts) : Changes allowed (fun _ => False) facts facts where
  around := ⟨facts.innermost, (Scopes.withInnermost_innermost facts).symm⟩
  bound _ hname := hname.elim
  kept _ _ := rfl

theorem trans {later : String → Prop} (hfirst : Changes allowed touched facts between)
    (hsecond : Changes allowed later between after) :
    Changes allowed (fun name => touched name ∨ later name) facts after where
  around := by
    obtain ⟨bindings, rfl⟩ := hfirst.around
    obtain ⟨laterBindings, rfl⟩ := hsecond.around
    exact ⟨laterBindings, Scopes.withInnermost_withInnermost ..⟩
  bound name hname := by
    by_cases hlater : later name
    · exact hsecond.bound name hlater
    · rw [hsecond.kept name hlater]
      exact hfirst.bound name (hname.resolve_right hlater)
  kept name hname := by
    rw [not_or] at hname
    rw [hsecond.kept name hname.2, hfirst.kept name hname.1]

theorem congr {other : String → Prop} (hchanges : Changes allowed touched facts after)
    (htouched : ∀ name, touched name ↔ other name) : Changes allowed other facts after where
  around := hchanges.around
  bound name hname := hchanges.bound name ((htouched name).mpr hname)
  kept name hname := hchanges.kept name (mt (htouched name).mp hname)

theorem bind {name : String} {sign : Sign} (hsign : allowed sign) :
    Changes allowed (· = name) facts (facts.bind name sign) where
  around := ⟨_, Scopes.bind_eq_withInnermost ..⟩
  bound other hother := by
    subst hother
    exact ⟨sign, by rw [Scopes.shallow?_bind, if_pos rfl], hsign⟩
  kept other hother := by
    rw [Scopes.shallow?_bind, if_neg (Ne.symm hother)]

theorem bindAll {sign : Sign} (hsign : allowed sign) (names : List String) (facts : Facts) :
    Changes allowed (· ∈ names) facts
      (names.foldl (fun outer name => outer.bind name sign) facts) := by
  induction names generalizing facts with
  | nil => exact (refl facts).congr fun name => by simp
  | cons head tail ih =>
      exact ((bind hsign).trans (ih _)).congr fun name => List.mem_cons.symm

theorem depth_eq (hchanges : Changes allowed touched facts after) :
    after.depth = facts.depth := by
  obtain ⟨bindings, rfl⟩ := hchanges.around
  exact Scopes.depth_withInnermost ..

theorem sign_eq (hchanges : Changes allowed touched facts after) {name : String}
    (hname : ¬ touched name) : after.sign name = facts.sign name := by
  rw [sign, hchanges.kept name hname]
  rfl

theorem sign_eq_unknown (hchanges : Changes (Sign.unknown = ·) touched facts after) {name : String}
    (hname : touched name) : after.sign name = .unknown := by
  obtain ⟨found, hfound, rfl⟩ := hchanges.bound name hname
  rw [sign, hfound]
  rfl

/-- A scope that was opened and changed can be taken away, which leaves the scopes around it. -/
theorem pop_eq (hchanges : Changes allowed touched facts.push after) :
    after.pop = .ok (after.innermost, facts) := by
  obtain ⟨bindings, rfl⟩ := hchanges.around
  rw [Scopes.pop_push_withInnermost, Scopes.innermost_withInnermost]

theorem leave_eq (hchanges : Changes allowed touched facts.push after) : after.leave = facts := by
  rw [Scopes.leave, hchanges.pop_eq]

/-- The names of a scope that started empty are those that were touched. -/
theorem mem_names_iff (hchanges : Changes allowed touched facts.push after) {name : String} :
    name ∈ after.innermost.names ↔ touched name := by
  rw [Bindings.mem_names_iff]
  constructor
  · intro hsome
    by_contra hname
    have hkept := hchanges.kept name hname
    rw [Scopes.shallow?, Scopes.shallow?, Scopes.innermost_push] at hkept
    rw [hkept] at hsome
    cases hsome
  · intro hname
    obtain ⟨sign, hsign, -⟩ := hchanges.bound name hname
    rw [Scopes.shallow?] at hsign
    rw [hsign]
    rfl

/-- When a block is left, the names that were touched in it are unknown. -/
theorem leaveBlock {inside : Sign → Prop} (hunknown : allowed .unknown)
    (hchanges : Changes inside touched facts.push after) :
    Changes allowed touched facts after.leaveBlock := by
  rw [Facts.leaveBlock, hchanges.leave_eq]
  exact (bindAll hunknown _ facts).congr fun name => hchanges.mem_names_iff

end Changes

end Facts

namespace SignCheck

open Facts (Changes)

variable (check : SignCheck) (table : FunctionTable) (contract : Option Contract)

/-- What the walk through the statement changes is what the statement touches. -/
def ChangesTouched (statement : Stmt) : Prop :=
  ∀ contract facts, Changes (fun _ => True) statement.Touches facts
    (check.stmt table contract facts statement).1

/-! ## Actions -/

section

variable {facts : Facts} {line : Nat} {action : Action} {name : String}

theorem binds_of_assigned {sign : Sign} (hassigned : assigned facts action = some (name, sign)) :
    (Stmt.simple line action).Binds name := by
  cases action with
  | assign target operator value =>
      obtain ⟨root, hroot, hname⟩ := Option.map_eq_some_iff.mp hassigned
      cases hname
      exact .reassign (.assign hroot)
  | step target operator =>
      obtain ⟨root, hroot, hname⟩ := Option.map_eq_some_iff.mp hassigned
      cases hname
      exact .reassign (.step hroot)
  | mutate target value =>
      obtain ⟨root, hroot, hname⟩ := Option.map_eq_some_iff.mp hassigned
      cases hname
      exact .reassign (.mutate hroot)
  | bounds target low high =>
      cases hassigned
      exact .reassign .bounds
  | scale target fromLow fromHigh toLow toHigh =>
      cases hassigned
      exact .reassign .scale
  | input target =>
      cases hassigned
      exact .input
  | readInto path target =>
      cases hassigned
      exact .readInto
  | receive channel target =>
      cases hassigned
      exact .receive
  | duration target amount unit =>
      cases hassigned
      exact .duration
  | derivative target body argument =>
      cases hassigned
      exact .derivative
  | _ => cases hassigned

theorem exists_assigned_of_binds (hbinds : (Stmt.simple line action).Binds name) :
    (∃ binding, action = .declare binding ∧ binding.name = name) ∨
      ∃ sign, assigned facts action = some (name, sign) := by
  cases hbinds with
  | declare => exact .inl ⟨_, rfl, rfl⟩
  | reassign hreassigns =>
      cases hreassigns with
      | assign hroot | step hroot | mutate hroot =>
          exact .inr ⟨_, Option.map_eq_some_iff.mpr ⟨_, hroot, rfl⟩⟩
      | bounds | scale => exact .inr ⟨_, rfl⟩
  | input | readInto | receive | duration | derivative => exact .inr ⟨_, rfl⟩

/-- An action other than a declaration gives a new sign to the name it assigns, if any. -/
theorem action_eq (hdeclare : ∀ binding, action ≠ .declare binding) :
    (check.action contract facts line action).1 =
      (assigned facts action).elim facts fun target => facts.bind target.1 target.2 := by
  rw [SignCheck.action]
  · cases assigned facts action <;> rfl
  · exact hdeclare

theorem changes_action (line : Nat) (action : Action) (facts : Facts) :
    Changes (fun _ => True) (Stmt.Binds (.simple line action)) facts
      (check.action contract facts line action).1 := by
  by_cases hdeclare : ∃ binding, action = .declare binding
  · obtain ⟨binding, rfl⟩ := hdeclare
    refine (Changes.bind trivial).congr fun name => ⟨?_, ?_⟩
    · rintro rfl
      exact .declare
    · rintro (_ | hreassigns)
      · rfl
      · cases hreassigns
  · rw [action_eq check contract fun binding heq => hdeclare ⟨binding, heq⟩]
    have hbinds : ∀ name, (Stmt.simple line action).Binds name ↔
        ∃ sign, assigned facts action = some (name, sign) := by
      intro name
      constructor
      · intro hbinds
        refine (exists_assigned_of_binds hbinds).resolve_left ?_
        rintro ⟨binding, heq, -⟩
        exact hdeclare ⟨binding, heq⟩
      · rintro ⟨sign, hassigned⟩
        exact binds_of_assigned hassigned
    cases hassigned : assigned facts action with
    | none => exact (Changes.refl facts).congr fun name => by simp [hbinds, hassigned]
    | some target =>
        refine (Changes.bind trivial).congr fun name => ?_
        rw [hbinds, hassigned]
        simp [Prod.ext_iff, eq_comm]

end

/-! ## Blocks and declarations -/

section

variable {check table} {allowed : Sign → Prop}

theorem changes_stmts {statements : List Stmt}
    (hstatements : ∀ statement ∈ statements, ChangesTouched check table statement)
    (facts : Facts) :
    Changes (fun _ => True) (fun name => ∃ statement ∈ statements, statement.Touches name) facts
      (check.stmts table contract facts statements).1 := by
  induction statements generalizing facts with
  | nil => exact (Changes.refl facts).congr fun name => by simp
  | cons first rest ih =>
      rw [List.forall_mem_cons] at hstatements
      have hfirst := hstatements.1 contract facts
      have hrest := ih hstatements.2 (check.stmt table contract facts first).1
      exact (hfirst.trans hrest).congr fun name => by simp

theorem changes_block (hunknown : allowed .unknown) {body : Block}
    (hbody : body.Forall (ChangesTouched check table)) (facts : Facts) :
    Changes allowed body.Touches facts (check.block table contract facts body).1 := by
  rcases body with ⟨line, statements⟩
  exact (changes_stmts contract hbody facts.push).leaveBlock hunknown

/-- A function body starts in a scope of its own with what its contract says. -/
theorem changes_body (contract : Contract) {statements : List Stmt}
    (hstatements : ∀ statement ∈ statements, ChangesTouched check table statement)
    (facts : Facts) :
    ∃ touched, Changes (fun _ => True) touched facts.push
      (check.stmts table (some contract) (contract.parameters.foldl
        (fun inner parameter => inner.bind parameter .nonneg) facts.push) statements).1 := by
  have hstart : Changes (fun _ => True) (· ∈ contract.parameters) facts.push
      (contract.parameters.foldl (fun inner parameter => inner.bind parameter .nonneg)
        facts.push) :=
    .bindAll trivial contract.parameters facts.push
  exact ⟨_, hstart.trans (changes_stmts (some contract) hstatements _)⟩

/-- What a function binds does not reach the outside. -/
theorem function_fst {declaration : FunctionDecl}
    (hbody : declaration.body.Forall (ChangesTouched check table)) (facts : Facts) :
    (check.function table facts declaration).1 = facts := by
  rcases declaration with ⟨line, flavor, name, parameters, result, overlays, bodyLine, statements⟩
  obtain ⟨touched, hchanges⟩ := changes_body (contractOf table name) hbody facts
  exact hchanges.leave_eq

theorem members_fst {members : List ClassMember}
    (hmethods : ∀ access method, .method access method ∈ members →
      method.body.Forall (ChangesTouched check table)) (facts : Facts) :
    (check.members table facts members).1 = facts := by
  induction members generalizing facts with
  | nil => rfl
  | cons head tail ih =>
      have htail := ih fun access method hmethod =>
        hmethods access method (List.mem_cons_of_mem _ hmethod)
      cases head with
      | field => exact htail facts
      | method access method =>
          have hmethod := function_fst (hmethods access method List.mem_cons_self) facts
          exact (htail _).trans hmethod

theorem changes_cases (hunknown : allowed .unknown) {clauses : List SwitchCase}
    (hclauses : ∀ clause ∈ clauses, clause.body.Forall (ChangesTouched check table))
    (facts : Facts) :
    Changes allowed (fun name => ∃ clause ∈ clauses, clause.body.Touches name) facts
      (check.cases table contract facts clauses).1 := by
  induction clauses generalizing facts with
  | nil => exact (Changes.refl facts).congr fun name => by simp
  | cons head tail ih =>
      rcases head with ⟨condition, body⟩
      rw [List.forall_mem_cons] at hclauses
      have hhead := changes_block contract hunknown hclauses.1 facts
      have htail := ih hclauses.2 (check.block table contract facts body).1
      exact (hhead.trans htail).congr fun name => by simp

theorem changes_arms (hunknown : allowed .unknown) {clauses : List MatchArm}
    (hclauses : ∀ clause ∈ clauses, clause.body.Forall (ChangesTouched check table))
    (facts : Facts) :
    Changes allowed (fun name => ∃ clause ∈ clauses, clause.body.Touches name) facts
      (check.arms table contract facts clauses).1 := by
  induction clauses generalizing facts with
  | nil => exact (Changes.refl facts).congr fun name => by simp
  | cons head tail ih =>
      rcases head with ⟨condition, body⟩
      rw [List.forall_mem_cons] at hclauses
      have hhead := changes_block contract hunknown hclauses.1 facts
      have htail := ih hclauses.2 (check.block table contract facts body).1
      exact (hhead.trans htail).congr fun name => by simp

theorem changes_fallback (hunknown : allowed .unknown) {fallback : Option Block}
    (hfallback : ∀ body ∈ fallback, body.Forall (ChangesTouched check table)) (facts : Facts) :
    Changes allowed (fun name => ∃ body ∈ fallback, body.Touches name) facts
      (check.fallback table contract facts fallback).1 := by
  cases fallback with
  | none => exact (Changes.refl facts).congr fun name => by simp
  | some body =>
      exact (changes_block contract hunknown (hfallback body rfl) facts).congr fun name => by simp

/-! ## Compound statements -/

theorem changes_nested (hunknown : allowed .unknown) {line : Nat} {opener : Opener} {body : Block}
    (hbody : body.Forall (ChangesTouched check table)) (facts : Facts) :
    Changes allowed (Stmt.Touches (.nested line opener body)) facts
      (check.stmt table contract facts (.nested line opener body)).1 :=
  (changes_block contract hunknown hbody facts).congr fun _ => Stmt.touches_nested_iff.symm

theorem changes_branch (hunknown : allowed .unknown) {line : Nat} {condition : Expr}
    {positive : Block} {negative : Option Stmt}
    (hpositive : positive.Forall (ChangesTouched check table))
    (hnegative : ∀ statement ∈ negative, ∀ facts, Changes allowed statement.Touches facts
      (check.stmt table contract facts statement).1) (facts : Facts) :
    Changes allowed (Stmt.Touches (.branch line condition positive negative)) facts
      (check.stmt table contract facts (.branch line condition positive negative)).1 := by
  have hfirst := changes_block contract hunknown hpositive facts
  have hsecond : Changes allowed (fun name => ∃ statement ∈ negative, statement.Touches name)
      (check.block table contract facts positive).1
      (check.negative table contract (check.block table contract facts positive).1 negative).1 := by
    cases negative with
    | none => exact (Changes.refl _).congr fun name => by simp
    | some statement => exact (hnegative statement rfl _).congr fun name => by simp
  exact (hfirst.trans hsecond).congr fun _ => Stmt.touches_branch_iff.symm

theorem changes_switch (hunknown : allowed .unknown) {line : Nat} {scrutinee : Expr}
    {cases : List SwitchCase} {fallback : Option Block}
    (hcases : ∀ clause ∈ cases, clause.body.Forall (ChangesTouched check table))
    (hfallback : ∀ body ∈ fallback, body.Forall (ChangesTouched check table)) (facts : Facts) :
    Changes allowed (Stmt.Touches (.switch line scrutinee cases fallback)) facts
      (check.stmt table contract facts (.switch line scrutinee cases fallback)).1 := by
  have hfirst := changes_cases contract hunknown hcases facts
  have hsecond := changes_fallback contract hunknown hfallback
    (check.cases table contract facts cases).1
  exact (hfirst.trans hsecond).congr fun _ => Stmt.touches_switch_iff.symm

theorem changes_select (hunknown : allowed .unknown) {line : Nat} {scrutinee : Expr}
    {arms : List MatchArm} {fallback : Option Block}
    (harms : ∀ clause ∈ arms, clause.body.Forall (ChangesTouched check table))
    (hfallback : ∀ body ∈ fallback, body.Forall (ChangesTouched check table)) (facts : Facts) :
    Changes allowed (Stmt.Touches (.select line scrutinee arms fallback)) facts
      (check.stmt table contract facts (.select line scrutinee arms fallback)).1 := by
  have hfirst := changes_arms contract hunknown harms facts
  have hsecond := changes_fallback contract hunknown hfallback
    (check.arms table contract facts arms).1
  exact (hfirst.trans hsecond).congr fun _ => Stmt.touches_select_iff.symm

theorem changes_attempt (hunknown : allowed .unknown) {line : Nat} {body handler : Block}
    {binding : Option String} (hbody : body.Forall (ChangesTouched check table))
    (hhandler : handler.Forall (ChangesTouched check table)) (facts : Facts) :
    Changes allowed (Stmt.Touches (.attempt line body binding handler)) facts
      (check.stmt table contract facts (.attempt line body binding handler)).1 := by
  have hfirst := changes_block contract hunknown hbody facts
  have hsecond := changes_block contract hunknown hhandler
    (check.block table contract facts body).1
  exact (hfirst.trans hsecond).congr fun _ => Stmt.touches_attempt_iff.symm

end

/-- The walk through a statement changes what the statement touches and nothing else. -/
theorem changes_stmt (statement : Stmt) : ChangesTouched check table statement := by
  induction statement with
  | simple line action =>
      intro contract facts
      exact (changes_action check contract line action facts).congr fun _ =>
        Stmt.touches_simple_iff.symm
  | function line declaration hbody =>
      intro contract facts
      rw [stmt, function_fst hbody]
      exact (Changes.refl facts).congr fun _ => by simp [Stmt.not_touches_function]
  | classDecl line declaration hmethods =>
      intro contract facts
      rcases declaration with ⟨classLine, kind, name, bases, members⟩
      rw [stmt, members_fst hmethods]
      exact (Changes.refl facts).congr fun _ => by simp [Stmt.not_touches_classDecl]
  | nested line opener body hbody =>
      exact fun contract facts => changes_nested contract trivial hbody facts
  | branch line condition positive negative hpositive hnegative =>
      intro contract facts
      exact changes_branch contract trivial hpositive
        (fun statement hstatement => hnegative statement hstatement contract) facts
  | switch line scrutinee cases fallback hcases hfallback =>
      exact fun contract facts => changes_switch contract trivial hcases hfallback facts
  | select line scrutinee arms fallback harms hfallback =>
      exact fun contract facts => changes_select contract trivial harms hfallback facts
  | attempt line body binding handler hbody hhandler =>
      exact fun contract facts => changes_attempt contract trivial hbody hhandler facts

/-- The declaration of a function leaves every fact as it is. -/
theorem function_unchanged (declaration : FunctionDecl) (facts : Facts) :
    (check.function table facts declaration).1 = facts := by
  apply function_fst
  exact fun statement _ => changes_stmt check table statement

/-- The walk through statements changes what they touch and nothing else. -/
theorem changes_run (statements : List Stmt) (facts : Facts) :
    Changes (fun _ => True) (fun name => ∃ statement ∈ statements, statement.Touches name) facts
      (check.stmts table contract facts statements).1 :=
  changes_stmts contract (fun statement _ => changes_stmt check table statement) facts

/-- Behind a compound statement, what it touches is unknown. -/
theorem changes_chained {statement : Stmt} (hchained : statement.IsChained) (facts : Facts) :
    Changes (Sign.unknown = ·) statement.Touches facts
      (check.stmt table contract facts statement).1 := by
  have hforall : ∀ body : Block, body.Forall (ChangesTouched check table) :=
    fun _ statement _ => changes_stmt check table statement
  induction hchained generalizing facts with
  | nested => exact changes_nested contract rfl (hforall _) facts
  | branch _ ih => exact changes_branch contract rfl (hforall _) ih facts
  | switch =>
      exact changes_switch contract rfl (fun _ _ => hforall _) (fun _ _ => hforall _) facts
  | select =>
      exact changes_select contract rfl (fun _ _ => hforall _) (fun _ _ => hforall _) facts
  | attempt => exact changes_attempt contract rfl (hforall _) (hforall _) facts

end SignCheck

end Tide
