import Tide.Proofs.Purity.Contract

/-!
# The names that statements bind

A compound statement gives no name a value of its own, but what stands in its blocks may.  How deep
it stands there makes no difference, as long as no function or class is declared in between.
-/

namespace Tide

namespace Stmt

/-- The statement gives the name a value: it declares or assigns it, or stores there what it reads,
receives or computes. -/
inductive Binds : Stmt → String → Prop
  | declare {line binding} : Binds (.simple line (.declare binding)) binding.name
  | reassign {statement name} (hreassigns : Reassigns statement name) : Binds statement name
  | input {line name} : Binds (.simple line (.input name)) name
  | readInto {line path name} : Binds (.simple line (.readInto path name)) name
  | receive {line channel name} : Binds (.simple line (.receive channel name)) name
  | duration {line name amount unit} : Binds (.simple line (.duration name amount unit)) name
  | derivative {line name body argument} :
      Binds (.simple line (.derivative name body argument)) name

/-- The statement binds the name, itself or by a statement in its blocks. -/
inductive Touches : Stmt → String → Prop
  | self {statement name} (hbinds : Binds statement name) : Touches statement name
  | inner {parent child name} (hholds : Holds parent child) (htouches : Touches child name) :
      Touches parent name

/-- The block is one of those that the statement chooses from, repeats or just runs.  The blocks of
an `else` are blocks of its `if`. -/
inductive HasBlock : Stmt → Block → Prop
  | nested {line opener body} : HasBlock (.nested line opener body) body
  | positive {line condition positive negative} :
      HasBlock (.branch line condition positive negative) positive
  | negative {line condition positive negative block} (hblock : HasBlock negative block) :
      HasBlock (.branch line condition positive (some negative)) block
  | case {line scrutinee cases fallback clause} (hclause : clause ∈ cases) :
      HasBlock (.switch line scrutinee cases fallback) clause.body
  | switchFallback {line scrutinee cases body} :
      HasBlock (.switch line scrutinee cases (some body)) body
  | arm {line scrutinee arms fallback clause} (hclause : clause ∈ arms) :
      HasBlock (.select line scrutinee arms fallback) clause.body
  | selectFallback {line scrutinee arms body} :
      HasBlock (.select line scrutinee arms (some body)) body
  | body {line body binding handler} : HasBlock (.attempt line body binding handler) body
  | handler {line body binding handler} : HasBlock (.attempt line body binding handler) handler

/-- The statement is neither an action nor a declaration. -/
def isCompound : Stmt → Bool
  | .nested _ _ _ | .branch _ _ _ _ | .switch _ _ _ _ | .select _ _ _ _ | .attempt _ _ _ _ => true
  | .simple _ _ | .function _ _ | .classDecl _ _ => false

/-- The statement is compound, and so is every branch of a chain of `else if` that it starts. -/
inductive IsChained : Stmt → Prop
  | nested {line opener body} : IsChained (.nested line opener body)
  | branch {line condition positive negative}
      (hnegative : ∀ statement, negative = some statement → IsChained statement) :
      IsChained (.branch line condition positive negative)
  | switch {line scrutinee cases fallback} : IsChained (.switch line scrutinee cases fallback)
  | select {line scrutinee arms fallback} : IsChained (.select line scrutinee arms fallback)
  | attempt {line body binding handler} : IsChained (.attempt line body binding handler)

/-- Some statement in a block of the statement binds the name, at any depth but in no function or
class declared there. -/
def BindsWithin (statement : Stmt) (name : String) : Prop :=
  ∃ block, statement.HasBlock block ∧ ∃ inner, block.Contains inner ∧ inner.Binds name

end Stmt

/-- A statement that stands directly in the block touches the name. -/
def Block.Touches (block : Block) (name : String) : Prop :=
  ∃ statement ∈ block.statements, statement.Touches name

namespace Stmt

variable {line : Nat} {name : String}

/-! ## What each kind of statement touches -/

theorem touches_simple_iff {action : Action} :
    Touches (.simple line action) name ↔ Binds (.simple line action) name := by
  constructor
  · intro htouches
    cases htouches with
    | self hbinds => exact hbinds
    | inner hholds => cases hholds
  · exact .self

theorem not_touches_function {declaration : FunctionDecl} :
    ¬ Touches (.function line declaration) name := by
  intro htouches
  cases htouches with
  | self hbinds =>
      cases hbinds with
      | reassign hreassigns => cases hreassigns
  | inner hholds => cases hholds

theorem not_touches_classDecl {declaration : ClassDecl} :
    ¬ Touches (.classDecl line declaration) name := by
  intro htouches
  cases htouches with
  | self hbinds =>
      cases hbinds with
      | reassign hreassigns => cases hreassigns
  | inner hholds => cases hholds

/-- A compound statement touches what is touched in it. -/
theorem exists_holds_of_touches {statement : Stmt} (hcompound : statement.isCompound = true)
    (htouches : statement.Touches name) : ∃ child, statement.Holds child ∧ child.Touches name := by
  cases htouches with
  | self hbinds =>
      cases hbinds with
      | reassign hreassigns => cases hreassigns <;> cases hcompound
      | _ => cases hcompound
  | inner hholds htouches => exact ⟨_, hholds, htouches⟩

theorem touches_nested_iff {opener : Opener} {body : Block} :
    Touches (.nested line opener body) name ↔ body.Touches name := by
  constructor
  · intro htouches
    obtain ⟨child, hholds, hchild⟩ := exists_holds_of_touches rfl htouches
    cases hholds with
    | nested hmem => exact ⟨child, hmem, hchild⟩
  · rintro ⟨child, hmem, hchild⟩
    exact .inner (.nested hmem) hchild

theorem touches_branch_iff {condition : Expr} {positive : Block} {negative : Option Stmt} :
    Touches (.branch line condition positive negative) name ↔
      positive.Touches name ∨ ∃ statement ∈ negative, statement.Touches name := by
  constructor
  · intro htouches
    obtain ⟨child, hholds, hchild⟩ := exists_holds_of_touches rfl htouches
    cases hholds with
    | positive hmem => exact .inl ⟨child, hmem, hchild⟩
    | negative => exact .inr ⟨child, rfl, hchild⟩
  · rintro (⟨child, hmem, hchild⟩ | ⟨child, rfl, hchild⟩)
    · exact .inner (.positive hmem) hchild
    · exact .inner .negative hchild

theorem touches_switch_iff {scrutinee : Expr} {cases : List SwitchCase} {fallback : Option Block} :
    Touches (.switch line scrutinee cases fallback) name ↔
      (∃ clause ∈ cases, clause.body.Touches name) ∨ ∃ body ∈ fallback, body.Touches name := by
  constructor
  · intro htouches
    obtain ⟨child, hholds, hchild⟩ := exists_holds_of_touches rfl htouches
    cases hholds with
    | case hclause hmem => exact .inl ⟨_, hclause, child, hmem, hchild⟩
    | switchFallback hmem => exact .inr ⟨_, rfl, child, hmem, hchild⟩
  · rintro (⟨clause, hclause, child, hmem, hchild⟩ | ⟨body, rfl, child, hmem, hchild⟩)
    · exact .inner (.case hclause hmem) hchild
    · exact .inner (.switchFallback hmem) hchild

theorem touches_select_iff {scrutinee : Expr} {arms : List MatchArm} {fallback : Option Block} :
    Touches (.select line scrutinee arms fallback) name ↔
      (∃ clause ∈ arms, clause.body.Touches name) ∨ ∃ body ∈ fallback, body.Touches name := by
  constructor
  · intro htouches
    obtain ⟨child, hholds, hchild⟩ := exists_holds_of_touches rfl htouches
    cases hholds with
    | arm hclause hmem => exact .inl ⟨_, hclause, child, hmem, hchild⟩
    | selectFallback hmem => exact .inr ⟨_, rfl, child, hmem, hchild⟩
  · rintro (⟨clause, hclause, child, hmem, hchild⟩ | ⟨body, rfl, child, hmem, hchild⟩)
    · exact .inner (.arm hclause hmem) hchild
    · exact .inner (.selectFallback hmem) hchild

theorem touches_attempt_iff {body handler : Block} {binding : Option String} :
    Touches (.attempt line body binding handler) name ↔
      body.Touches name ∨ handler.Touches name := by
  constructor
  · intro htouches
    obtain ⟨child, hholds, hchild⟩ := exists_holds_of_touches rfl htouches
    cases hholds with
    | body hmem => exact .inl ⟨child, hmem, hchild⟩
    | handler hmem => exact .inr ⟨child, hmem, hchild⟩
  · rintro (⟨child, hmem, hchild⟩ | ⟨child, hmem, hchild⟩)
    · exact .inner (.body hmem) hchild
    · exact .inner (.handler hmem) hchild

end Stmt

/-! ## Blocks -/

theorem Block.Contains.exists_binds {block : Block} {statement : Stmt} {name : String}
    (hcontains : block.Contains statement) (htouches : statement.Touches name) :
    ∃ inner, block.Contains inner ∧ inner.Binds name := by
  induction htouches with
  | self hbinds => exact ⟨_, hcontains, hbinds⟩
  | inner hholds htouches ih => exact ih (.inner hcontains hholds)

theorem Block.Contains.touches {block : Block} {statement : Stmt} {name : String}
    (hcontains : block.Contains statement) (htouches : statement.Touches name) :
    block.Touches name := by
  induction hcontains with
  | direct hstatement => exact ⟨_, hstatement, htouches⟩
  | inner hparent hholds ih => exact ih (.inner hholds htouches)

/-- A block touches the names that the statements in it bind, at any depth. -/
theorem Block.touches_iff {block : Block} {name : String} :
    block.Touches name ↔ ∃ statement, block.Contains statement ∧ statement.Binds name := by
  constructor
  · rintro ⟨statement, hstatement, htouches⟩
    exact Block.Contains.exists_binds (.direct hstatement) htouches
  · rintro ⟨statement, hcontains, hbinds⟩
    exact hcontains.touches (.self hbinds)

namespace Stmt

variable {statement : Stmt} {block : Block} {name : String}

theorem HasBlock.touches (hblock : statement.HasBlock block) (htouches : block.Touches name) :
    statement.Touches name := by
  induction hblock with
  | nested => exact touches_nested_iff.mpr htouches
  | positive => exact touches_branch_iff.mpr (.inl htouches)
  | negative _ ih => exact .inner .negative (ih htouches)
  | case hclause => exact touches_switch_iff.mpr (.inl ⟨_, hclause, htouches⟩)
  | switchFallback => exact touches_switch_iff.mpr (.inr ⟨_, rfl, htouches⟩)
  | arm hclause => exact touches_select_iff.mpr (.inl ⟨_, hclause, htouches⟩)
  | selectFallback => exact touches_select_iff.mpr (.inr ⟨_, rfl, htouches⟩)
  | body => exact touches_attempt_iff.mpr (.inl htouches)
  | handler => exact touches_attempt_iff.mpr (.inr htouches)

theorem IsChained.exists_block (hchained : statement.IsChained)
    (htouches : statement.Touches name) :
    ∃ block, statement.HasBlock block ∧ block.Touches name := by
  induction hchained with
  | nested => exact ⟨_, .nested, touches_nested_iff.mp htouches⟩
  | branch _ ih =>
      rcases touches_branch_iff.mp htouches with hpositive | ⟨negative, rfl, hnegative⟩
      · exact ⟨_, .positive, hpositive⟩
      · obtain ⟨block, hblock, hname⟩ := ih negative rfl hnegative
        exact ⟨block, .negative hblock, hname⟩
  | switch =>
      rcases touches_switch_iff.mp htouches with ⟨clause, hclause, hname⟩ | ⟨body, rfl, hname⟩
      · exact ⟨_, .case hclause, hname⟩
      · exact ⟨_, .switchFallback, hname⟩
  | select =>
      rcases touches_select_iff.mp htouches with ⟨clause, hclause, hname⟩ | ⟨body, rfl, hname⟩
      · exact ⟨_, .arm hclause, hname⟩
      · exact ⟨_, .selectFallback, hname⟩
  | attempt =>
      rcases touches_attempt_iff.mp htouches with hname | hname
      · exact ⟨_, .body, hname⟩
      · exact ⟨_, .handler, hname⟩

/-- A chain touches the names that the statements in its blocks bind, at any depth. -/
theorem IsChained.touches_iff (hchained : statement.IsChained) :
    statement.Touches name ↔ statement.BindsWithin name := by
  constructor
  · intro htouches
    obtain ⟨block, hblock, hname⟩ := hchained.exists_block htouches
    exact ⟨block, hblock, Block.touches_iff.mp hname⟩
  · rintro ⟨block, hblock, hname⟩
    exact hblock.touches (Block.touches_iff.mpr hname)

end Stmt

end Tide
