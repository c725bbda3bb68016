import Tide.Proofs.Grammar.Chains
import Tide.Proofs.Sign.Scoping

/-!
# Signs behind a branch

Behind a compound statement nothing is known of a name that one of its blocks binds, and as much as
before is known of every other name.
-/

namespace Tide

theorem Stmt.FollowsElse.isCompound {statement : Stmt} (hfollows : statement.FollowsElse) :
    statement.isCompound = true := by
  cases hfollows <;> rfl

/-- The compound statements of a program that was read are chains. -/
theorem Program.isChained_of_read {tokens : List Token} {program : Program}
    (hread : (ofTokens tokens).result = .ok program) {statement : Stmt}
    (hcontains : program.Contains statement) (hcompound : statement.isCompound = true) :
    statement.IsChained := by
  induction statement with
  | simple | function | classDecl => cases hcompound
  | nested => exact .nested
  | branch line condition positive negative hpositive ih =>
      refine .branch fun alternative halternative => ?_
      subst halternative
      have hfollows := chainsElse_of_read hread hcontains _ _ _ _ rfl
      exact ih alternative rfl (.inner hcontains .negative) hfollows.isCompound
  | switch => exact .switch
  | select => exact .select
  | attempt => exact .attempt

namespace SignCheck

/-- No fact outlives a branch that may have changed it, and all others do.  The scopes are as many
as before, and the walk through a whole program never takes the outermost one away. -/
theorem branch_forgets_bound {tokens : List Token} {program : Program}
    (hread : (Program.ofTokens tokens).result = .ok program) {statement : Stmt}
    (hcontains : program.Contains statement) (hcompound : statement.isCompound = true)
    (check : SignCheck) (table : FunctionTable) (contract : Option Contract) (facts : Facts) :
    (∀ name, statement.BindsWithin name →
      (check.stmt table contract facts statement).1.sign name = .unknown) ∧
    (∀ name, ¬ statement.BindsWithin name →
      (check.stmt table contract facts statement).1.sign name = facts.sign name) ∧
    (check.stmt table contract facts statement).1.depth = facts.depth ∧
    ∀ whole : Program, Guarded.stmts check table none .empty whole =
      .ok (check.stmts table none .empty whole).1 := by
  have hchained := Program.isChained_of_read hread hcontains hcompound
  have hchanges := changes_chained check table contract hchained facts
  refine ⟨fun name hbinds => ?_, fun name hbinds => ?_, hchanges.depth_eq, fun whole => ?_⟩
  · exact hchanges.sign_eq_unknown (hchained.touches_iff.mpr hbinds)
  · exact hchanges.sign_eq (mt hchained.touches_iff.mp hbinds)
  · exact Guarded.stmts_eq check table whole none .empty

/-- The tokens of `if a { } else if b { pure { let x } }`. -/
def letInElseIf : List Token :=
  [⟨.keyword .ifWord, "if", 1⟩, ⟨.identifier, "a", 1⟩, ⟨.symbol .openBrace, "\x7b", 1⟩,
   ⟨.symbol .closeBrace, "\x7d", 1⟩, ⟨.keyword .elseWord, "else", 1⟩,
   ⟨.keyword .ifWord, "if", 1⟩, ⟨.identifier, "b", 1⟩, ⟨.symbol .openBrace, "\x7b", 1⟩,
   ⟨.keyword .pureWord, "pure", 1⟩, ⟨.symbol .openBrace, "\x7b", 1⟩,
   ⟨.keyword .letWord, "let", 1⟩, ⟨.identifier, "x", 1⟩,
   ⟨.symbol .closeBrace, "\x7d", 1⟩, ⟨.symbol .closeBrace, "\x7d", 1⟩]

/-- The statement that those tokens are read as. -/
def elseIfBinding : Stmt :=
  .branch 1 (.name 1 "a") ⟨1, []⟩ (some (.branch 1 (.name 1 "b")
    ⟨1, [.nested 1 .pureRegion ⟨1, [.simple 1 (.declare ⟨"x", false, none, none⟩)]⟩]⟩ none))

/-- What is known before that statement. -/
def twoSigns : Facts := Scopes.empty.bind "x" .nonneg |>.bind "y" .negative

theorem branch_forgets_bound_else_if :
    (Program.ofTokens letInElseIf).result = .ok [elseIfBinding] ∧
      elseIfBinding.BindsWithin "x" ∧ ¬ elseIfBinding.BindsWithin "y" ∧
      twoSigns.sign "x" = .nonneg ∧ twoSigns.sign "y" = .negative ∧
      (callSites.stmt [] none twoSigns elseIfBinding).1.sign "x" = .unknown ∧
      (callSites.stmt [] none twoSigns elseIfBinding).1.sign "y" = .negative := by
  have hread : (Program.ofTokens letInElseIf).result = .ok [elseIfBinding] := by cbv
  have hwithin : elseIfBinding.BindsWithin "x" :=
    ⟨_, .negative .positive, _, .inner (.direct List.mem_cons_self) (.nested List.mem_cons_self),
      .declare⟩
  have hchained : elseIfBinding.IsChained :=
    Program.isChained_of_read hread (.direct List.mem_cons_self) rfl
  have hother : ¬ elseIfBinding.BindsWithin "y" := by
    intro hwithin
    have hbinds : (Stmt.simple 1 (.declare ⟨"x", false, none, none⟩)).Binds "y" := by
      simpa [elseIfBinding, Stmt.touches_branch_iff, Stmt.touches_nested_iff,
        Stmt.touches_simple_iff, Block.Touches] using hchained.touches_iff.mpr hwithin
    generalize hname : "y" = name at hbinds
    cases hbinds with
    | declare => exact absurd hname (by decide)
    | reassign hreassigns => cases hreassigns
  obtain ⟨hbound, hkept, -⟩ :=
    branch_forgets_bound hread (.direct List.mem_cons_self) rfl callSites [] none twoSigns
  exact ⟨hread, hwithin, hother, rfl, rfl, hbound "x" hwithin, hkept "y" hother⟩

end SignCheck

end Tide
