import Tide.Proofs.Grammar.Spelling

/-!
# Programs that are read are spelt

Every program that is read from the tokens of a source is spelt as a source can spell it.  The
recursion is on the fuel, as in the readers.  Overlays and a default clause that were read before
are handed down, so they have to be spelt already.
-/

namespace Tide

open Lexeme (JoinsWords)

namespace Parser

/-! ## Statements -/

open Stmt (AllSpelt)

/-- The function and every statement in it are spelt. -/
def SpeltFunction (declaration : FunctionDecl) : Prop :=
  (∀ word ∈ declaration.words, JoinsWords word) ∧
    Text.OnOneLine declaration.parameters.shown ∧ AllSpelt declaration.body.descendants

/-- The members of a class and every statement in them are spelt. -/
structure SpeltMembers (members : List ClassMember) : Prop where
  words : ∀ word ∈ members.flatMap ClassMember.words, JoinsWords word
  values : ∀ value ∈ members.flatMap ClassMember.fieldValues, value.Spelt
  copied : ∀ text ∈ members.flatMap ClassMember.copied, Text.OnOneLine text
  bodies : AllSpelt ((members.filterMap ClassMember.body?).flatMap Block.descendants)

theorem speltMembers_nil : SpeltMembers [] := ⟨nofun, nofun, nofun, nofun⟩

theorem SpeltMembers.field {members : List ClassMember} (hmembers : SpeltMembers members)
    (access : Access) {binding : Local} (hbinding : SpeltLocal binding) :
    SpeltMembers (.field access binding :: members) where
  words := List.forall_mem_append.mpr ⟨hbinding.1, hmembers.words⟩
  values := List.forall_mem_append.mpr
    ⟨fun value hvalue => hbinding.2 value (Option.mem_toList.mp hvalue), hmembers.values⟩
  copied := hmembers.copied
  bodies := hmembers.bodies

theorem SpeltMembers.method {members : List ClassMember} (hmembers : SpeltMembers members)
    (access : Access) {declaration : FunctionDecl} (hdeclaration : SpeltFunction declaration) :
    SpeltMembers (.method access declaration :: members) where
  words := List.forall_mem_append.mpr ⟨hdeclaration.1, hmembers.words⟩
  values := hmembers.values
  copied := List.forall_mem_cons.mpr ⟨hdeclaration.2.1, hmembers.copied⟩
  bodies := Stmt.allSpelt_append.mpr ⟨hdeclaration.2.2, hmembers.bodies⟩

theorem spelt_function {declaration : FunctionDecl} (hdeclaration : SpeltFunction declaration)
    (line : Nat) : AllSpelt (Stmt.function line declaration).withDescendants := by
  rw [Stmt.withDescendants_function, Stmt.allSpelt_cons]
  exact ⟨⟨hdeclaration.1, nofun, by simpa [Stmt.copied] using hdeclaration.2.1, nofun⟩,
    hdeclaration.2.2⟩

/-- A statement that has nothing of its own to spell but expressions. -/
theorem spelt_of_expressions {statement : Stmt} (hwords : statement.words = [])
    (hcopied : statement.copied = []) (htarget : statement.target? = none)
    (hnames : ∀ expression ∈ statement.allExpressions, expression.Spelt) : statement.Spelt :=
  ⟨by simp [hwords], hnames, by simp [hcopied], by simp [htarget]⟩

theorem spelt_nested {opener : Opener} {body : Block} (hbody : AllSpelt body.descendants)
    (hopener : ∀ expression ∈ opener.expressions, expression.Spelt)
    (hheader : ∀ text ∈ (Stmt.nested 0 opener ⟨0, []⟩).copied, Text.OnOneLine text) (line : Nat) :
    AllSpelt (Stmt.nested line opener body).withDescendants := by
  rw [Stmt.withDescendants_nested, Stmt.allSpelt_cons]
  refine ⟨⟨nofun, fun expression hmem => hopener expression ?_, ?_, nofun⟩, hbody⟩
  · exact (List.mem_append.mp hmem).resolve_right nofun
  · cases opener <;> exact hheader

mutual

/-- Every statement in a block is spelt, at any depth. -/
theorem yields_block : ∀ fuel, Yields (block fuel) fun body => AllSpelt body.descendants
  | 0 => .tooDeep
  | fuel + 1 => by
      rw [block]
      refine .after movesOn_peek fun opening => .after (movesOn_tryPunctuation _) fun brace => ?_
      refine .ite (fun _ => ?_) ?_
      · exact .bind (yields_statements _ _ fuel) fun _ hstatements => .pure hstatements
      refine .after (movesOn_tryPunctuation _) fun parenthesis => .ite (fun _ => ?_) .expected
      exact .bind (yields_statements _ _ fuel) fun _ hstatements => .pure hstatements

theorem yields_statements (line : Nat) (close : Symbol) : ∀ fuel,
    Yields (statements line close fuel) fun statements =>
      AllSpelt (statements.flatMap Stmt.withDescendants)
  | 0 => .tooDeep
  | fuel + 1 => by
      rw [statements]
      refine .after movesOn_skipSeparators fun _ =>
        .after (movesOn_tryPunctuation _) fun closed => ?_
      refine .ite (fun _ => .pure nofun) (.after movesOn_peek fun token => ?_)
      refine .ite (fun _ => .failAt) ?_
      refine .bind (yields_statement fuel) fun first hfirst => ?_
      refine .bind (yields_statements line close fuel) fun rest hrest => .pure ?_
      exact Stmt.allSpelt_append.mpr ⟨hfirst, hrest⟩

theorem yields_statement : ∀ fuel,
    Yields (statement fuel) fun statement => AllSpelt statement.withDescendants
  | 0 => .tooDeep
  | fuel + 1 => by
      have hsimple {line : Nat} {action : Action} (haction : SpeltAction action) :
          AllSpelt (Stmt.simple line action).withDescendants := by
        simpa [Stmt.withDescendants_simple] using haction line
      rw [statement]
      refine .after movesOn_peek fun token =>
        .bind (yields_assignment? fuel) fun result hresult => ?_
      cases result with
      | some action => exact .pure (hsimple (hresult action rfl))
      | none =>
          cases token.kind with
          | keyword word => exact yields_keywordStatement token.line word fuel
          | _ =>
              refine .ite (fun _ => ?_) ?_
              · refine .bind (yields_expression fuel) fun value hvalue => .pure (hsimple ?_)
                exact speltAction_of rfl nofun (by simpa [Action.expressions] using hvalue)
              · refine .after movesOn_next fun _ =>
                  .after (movesOn_note _) fun _ => .pure (hsimple ?_)
                exact speltAction_of rfl
                  (by simpa [Action.words] using TokenKind.joinsWords_name _) nofun

theorem yields_keywordStatement (line : Nat) (word : Keyword) : ∀ fuel,
    Yields (keywordStatement line word fuel) fun statement => AllSpelt statement.withDescendants
  | 0 => .tooDeep
  | fuel + 1 => by
      cases word with
      | ifWord => exact yields_branch line fuel
      | whileWord | schedule =>
          refine .after movesOn_next fun _ => ?_
          refine .bind (yields_expression fuel) fun expression hexpression => ?_
          refine .bind (yields_block fuel) fun body hbody => .pure ?_
          exact spelt_nested hbody (by simpa [Opener.expressions] using hexpression)
            (by simp [Stmt.copied]) line
      | forWord =>
          refine .after movesOn_next fun _ => ?_
          refine .bind (yields_rawText _) fun header hheader => ?_
          refine .bind (yields_block fuel) fun body hbody => .pure ?_
          exact spelt_nested hbody (by simp [Opener.expressions])
            (by simpa [Stmt.copied] using hheader) line
      | pureWord =>
          refine .after movesOn_next fun _ => ?_
          refine .bind (yields_block fuel) fun body hbody => .pure ?_
          exact spelt_nested hbody (by simp [Opener.expressions]) (by simp [Stmt.copied]) line
      | switchWord =>
          refine .after movesOn_next fun _ => ?_
          refine .bind (yields_expression fuel) fun scrutinee hscrutinee => ?_
          refine .after (movesOn_expectSymbol _) fun _ => ?_
          refine .bind (yields_switchClauses (by simp) fuel) fun clauses hclauses => .pure ?_
          rw [Stmt.withDescendants_switch, Stmt.allSpelt_cons, Stmt.allSpelt_append]
          refine ⟨spelt_of_expressions rfl rfl rfl ?_, hclauses⟩
          simpa [Stmt.allExpressions, Stmt.ownExpressions, Stmt.fieldValues] using hscrutinee
      | matchWord =>
          refine .after movesOn_next fun _ => ?_
          refine .bind (yields_expression fuel) fun scrutinee hscrutinee => ?_
          refine .after (movesOn_expectSymbol _) fun _ => ?_
          refine .bind (yields_matchClauses (by simp) fuel) fun clauses hclauses => .pure ?_
          rw [Stmt.withDescendants_select, Stmt.allSpelt_cons, Stmt.allSpelt_append]
          refine ⟨spelt_of_expressions rfl rfl rfl ?_, hclauses⟩
          simpa [Stmt.allExpressions, Stmt.ownExpressions, Stmt.fieldValues] using hscrutinee
      | tryWord =>
          have hattempt {body handler : Block} {binding : Option String}
              (hbody : AllSpelt body.descendants) (hhandler : AllSpelt handler.descendants)
              (hbinding : ∀ name ∈ binding, JoinsWords name) :
              AllSpelt (Stmt.attempt line body binding handler).withDescendants := by
            rw [Stmt.withDescendants_attempt, Stmt.allSpelt_cons, Stmt.allSpelt_append]
            refine ⟨⟨?_, nofun, nofun, nofun⟩, hbody, hhandler⟩
            exact fun word hword => hbinding word (Option.mem_toList.mp hword)
          refine .after movesOn_next fun _ => .bind (yields_block fuel) fun body hbody => ?_
          refine .after (movesOn_expectKeyword _ _) fun _ =>
            .bind yields_peek fun binding hbinding => ?_
          refine .ite (fun hidentifier => .after movesOn_next fun _ => ?_) ?_
          · refine .bind (yields_block fuel) fun handler hhandler => .pure ?_
            have hword := hbinding.isWord (of_decide_eq_true hidentifier)
            exact hattempt hbody hhandler (by simpa using Lexeme.joinsWords_of_isWord hword)
          · refine .bind (yields_block fuel) fun handler hhandler => .pure ?_
            exact hattempt hbody hhandler nofun
      | overlay =>
          refine .bind (yields_overlays fuel) fun run hrun => .after movesOn_peek fun token => ?_
          refine .ite (fun _ => ?_) (.pure ?_)
          · exact .bind (yields_function hrun fuel) fun declaration hdeclaration =>
              .pure (spelt_function hdeclaration line)
          · rw [Stmt.withDescendants_simple, Stmt.allSpelt_cons]
            refine ⟨speltAction_of rfl ?_ (by simp [Action.expressions]) line, Stmt.allSpelt_nil⟩
            simpa [Action.words] using hrun
      | fnWord | method | routine =>
          exact .bind (yields_function (by simp) fuel) fun declaration hdeclaration =>
            .pure (spelt_function hdeclaration line)
      | classWord | structWord =>
          refine .bind (yields_classDeclaration fuel) fun declaration hdeclaration => .pure ?_
          rw [Stmt.withDescendants_classDecl, Stmt.allSpelt_cons]
          refine ⟨⟨?_, hdeclaration.2.values, hdeclaration.2.copied, nofun⟩,
            hdeclaration.2.bodies⟩
          exact List.forall_mem_append.mpr ⟨hdeclaration.1, hdeclaration.2.words⟩
      | _ =>
          refine .bind (yields_keywordAction _ fuel) fun action haction => .pure ?_
          simpa [Stmt.withDescendants_simple] using haction line

theorem yields_branch (line : Nat) : ∀ fuel,
    Yields (branch line fuel) fun statement => AllSpelt statement.withDescendants
  | 0 => .tooDeep
  | fuel + 1 => by
      have hbranch {condition : Expr} {positive : Block} {negative : Option Stmt}
          (hcondition : condition.Spelt) (hpositive : AllSpelt positive.descendants)
          (hnegative : ∀ statement ∈ negative, AllSpelt statement.withDescendants) :
          AllSpelt (Stmt.branch line condition positive negative).withDescendants := by
        rw [Stmt.withDescendants_branch, Stmt.allSpelt_cons, Stmt.allSpelt_append]
        refine ⟨spelt_of_expressions rfl rfl rfl ?_, hpositive, ?_⟩
        · simpa [Stmt.allExpressions, Stmt.ownExpressions, Stmt.fieldValues] using hcondition
        · cases negative with
          | none => exact nofun
          | some statement => simpa using hnegative statement rfl
      rw [branch]
      refine .after movesOn_next fun _ => ?_
      refine .bind (yields_expression fuel) fun condition hcondition => ?_
      refine .bind (yields_block fuel) fun positive hpositive => ?_
      refine .after (movesOn_tryWord _) fun otherwise =>
        .ite (fun _ => .after movesOn_peek fun token => .ite (fun _ => ?_) ?_) (.pure ?_)
      · refine .bind (yields_branch token.line fuel) fun negative hnegative => .pure ?_
        exact hbranch hcondition hpositive (by simpa using hnegative)
      · refine .bind (yields_block fuel) fun negative hnegative => .pure ?_
        have hblock : AllSpelt (Stmt.nested token.line .block negative).withDescendants :=
          spelt_nested hnegative (by simp [Opener.expressions]) (by simp [Stmt.copied]) _
        exact hbranch hcondition hpositive (by simpa using hblock)
      · exact hbranch hcondition hpositive nofun

theorem yields_switchClauses {default : Option Block}
    (hdefault : AllSpelt (default.toList.flatMap Block.descendants)) : ∀ fuel,
    Yields (switchClauses default fuel) fun clauses =>
      AllSpelt (clauses.1.flatMap (·.body.descendants)) ∧
        AllSpelt (clauses.2.toList.flatMap Block.descendants)
  | 0 => .tooDeep
  | fuel + 1 => by
      rw [switchClauses]
      refine .after movesOn_skipSeparators fun _ =>
        .after (movesOn_tryPunctuation _) fun closed => ?_
      refine .ite (fun _ => .pure ⟨nofun, hdefault⟩) (.after (movesOn_tryWord _) fun case => ?_)
      refine .ite (fun _ => .after movesOn_literal fun label => ?_)
        (.after (movesOn_tryWord _) fun word => .ite (fun _ => ?_) .expected)
      · refine .bind (yields_block fuel) fun body hbody => ?_
        refine .bind (yields_switchClauses hdefault fuel) fun clauses hclauses => .pure ?_
        exact ⟨Stmt.allSpelt_append.mpr ⟨hbody, hclauses.1⟩, hclauses.2⟩
      · refine .bind (yields_block fuel) fun body hbody => ?_
        exact yields_switchClauses (by simpa using hbody) fuel

theorem yields_matchClauses {default : Option Block}
    (hdefault : AllSpelt (default.toList.flatMap Block.descendants)) : ∀ fuel,
    Yields (matchClauses default fuel) fun clauses =>
      AllSpelt (clauses.1.flatMap (·.body.descendants)) ∧
        AllSpelt (clauses.2.toList.flatMap Block.descendants)
  | 0 => .tooDeep
  | fuel + 1 => by
      rw [matchClauses]
      refine .after movesOn_skipSeparators fun _ =>
        .after (movesOn_tryPunctuation _) fun closed => ?_
      refine .ite (fun _ => .pure ⟨nofun, hdefault⟩) (.after (movesOn_tryWord _) fun case => ?_)
      refine .ite (fun _ => .after movesOn_pattern fun first =>
          .after (movesOn_morePatterns fuel) fun more => ?_)
        (.after (movesOn_tryWord _) fun word => .ite (fun _ => ?_) .expected)
      · refine .bind (yields_block fuel) fun body hbody => ?_
        refine .bind (yields_matchClauses hdefault fuel) fun clauses hclauses => .pure ?_
        exact ⟨Stmt.allSpelt_append.mpr ⟨hbody, hclauses.1⟩, hclauses.2⟩
      · refine .bind (yields_block fuel) fun body hbody => ?_
        exact yields_matchClauses (by simpa using hbody) fuel

theorem yields_function {run : List Overlay} (hrun : ∀ overlay ∈ run, JoinsWords overlay.name) :
    ∀ fuel, Yields (function run fuel) SpeltFunction
  | 0 => .tooDeep
  | fuel + 1 => by
      rw [function]
      refine .after movesOn_next fun keyword => ?_
      refine .bind (yields_identifier _) fun name hname => ?_
      refine .bind (yields_parameterList name fuel) fun parameters hparameters => ?_
      refine .bind (yields_optionalType _ fuel) fun result hresult => ?_
      refine .bind (yields_block fuel) fun body hbody => .pure ⟨?_, hparameters, hbody⟩
      simpa [FunctionDecl.words, or_imp, forall_and] using ⟨hname, hresult, hrun⟩

theorem yields_classDeclaration : ∀ fuel,
    Yields (classDeclaration fuel) fun declaration =>
      (∀ word ∈ declaration.name :: declaration.bases, JoinsWords word) ∧
        SpeltMembers declaration.members
  | 0 => .tooDeep
  | fuel + 1 => by
      rw [classDeclaration]
      refine .after movesOn_next fun keyword => ?_
      refine .bind (yields_identifier _) fun name hname => ?_
      refine .bind (yields_baseClasses fuel) fun bases hbases => ?_
      refine .after (movesOn_expectSymbol _) fun _ => ?_
      refine .bind (yields_members name _ (by simp) fuel) fun members hmembers => .pure ?_
      exact ⟨List.forall_mem_cons.mpr ⟨hname, hbases⟩, hmembers⟩

theorem yields_members (name : String) (access : Access) {pending : List Overlay}
    (hpending : ∀ overlay ∈ pending, JoinsWords overlay.name) : ∀ fuel,
    Yields (members name access pending fuel) SpeltMembers
  | 0 => .tooDeep
  | fuel + 1 => by
      rw [members]
      refine .after movesOn_skipSeparators fun _ =>
        .after (movesOn_tryPunctuation _) fun closed => ?_
      refine .ite (fun _ => .pure speltMembers_nil) (.after movesOn_peek fun token => ?_)
      cases token.access? with
      | some label =>
          refine .after movesOn_next fun _ => .after (movesOn_expectSymbol _) fun _ => ?_
          exact yields_members name label hpending fuel
      | none =>
          refine .ite (fun _ => ?_) (.ite (fun _ => ?_) (.ite (fun _ => ?_) .expected))
          · refine .bind (yields_declaration fuel) fun binding hbinding => ?_
            refine .bind (yields_members name access hpending fuel) fun rest hrest => .pure ?_
            exact hrest.field access hbinding
          · refine .bind (yields_overlay fuel) fun overlay hoverlay => ?_
            refine .after movesOn_skipSeparators fun _ => .after movesOn_peek fun following => ?_
            refine .ite (fun _ => yields_members name access ?_ fuel) .failHere
            exact List.forall_mem_append.mpr ⟨hpending, by simpa using hoverlay⟩
          · refine .bind (yields_function hpending fuel) fun method hmethod => ?_
            refine .bind (yields_members name access (by simp) fuel) fun rest hrest => .pure ?_
            exact hrest.method access hmethod

end

theorem yields_topLevel (fuel : Nat) :
    Yields (topLevel fuel) fun program => AllSpelt (program.flatMap Stmt.withDescendants) := by
  induction fuel with
  | zero => exact .tooDeep
  | succ fuel ih =>
      rw [topLevel]
      refine .after movesOn_skipSeparators fun _ => .after movesOn_peek fun token => ?_
      refine .ite (fun _ => .pure nofun) (.bind (yields_statement fuel) fun first hfirst => ?_)
      exact .bind ih fun rest hrest => .pure (Stmt.allSpelt_append.mpr ⟨hfirst, hrest⟩)

end Parser

/-! ## Whole programs -/

theorem Cursor.spelt_ofTokens {source : String} {tokens : List Token}
    (hscan : Token.scan source = .ok tokens) : (ofTokens tokens).Spelt := by
  obtain ⟨hfinish, hlexemes⟩ := Token.exists_writtenAs_of_scan hscan
  refine ⟨fun token htoken => ?_, finish_ofTokens tokens⟩
  have hkind : token.kind ≠ .finish := by simpa using List.mem_takeWhile_imp htoken
  have hmem : token ∈ tokens := (List.takeWhile_prefix _).subset htoken
  rw [hfinish] at hmem
  rcases List.mem_append.mp hmem with hmem | hmem
  · exact hlexemes token hmem
  · rw [List.mem_singleton.mp hmem] at hkind
    exact absurd rfl hkind

/-- Every program that is read from the tokens of a source is spelt as a source can spell it. -/
theorem Program.spelt_of_read {source : String} {tokens : List Token} {program : Program}
    (hscan : Token.scan source = .ok tokens) (hread : (ofTokens tokens).result = .ok program) :
    program.Spelt := by
  simp only [ofTokens] at hread
  split at hread
  case h_1 read after hparsed =>
    cases hread
    have hyields := Parser.yields_topLevel _ _ (Cursor.spelt_ofTokens hscan) _ _ hparsed
    rw [Program.Spelt, Program.allStatements_eq_flatMap]
    exact hyields.2
  case h_2 => cases hread

end Tide
