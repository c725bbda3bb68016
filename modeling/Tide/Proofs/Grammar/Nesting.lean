import Tide.Proofs.Grammar.Depth
import Tide.Proofs.Overlay.Buffer

/-!
# Nesting never runs out

The bound on nesting is not part of the language.  Reading a statement needs fewer than sixteen
steps down the grammar for each token ahead, so the bound is never the reason why reading fails, and
a larger one changes nothing.  Reading any tokens ends in a program or in an error of the program.
-/

namespace Tide

namespace Parser

/-! ## Statements and blocks -/

mutual

/-- A block goes up to statements again behind what opens it. -/
theorem agree_block : HasLevel 1 block
  | fuel + 1, more + 1, length, hfuel, hmore => by
      rw [block, block]
      apply Agree.leaf shallow_peek
      intro opening
      apply Agree.attempt (attempts_tryPunctuation .openBrace)
      · intro shorter hless
        apply Agree.onward (agree_statements _ _ (by omega) (by omega))
        exact fun statements => .pure _
      · apply Agree.attempt (attempts_tryPunctuation .openParen)
        · intro shorter hless
          apply Agree.onward (agree_statements _ _ (by omega) (by omega))
          exact fun statements => .pure _
        · exact shallow_expected .block _
termination_by structural fuel => fuel

theorem agree_statements (line : Nat) (close : Symbol) : HasLevel 8 (statements line close)
  | fuel + 1, more + 1, length, hfuel, hmore => by
      rw [statements, statements]
      apply Agree.leaf shallow_skipSeparators
      intro _
      apply Agree.attempt (attempts_tryPunctuation close)
      · exact fun _ _ => .pure _
      · apply Agree.peek
        intro token
        apply Agree.ite
        · exact fun _ => shallow_failAt line (.unclosedBlock close) (by simp) _
        · intro htoken
          -- The statement reads a token, so the rest may start at the top level again.
          apply Agree.passing htoken (passes_statement fuel)
            (agree_statement (by omega) (by omega)).facing
          intro first shorter hless
          apply Agree.onward (agree_statements line close (by omega) (by omega))
          exact fun rest => .pure _
termination_by structural fuel => fuel

theorem agree_statement : HasLevel 7 statement
  | fuel + 1, more + 1, length, hfuel, hmore => by
      rw [statement, statement]
      apply Agree.peek
      intro token
      apply Agree.assignment (by omega) (by omega)
      · exact fun action => .pure _
      · dsimp only
        split
        case h_1 word hword =>
          exact agree_keywordStatement token.line word (by simp [hword]) (by omega) (by omega)
        case h_2 =>
          apply Agree.facing
          apply Agree.ite
          · intro _
            apply Agree.onward (agree_expression (by omega) (by omega))
            exact fun value => .pure _
          · intro _
            apply Agree.leaf shallow_next
            intro _
            exact .leaf (shallow_note _) fun _ => .pure _
termination_by structural fuel => fuel

theorem agree_keywordStatement (line : Nat) (word : Keyword) :
    HasLevelFacing 6 (keywordStatement line word)
  | fuel + 1, more + 1, length, token, htoken, hfuel, hmore => by
      have hexpression : ∀ shorter, shorter < length →
          Agree (Cursor.Within shorter) (expression fuel) (expression more) := by
        intro shorter hless
        exact agree_expression (by omega) (by omega)
      have hblock : ∀ shorter, shorter < length →
          Agree (Cursor.Within shorter) (block fuel) (block more) := by
        intro shorter hless
        exact agree_block (by omega) (by omega)
      have haction : Agree (Cursor.Facing length token)
          (keywordAction word fuel >>= fun action => pure (Stmt.simple line action))
          (keywordAction word more >>= fun action => pure (Stmt.simple line action)) := by
        apply Agree.passing htoken (passes_keywordAction word fuel)
          (agree_keywordAction word htoken (by omega) (by omega))
        exact fun action _ _ => .pure _
      cases word with
      | ifWord => exact agree_branch line htoken (by omega) (by omega)
      | whileWord | schedule =>
          apply Agree.next htoken
          intro _ shorter hless
          apply Agree.onward (hexpression shorter hless)
          intro header
          apply Agree.onward (hblock shorter hless)
          exact fun body => .pure _
      | forWord =>
          apply Agree.next htoken
          intro _ shorter hless
          apply Agree.leaf (shallow_rawText .loopHeader)
          intro header
          apply Agree.onward (hblock shorter hless)
          exact fun body => .pure _
      | pureWord =>
          apply Agree.next htoken
          intro _ shorter hless
          apply Agree.onward (hblock shorter hless)
          exact fun body => .pure _
      | switchWord =>
          apply Agree.next htoken
          intro _ shorter hless
          apply Agree.onward (hexpression shorter hless)
          intro scrutinee
          apply Agree.leaf (shallow_expectSymbol .openBrace)
          intro _
          apply Agree.onward (agree_switchClauses none (by omega) (by omega))
          exact fun clauses => .pure _
      | matchWord =>
          apply Agree.next htoken
          intro _ shorter hless
          apply Agree.onward (hexpression shorter hless)
          intro scrutinee
          apply Agree.leaf (shallow_expectSymbol .openBrace)
          intro _
          apply Agree.onward (agree_matchClauses none (by omega) (by omega))
          exact fun clauses => .pure _
      | tryWord =>
          apply Agree.next htoken
          intro _ shorter hless
          apply Agree.onward (hblock shorter hless)
          intro body
          apply Agree.leaf (shallow_expectKeyword .catchWord .handler)
          intro _
          apply Agree.leaf shallow_peek
          intro binding
          apply Agree.ite
          · intro _
            apply Agree.leaf shallow_next
            intro _
            apply Agree.onward (hblock shorter hless)
            exact fun handler => .pure _
          · intro _
            apply Agree.onward (hblock shorter hless)
            exact fun handler => .pure _
      | overlay =>
          apply Agree.passing htoken (passes_overlays fuel)
            (agree_overlays htoken (by omega) (by omega))
          intro run shorter hless
          apply Agree.peek
          intro following
          apply Agree.ite
          · intro hstarts
            have hfollowing : following.kind ≠ .finish := fun hkind => by
              simp [Token.startsFunction, hkind] at hstarts
            apply Agree.passing hfollowing (passes_function run fuel)
              (agree_function run hfollowing (by omega) (by omega))
            exact fun declaration _ _ => .pure _
          · exact fun _ => .pure _
      | fnWord | method | routine =>
          apply Agree.passing htoken (passes_function [] fuel)
            (agree_function [] htoken (by omega) (by omega))
          exact fun declaration _ _ => .pure _
      | classWord | structWord =>
          apply Agree.passing htoken (passes_classDeclaration fuel)
            (agree_classDeclaration htoken (by omega) (by omega))
          exact fun declaration _ _ => .pure _
      | _ => exact haction
termination_by structural fuel => fuel

theorem agree_branch (line : Nat) : HasLevelFacing 1 (branch line)
  | fuel + 1, more + 1, length, token, htoken, hfuel, hmore => by
      rw [branch, branch]
      apply Agree.next htoken
      intro _ shorter hless
      apply Agree.onward (agree_expression (by omega) (by omega))
      intro condition
      apply Agree.onward (agree_block (by omega) (by omega))
      intro positive
      apply Agree.attempt (attempts_tryWord .elseWord)
      · intro fewer hfewer
        apply Agree.peek
        intro following
        apply Agree.ite
        · intro hword
          have hfollowing := Token.kind_ne_finish_of_isKeyword hword
          apply Agree.passing hfollowing (passes_branch following.line fuel)
            (agree_branch following.line hfollowing (by omega) (by omega))
          exact fun negative _ _ => .pure _
        · intro _
          apply Agree.facing
          apply Agree.onward (agree_block (by omega) (by omega))
          exact fun negative => .pure _
      · exact .pure _
termination_by structural fuel => fuel

theorem agree_switchClauses (default : Option Block) : HasLevel 1 (switchClauses default)
  | fuel + 1, more + 1, length, hfuel, hmore => by
      rw [switchClauses, switchClauses]
      apply Agree.leaf shallow_skipSeparators
      intro _
      apply Agree.attempt (attempts_tryPunctuation .closeBrace)
      · exact fun _ _ => .pure _
      · apply Agree.attempt (attempts_tryWord .caseWord)
        · intro shorter hless
          apply Agree.leaf shallow_literal
          intro label
          apply Agree.onward (agree_block (by omega) (by omega))
          intro body
          apply Agree.onward (agree_switchClauses default (by omega) (by omega))
          exact fun clauses => .pure _
        · apply Agree.attempt (attempts_tryWord .defaultWord)
          · intro shorter hless
            apply Agree.onward (agree_block (by omega) (by omega))
            exact fun body => agree_switchClauses (some body) (by omega) (by omega)
          · exact shallow_expected .switchClause _
termination_by structural fuel => fuel

theorem agree_matchClauses (default : Option Block) : HasLevel 1 (matchClauses default)
  | fuel + 1, more + 1, length, hfuel, hmore => by
      rw [matchClauses, matchClauses]
      apply Agree.leaf shallow_skipSeparators
      intro _
      apply Agree.attempt (attempts_tryPunctuation .closeBrace)
      · exact fun _ _ => .pure _
      · apply Agree.attempt (attempts_tryWord .caseWord)
        · intro shorter hless
          apply Agree.leaf shallow_pattern
          intro first
          apply Agree.onward (agree_morePatterns (by omega) (by omega))
          intro rest
          apply Agree.onward (agree_block (by omega) (by omega))
          intro body
          apply Agree.onward (agree_matchClauses default (by omega) (by omega))
          exact fun clauses => .pure _
        · apply Agree.attempt (attempts_tryWord .defaultWord)
          · intro shorter hless
            apply Agree.onward (agree_block (by omega) (by omega))
            exact fun body => agree_matchClauses (some body) (by omega) (by omega)
          · exact shallow_expected .matchClause _
termination_by structural fuel => fuel

theorem agree_function (run : List Overlay) : HasLevelFacing 1 (function run)
  | fuel + 1, more + 1, length, token, htoken, hfuel, hmore => by
      rw [function, function]
      apply Agree.next htoken
      intro keyword shorter hless
      apply Agree.leaf (shallow_identifier .functionName)
      intro name
      apply Agree.onward (agree_parameterList name (by omega) (by omega))
      intro parameters
      apply Agree.onward (agree_optionalType .arrow (by omega) (by omega))
      intro result
      apply Agree.onward (agree_block (by omega) (by omega))
      exact fun body => .pure _
termination_by structural fuel => fuel

theorem agree_classDeclaration : HasLevelFacing 1 classDeclaration
  | fuel + 1, more + 1, length, token, htoken, hfuel, hmore => by
      rw [classDeclaration, classDeclaration]
      apply Agree.next htoken
      intro keyword shorter hless
      apply Agree.leaf (shallow_identifier .className)
      intro name
      apply Agree.onward (agree_baseClasses (by omega) (by omega))
      intro bases
      apply Agree.leaf (shallow_expectSymbol .openBrace)
      intro _
      apply Agree.onward (agree_members name _ [] (by omega) (by omega))
      exact fun classMembers => .pure _
termination_by structural fuel => fuel

theorem agree_members (name : String) (access : Access) (pending : List Overlay) :
    HasLevel 2 (members name access pending)
  | fuel + 1, more + 1, length, hfuel, hmore => by
      rw [members, members]
      apply Agree.leaf shallow_skipSeparators
      intro _
      apply Agree.attempt (attempts_tryPunctuation .closeBrace)
      · exact fun _ _ => .pure _
      · apply Agree.peek
        intro token
        cases haccess : token.access? with
        | some granted =>
            apply Agree.next (fun hkind => by simp [Token.access?, hkind] at haccess)
            intro _ shorter hless
            apply Agree.leaf (shallow_expectSymbol .colon)
            exact fun _ => agree_members name granted pending (by omega) (by omega)
        | none =>
            apply Agree.ite
            · intro hword
              have htoken : token.kind ≠ .finish := fun hkind => by
                simp [Token.isKeyword, hkind] at hword
              apply Agree.passing htoken (passes_declaration fuel)
                (agree_declaration htoken (by omega) (by omega))
              intro binding shorter hless
              apply Agree.onward (agree_members name access pending (by omega) (by omega))
              exact fun rest => .pure _
            · intro _
              apply Agree.ite
              · intro hword
                have htoken := Token.kind_ne_finish_of_isKeyword hword
                apply Agree.passing htoken (passes_overlay fuel)
                  (agree_overlay htoken (by omega) (by omega))
                intro overlay shorter hless
                apply Agree.leaf shallow_skipSeparators
                intro _
                apply Agree.leaf shallow_peek
                intro following
                apply Agree.ite
                · exact fun _ => agree_members name access _ (by omega) (by omega)
                · exact fun _ => shallow_failHere .strayOverlay (by simp) _
              · intro _
                apply Agree.ite
                · intro hstarts
                  have htoken : token.kind ≠ .finish := fun hkind => by
                    simp [Token.startsFunction, hkind] at hstarts
                  apply Agree.passing htoken (passes_function pending fuel)
                    (agree_function pending htoken (by omega) (by omega))
                  intro method shorter hless
                  apply Agree.onward (agree_members name access [] (by omega) (by omega))
                  exact fun rest => .pure _
                · exact fun _ => shallow_expected (.classMember name) _
termination_by structural fuel => fuel

end

theorem agree_topLevel : HasLevel 8 topLevel
  | fuel + 1, more + 1, length, hfuel, hmore => by
      rw [topLevel, topLevel]
      apply Agree.leaf shallow_skipSeparators
      intro _
      apply Agree.peek
      intro token
      apply Agree.ite
      · exact fun _ => .pure _
      · intro htoken
        apply Agree.passing htoken (passes_statement fuel)
          (agree_statement (by omega) (by omega)).facing
        intro first shorter hless
        apply (agree_topLevel (by omega) (by omega)).bind
        exact fun rest => .pure _
termination_by structural fuel => fuel

/-! ## Assignments that are not found -/

theorem eq_of_assignment?_eq_none {fuel : Nat} {cursor after : Cursor}
    (hread : assignment? fuel cursor = .ok none after) : after = cursor := by
  rcases assignment?_cases hread with
    ⟨-, hafter⟩ | ⟨-, ⟨_, _, _, hsome⟩ | ⟨_, _, hsome⟩⟩
  · exact hafter
  · cases hsome
  · cases hsome

theorem assignment?_of_target_error {fuel : Nat} {cursor stopped : Cursor} {error : ParseError}
    (htarget : assignmentTarget fuel cursor = .error error stopped) :
    assignment? fuel cursor = .ok none cursor := by
  rw [assignment?, htarget]
  exact ite_self _

end Parser

/-! ## Programs -/

namespace Cursor

theorem within_ofTokens (source : List Token) :
    (ofTokens source).Within (ofTokens source).tokens.length :=
  ⟨finish_ofTokens source, le_refl _⟩

end Cursor

namespace Program

/-- The bound that is used for reading a program is large enough. -/
theorem topLevel_of_nesting_le (source : List Token) {fuel : Nat}
    (hfuel : (Cursor.ofTokens source).nesting ≤ fuel) :
    Parser.topLevel fuel (Cursor.ofTokens source) =
        Parser.topLevel (Cursor.ofTokens source).nesting (Cursor.ofTokens source) ∧
      Parser.Proceeds (Cursor.ofTokens source)
        (Parser.topLevel fuel (Cursor.ofTokens source)) := by
  have hnesting : 16 * (Cursor.ofTokens source).tokens.length + 8 ≤
      (Cursor.ofTokens source).nesting := by
    rw [Cursor.nesting]
    omega
  exact Parser.agree_topLevel (hnesting.trans hfuel) hnesting _ (Cursor.within_ofTokens source)

theorem result_cases (source : List Token) :
    (∃ program, (ofTokens source).result = .ok program) ∨
      ∃ error, (ofTokens source).result = .error error ∧ error.cause ≠ .tooDeep := by
  have hproceeds := (topLevel_of_nesting_le source (le_refl _)).2
  rw [ofTokens]
  generalize Parser.topLevel _ (Cursor.ofTokens source) = result at hproceeds ⊢
  cases hproceeds with
  | ok => exact .inl ⟨_, rfl⟩
  | error hcause => exact .inr ⟨_, rfl, hcause⟩

/-- Reading any tokens ends in a program or an error, and a larger bound on nesting changes nothing.
What is read moves the cursor on, at most to the first finishing token.  An assignment that is not
found, also because its target is wrong, leaves the cursor and the waiting overlays as they were. -/
theorem reading_advances (source : List Token) :
    ((∃ program, (ofTokens source).result = .ok program) ∨
      ∃ error, (ofTokens source).result = .error error ∧ error.cause ≠ .tooDeep) ∧
    (∀ fuel, (Cursor.ofTokens source).nesting ≤ fuel →
      Parser.topLevel fuel (Cursor.ofTokens source) =
        Parser.topLevel (Cursor.ofTokens source).nesting (Cursor.ofTokens source)) ∧
    (Cursor.ofTokens source).At source 0 ∧
    (∀ fuel,
      Parser.Advances source (·.head.kind ≠ .finish) (Parser.statement fuel) ∧
      Parser.Advances source (fun _ => True) (Parser.expression fuel) ∧
      Parser.Advances source (fun _ => True) (Parser.block fuel) ∧
      Parser.Advances source (fun _ => True) (Parser.assignmentTarget fuel)) ∧
    (∀ fuel cursor,
      (∀ after, Parser.assignment? fuel cursor = .ok none after → after = cursor) ∧
      (∀ error stopped, Parser.assignmentTarget fuel cursor = .error error stopped →
        Parser.assignment? fuel cursor = .ok none cursor) ∧
      ∀ buffer left after,
        (liftM (Parser.assignment? fuel) : Parser.Buffered (Option Action)) buffer cursor =
          .ok (none, left) after → after = cursor ∧ left = buffer) := by
  refine ⟨result_cases source, fun fuel hfuel => (topLevel_of_nesting_le source hfuel).1,
    Cursor.at_ofTokens source, fun fuel => ⟨?_, ?_, ?_, ?_⟩, fun fuel cursor => ⟨?_, ?_, ?_⟩⟩
  · exact (Parser.passes_statement fuel).advances source
  · exact (Parser.stopsAtEnd_expression fuel).advances (Parser.passes_expression fuel) source
  · exact (Parser.stopsAtEnd_block fuel).advances (Parser.passes_block fuel) source
  · exact (Parser.stopsAtEnd_assignmentTarget fuel).advances
      (Parser.passes_assignmentTarget fuel) source
  · exact fun after => Parser.eq_of_assignment?_eq_none
  · exact fun error stopped => Parser.assignment?_of_target_error
  · intro buffer left after hread
    obtain ⟨found, between, hfound, hreturn⟩ := Parser.exists_of_bind_eq_ok hread
    cases hreturn
    exact ⟨Parser.eq_of_assignment?_eq_none hfound, rfl⟩

end Program

end Tide
