import Tide.Proofs.Grammar.Onward

/-!
# Readers make progress

A reader of a statement or a block passes a token if there is one.  At the end of the tokens an
expression, a block or the target of an assignment is an error.  So no loop of the grammar goes on
without reading, and none reads past the first finishing token.
-/

namespace Tide

namespace Parser

variable {α β : Type}

/-! ## Trying a token -/

/-- The reader passes the token ahead, which is no finishing one, or leaves everything as it is. -/
def Attempts (attempt : Parser Bool) : Prop :=
  ∀ cursor : Cursor, (cursor.head.kind ≠ .finish ∧
      attempt cursor = .ok true { cursor with tokens := cursor.tokens.tail }) ∨
    attempt cursor = .ok false cursor

theorem attempts_tryPunctuation (sign : Symbol) : Attempts (tryPunctuation sign) := by
  intro cursor
  by_cases hsign : cursor.head.isSymbol sign = true
  · left
    refine ⟨Token.kind_ne_finish_of_isSymbol hsign, ?_⟩
    rw [tryPunctuation, bind_of_ok (peek_apply _), if_pos hsign, bind_of_ok (next_apply _)]
    rfl
  · right
    exact tryPunctuation_of_not (Bool.not_eq_true _ ▸ hsign)

theorem attempts_tryWord (word : Keyword) : Attempts (tryWord word) := by
  intro cursor
  rw [tryWord, bind_of_ok (peek_apply _)]
  by_cases hword : cursor.head.isKeyword word = true
  · left
    refine ⟨Token.kind_ne_finish_of_isKeyword hword, ?_⟩
    rw [if_pos hword, bind_of_ok (next_apply _)]
    rfl
  · right
    rw [if_neg hword]
    rfl

theorem Passes.attempt {attempt : Parser Bool} {yes no : Parser α} (hattempt : Attempts attempt)
    (hyes : MovesOn yes) (hno : Passes no) :
    Passes (attempt >>= fun found => if found = true then yes else no) := by
  intro cursor value after hread
  rcases hattempt cursor with ⟨-, hfound⟩ | hfound
  · rw [bind_of_ok hfound, if_pos rfl] at hread
    have hnext := passes_next cursor _ _ (next_apply cursor)
    exact hnext.trans_onward (hyes _ value after hread)
  · rw [bind_of_ok hfound, if_neg Bool.false_ne_true] at hread
    exact hno cursor value after hread

/-- What follows an assignment that was not found starts where the assignment was looked for. -/
theorem Passes.assignment {fuel : Nat} {next : Option Action → Parser α}
    (hsome : ∀ action, MovesOn (next (some action))) (hnone : Passes (next none)) :
    Passes (assignment? fuel >>= next) := by
  intro cursor value after hread
  obtain ⟨result, between, hassignment, hrest⟩ := exists_of_bind_eq_ok hread
  rcases assignment?_cases hassignment with
    ⟨rfl, rfl⟩ | ⟨hpast, ⟨_, _, _, rfl⟩ | ⟨_, _, rfl⟩⟩
  · exact hnone between value after hrest
  · exact hpast.trans_onward (hsome _ between value after hrest)
  · exact hpast.trans_onward (hsome _ between value after hrest)

/-! ## Statements and blocks -/

theorem passes_overlays (fuel : Nat) : Passes (overlays fuel) := by
  induction fuel with
  | zero => exact passes_tooDeep
  | succ fuel ih =>
      rw [overlays]
      apply Passes.bind (passes_overlay fuel)
      intro first
      apply MovesOn.bind movesOn_skipSeparators
      intro _
      apply MovesOn.bind movesOn_peek
      intro token
      exact .ite (.bind ih.movesOn fun _ => .pure _) (.pure _)

mutual

theorem passes_block : ∀ fuel, Passes (block fuel)
  | 0 => passes_tooDeep
  | fuel + 1 => by
      rw [block]
      apply Passes.after movesOn_peek
      intro opening
      apply Passes.attempt (attempts_tryPunctuation .openBrace)
      · exact .bind (passes_statements _ _ fuel).movesOn fun _ => .pure _
      · apply Passes.attempt (attempts_tryPunctuation .openParen)
        · exact .bind (passes_statements _ _ fuel).movesOn fun _ => .pure _
        · exact passes_expected .block

theorem passes_statements (line : Nat) (close : Symbol) : ∀ fuel,
    Passes (statements line close fuel)
  | 0 => passes_tooDeep
  | fuel + 1 => by
      rw [statements]
      apply Passes.after movesOn_skipSeparators
      intro _
      apply Passes.attempt (attempts_tryPunctuation close)
      · exact .pure _
      · apply Passes.after movesOn_peek
        intro token
        apply Passes.ite
        · exact passes_failAt line _
        · apply Passes.bind (passes_statement fuel)
          intro first
          exact .bind (passes_statements line close fuel).movesOn fun _ => .pure _

/-- Whatever a statement is, a token is passed for it. -/
theorem passes_statement : ∀ fuel, Passes (statement fuel)
  | 0 => passes_tooDeep
  | fuel + 1 => by
      rw [statement]
      apply Passes.after movesOn_peek
      intro token
      apply Passes.assignment
      · intro action
        exact .pure _
      · dsimp only
        split
        case h_1 word hword => exact passes_keywordStatement token.line word fuel
        case h_2 =>
          apply Passes.ite
          · exact .bind (passes_expression fuel) fun _ => .pure _
          · apply Passes.bind passes_next
            intro _
            exact .bind (movesOn_note _) fun _ => .pure _

theorem passes_keywordStatement (line : Nat) (word : Keyword) : ∀ fuel,
    Passes (keywordStatement line word fuel)
  | 0 => passes_tooDeep
  | fuel + 1 => by
      cases word with
      | ifWord => exact passes_branch line fuel
      | whileWord | schedule =>
          apply Passes.bind passes_next
          intro _
          apply MovesOn.bind (movesOn_expression fuel)
          intro header
          exact .bind (passes_block fuel).movesOn fun _ => .pure _
      | forWord =>
          apply Passes.bind passes_next
          intro _
          apply MovesOn.bind (movesOn_rawText .loopHeader)
          intro header
          exact .bind (passes_block fuel).movesOn fun _ => .pure _
      | pureWord =>
          apply Passes.bind passes_next
          intro _
          exact .bind (passes_block fuel).movesOn fun _ => .pure _
      | switchWord =>
          apply Passes.bind passes_next
          intro _
          apply MovesOn.bind (movesOn_expression fuel)
          intro scrutinee
          apply MovesOn.bind (movesOn_expectSymbol .openBrace)
          intro _
          exact .bind (passes_switchClauses none fuel).movesOn fun _ => .pure _
      | matchWord =>
          apply Passes.bind passes_next
          intro _
          apply MovesOn.bind (movesOn_expression fuel)
          intro scrutinee
          apply MovesOn.bind (movesOn_expectSymbol .openBrace)
          intro _
          exact .bind (passes_matchClauses none fuel).movesOn fun _ => .pure _
      | tryWord =>
          apply Passes.bind passes_next
          intro _
          apply MovesOn.bind (passes_block fuel).movesOn
          intro body
          apply MovesOn.bind (movesOn_expectKeyword .catchWord .handler)
          intro _
          apply MovesOn.bind movesOn_peek
          intro binding
          apply MovesOn.ite
          · apply MovesOn.bind movesOn_next
            intro _
            exact .bind (passes_block fuel).movesOn fun _ => .pure _
          · exact .bind (passes_block fuel).movesOn fun _ => .pure _
      | overlay =>
          apply Passes.bind (passes_overlays fuel)
          intro run
          apply MovesOn.bind movesOn_peek
          intro token
          exact .ite (.bind (passes_function run fuel).movesOn fun _ => .pure _) (.pure _)
      | fnWord | method | routine => exact .bind (passes_function [] fuel) fun _ => .pure _
      | classWord | structWord => exact .bind (passes_classDeclaration fuel) fun _ => .pure _
      | _ => exact .bind (passes_keywordAction _ fuel) fun _ => .pure _

theorem passes_branch (line : Nat) : ∀ fuel, Passes (branch line fuel)
  | 0 => passes_tooDeep
  | fuel + 1 => by
      rw [branch]
      apply Passes.bind passes_next
      intro _
      apply MovesOn.bind (movesOn_expression fuel)
      intro condition
      apply MovesOn.bind (passes_block fuel).movesOn
      intro positive
      apply MovesOn.bind (movesOn_tryWord .elseWord)
      intro found
      apply MovesOn.ite
      · apply MovesOn.bind movesOn_peek
        intro token
        apply MovesOn.ite
        · exact .bind (passes_branch token.line fuel).movesOn fun _ => .pure _
        · exact .bind (passes_block fuel).movesOn fun _ => .pure _
      · exact .pure _

theorem passes_switchClauses (default : Option Block) : ∀ fuel,
    Passes (switchClauses default fuel)
  | 0 => passes_tooDeep
  | fuel + 1 => by
      rw [switchClauses]
      apply Passes.after movesOn_skipSeparators
      intro _
      apply Passes.attempt (attempts_tryPunctuation .closeBrace)
      · exact .pure _
      · apply Passes.attempt (attempts_tryWord .caseWord)
        · apply MovesOn.bind movesOn_literal
          intro label
          apply MovesOn.bind (passes_block fuel).movesOn
          intro body
          exact .bind (passes_switchClauses default fuel).movesOn fun _ => .pure _
        · apply Passes.attempt (attempts_tryWord .defaultWord)
          · apply MovesOn.bind (passes_block fuel).movesOn
            intro body
            exact (passes_switchClauses (some body) fuel).movesOn
          · exact passes_expected .switchClause

theorem passes_matchClauses (default : Option Block) : ∀ fuel, Passes (matchClauses default fuel)
  | 0 => passes_tooDeep
  | fuel + 1 => by
      rw [matchClauses]
      apply Passes.after movesOn_skipSeparators
      intro _
      apply Passes.attempt (attempts_tryPunctuation .closeBrace)
      · exact .pure _
      · apply Passes.attempt (attempts_tryWord .caseWord)
        · apply MovesOn.bind movesOn_pattern
          intro first
          apply MovesOn.bind (movesOn_morePatterns fuel)
          intro rest
          apply MovesOn.bind (passes_block fuel).movesOn
          intro body
          exact .bind (passes_matchClauses default fuel).movesOn fun _ => .pure _
        · apply Passes.attempt (attempts_tryWord .defaultWord)
          · apply MovesOn.bind (passes_block fuel).movesOn
            intro body
            exact (passes_matchClauses (some body) fuel).movesOn
          · exact passes_expected .matchClause

theorem passes_function (run : List Overlay) : ∀ fuel, Passes (function run fuel)
  | 0 => passes_tooDeep
  | fuel + 1 => by
      rw [function]
      apply Passes.bind passes_next
      intro keyword
      apply MovesOn.bind (movesOn_identifier .functionName)
      intro name
      apply MovesOn.bind (movesOn_parameterList name fuel)
      intro parameters
      apply MovesOn.bind (movesOn_optionalType .arrow fuel)
      intro result
      exact .bind (passes_block fuel).movesOn fun _ => .pure _

theorem passes_classDeclaration : ∀ fuel, Passes (classDeclaration fuel)
  | 0 => passes_tooDeep
  | fuel + 1 => by
      rw [classDeclaration]
      apply Passes.bind passes_next
      intro keyword
      apply MovesOn.bind (movesOn_identifier .className)
      intro name
      apply MovesOn.bind (movesOn_baseClasses fuel)
      intro bases
      apply MovesOn.bind (movesOn_expectSymbol .openBrace)
      intro _
      exact .bind (passes_members name _ [] fuel).movesOn fun _ => .pure _

theorem passes_members (name : String) (access : Access) (pending : List Overlay) : ∀ fuel,
    Passes (members name access pending fuel)
  | 0 => passes_tooDeep
  | fuel + 1 => by
      rw [members]
      apply Passes.after movesOn_skipSeparators
      intro _
      apply Passes.attempt (attempts_tryPunctuation .closeBrace)
      · exact .pure _
      · apply Passes.after movesOn_peek
        intro token
        cases token.access? with
        | some granted =>
            apply Passes.bind passes_next
            intro _
            apply MovesOn.bind (movesOn_expectSymbol .colon)
            intro _
            exact (passes_members name granted pending fuel).movesOn
        | none =>
            apply Passes.ite
            · apply Passes.bind (passes_declaration fuel)
              intro binding
              exact .bind (passes_members name access pending fuel).movesOn fun _ => .pure _
            · apply Passes.ite
              · apply Passes.bind (passes_overlay fuel)
                intro overlay
                apply MovesOn.bind movesOn_skipSeparators
                intro _
                apply MovesOn.bind movesOn_peek
                intro following
                apply MovesOn.ite
                · exact (passes_members name access (pending ++ [overlay]) fuel).movesOn
                · exact (passes_failHere .strayOverlay).movesOn
              · apply Passes.ite
                · apply Passes.bind (passes_function pending fuel)
                  intro method
                  exact .bind (passes_members name access [] fuel).movesOn fun _ => .pure _
                · exact passes_expected (.classMember name)

end

/-! ## At the end -/

/-- The reader does not succeed at the end of the tokens. -/
def StopsAtEnd (reader : Parser α) : Prop :=
  ∀ cursor value after, cursor.finish.kind = .finish → cursor.tokens = [] →
    reader cursor ≠ .ok value after

namespace StopsAtEnd

theorem bind {first : Parser α} {next : α → Parser β} (hfirst : StopsAtEnd first) :
    StopsAtEnd (first >>= next) := by
  intro cursor result after hfinish htokens hread
  obtain ⟨value, between, hvalue, -⟩ := exists_of_bind_eq_ok hread
  exact hfirst cursor value between hfinish htokens hvalue

theorem peek {next : Token → Parser α}
    (hnext : ∀ token, token.kind = .finish → StopsAtEnd (next token)) :
    StopsAtEnd (peek >>= next) := by
  intro cursor value after hfinish htokens hread
  rw [bind_of_ok (peek_apply cursor)] at hread
  have hhead : cursor.head.kind = .finish := by
    rw [Cursor.head, htokens]
    exact hfinish
  exact hnext cursor.head hhead cursor value after hfinish htokens hread

theorem expected (what : Expectation) : StopsAtEnd (expected what : Parser α) := by
  intro cursor value after _ _ hread
  cases hread

theorem attempt {attempt : Parser Bool} {yes no : Parser α} (hattempt : Attempts attempt)
    (hno : StopsAtEnd no) :
    StopsAtEnd (attempt >>= fun found => if found = true then yes else no) := by
  intro cursor value after hfinish htokens hread
  rcases hattempt cursor with ⟨hhead, -⟩ | hfound
  · exact Cursor.tokens_ne_nil hfinish hhead htokens
  · rw [bind_of_ok hfound, if_neg Bool.false_ne_true] at hread
    exact hno cursor value after hfinish htokens hread

end StopsAtEnd

theorem stopsAtEnd_tooDeep : StopsAtEnd (tooDeep : Parser α) := by
  intro cursor value after _ _ hread
  cases hread

theorem stopsAtEnd_identifier (what : Expectation) : StopsAtEnd (identifier what) := by
  apply StopsAtEnd.peek
  intro token hkind
  rw [if_neg (by simp [Token.isIdentifier, hkind])]
  exact .expected what

theorem stopsAtEnd_primary (fuel : Nat) : StopsAtEnd (primary fuel) := by
  cases fuel with
  | zero => exact stopsAtEnd_tooDeep
  | succ fuel =>
      rw [primary]
      apply StopsAtEnd.peek
      intro token hkind
      rw [hkind]
      exact .expected .expression

theorem stopsAtEnd_unary (fuel : Nat) : StopsAtEnd (unary fuel) := by
  cases fuel with
  | zero => exact stopsAtEnd_tooDeep
  | succ fuel =>
      rw [unary]
      apply StopsAtEnd.peek
      intro token hkind
      rw [Token.unaryOp?, hkind]
      exact .bind (stopsAtEnd_primary fuel)

/-- No operand stands at the end, so no expression does. -/
theorem stopsAtEnd_expression (fuel : Nat) : StopsAtEnd (expression fuel) := by
  rcases fuel with _ | _ | fuel
  · exact stopsAtEnd_tooDeep
  · rw [expression]
    exact .bind stopsAtEnd_tooDeep
  · rw [expression]
    apply StopsAtEnd.bind
    rw [binary]
    exact .bind (stopsAtEnd_unary fuel)

theorem stopsAtEnd_assignmentTarget (fuel : Nat) : StopsAtEnd (assignmentTarget fuel) := by
  apply StopsAtEnd.peek
  intro token hkind
  exact .bind (stopsAtEnd_identifier .assignmentTarget)

theorem stopsAtEnd_block (fuel : Nat) : StopsAtEnd (block fuel) := by
  cases fuel with
  | zero => exact stopsAtEnd_tooDeep
  | succ fuel =>
      rw [block]
      apply StopsAtEnd.peek
      intro token hkind
      apply StopsAtEnd.attempt (attempts_tryPunctuation .openBrace)
      exact .attempt (attempts_tryPunctuation .openParen) (.expected .block)

end Parser

/-! ## Positions -/

/-- The cursor stands at a position in a list of tokens, at the latest at the first finishing token
or, where there is none, behind the last. -/
structure Cursor.At (source : List Token) (position : Nat) (cursor : Cursor) : Prop where
  le_finish : position ≤ source.findIdx (·.kind == .finish)
  tokens : cursor.tokens = (ofTokens source).tokens.drop position
  finish : cursor.finish = (ofTokens source).finish

namespace Cursor

theorem length_ofTokens (source : List Token) :
    (ofTokens source).tokens.length = source.findIdx (·.kind == .finish) := by
  have htake : (ofTokens source).tokens = source.take (source.findIdx (·.kind == .finish)) := by
    rw [ofTokens, List.takeWhile_eq_take_findIdx_not]
    simp only [bne, Bool.not_not]
  rw [htake, List.length_take, Nat.min_eq_left List.findIdx_le_length]

/-- Reading starts at the first position. -/
theorem at_ofTokens (source : List Token) : (ofTokens source).At source 0 :=
  ⟨Nat.zero_le _, rfl, rfl⟩

variable {source : List Token} {position : Nat} {cursor after : Cursor}

theorem At.exists_later (hat : cursor.At source position) (honward : cursor.Onward after)
    (hless : after.tokens.length < cursor.tokens.length) :
    ∃ later, position < later ∧ after.At source later := by
  have hsuffix : after.tokens <:+ (ofTokens source).tokens :=
    honward.tokens.trans (hat.tokens ▸ List.drop_suffix position _)
  rw [hat.tokens, List.length_drop] at hless
  refine ⟨(ofTokens source).tokens.length - after.tokens.length, by omega, ?_, ?_, ?_⟩
  · rw [length_ofTokens]
    exact Nat.sub_le _ _
  · exact List.suffix_iff_eq_drop.mp hsuffix
  · exact honward.finish.trans hat.finish

end Cursor

namespace Parser

variable {α : Type}

/-- Where the reader succeeds from such a cursor among the tokens, it moves it to a later
position. -/
def Advances (source : List Token) (start : Cursor → Prop) (reader : Parser α) : Prop :=
  ∀ position cursor value after, cursor.At source position → start cursor →
    reader cursor = .ok value after → ∃ later, position < later ∧ after.At source later

theorem Passes.advances {reader : Parser α} (hpasses : Passes reader) (source : List Token) :
    Advances source (·.head.kind ≠ .finish) reader := by
  intro position cursor value after hat hhead hread
  obtain ⟨honward, hshorter⟩ := hpasses cursor value after hread
  have hfinish : cursor.finish.kind = .finish := hat.finish ▸ Cursor.finish_ofTokens source
  exact hat.exists_later honward (hshorter (Cursor.tokens_ne_nil hfinish hhead))

/-- A reader that stops at the end advances from everywhere. -/
theorem StopsAtEnd.advances {reader : Parser α} (hstops : StopsAtEnd reader)
    (hpasses : Passes reader) (source : List Token) :
    Advances source (fun _ => True) reader := by
  intro position cursor value after hat _ hread
  obtain ⟨honward, hshorter⟩ := hpasses cursor value after hread
  have hfinish : cursor.finish.kind = .finish := hat.finish ▸ Cursor.finish_ofTokens source
  apply hat.exists_later honward
  apply hshorter
  intro htokens
  exact hstops cursor value after hfinish htokens hread

end Parser

end Tide
