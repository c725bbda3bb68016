import Tide.Proofs.Overlay.Follows
import Tide.Proofs.Overlay.Tree

/-!
# Overlays while reading

Reading with a buffer gives what reading without one gives.  Between two statements the buffer is
empty, and the trace accounts for all that takes overlays in the tree that was read.  There is one
theorem for each reader.
-/

namespace Tide

namespace Parser

variable {α β : Type}

/-! ## Statements without blocks -/

/-- The reader reads no statement of directives. -/
def ReadsNoDirective (reader : Parser Action) : Prop :=
  ∀ cursor action after, reader cursor = .ok action after → action.NoDirective

namespace ReadsNoDirective

theorem pure {action : Action} (haction : action.NoDirective) :
    ReadsNoDirective (Pure.pure action) := by
  intro cursor value after hread
  cases hread
  exact haction

theorem bind {first : Parser α} {next : α → Parser Action}
    (hnext : ∀ value, ReadsNoDirective (next value)) : ReadsNoDirective (first >>= next) := by
  intro cursor action after hread
  obtain ⟨value, between, -, hnextRead⟩ := exists_of_bind_eq_ok hread
  exact hnext value between action after hnextRead

theorem failAt (line : Nat) (cause : ParseCause) :
    ReadsNoDirective (Parser.failAt line cause) := by
  intro cursor action after hread
  cases hread

theorem ite {condition : Prop} [Decidable condition] {yes no : Parser Action}
    (hyes : ReadsNoDirective yes) (hno : ReadsNoDirective no) :
    ReadsNoDirective (if condition then yes else no) :=
  iteInduction (fun _ => hyes) fun _ => hno

end ReadsNoDirective

theorem readsNoDirective_keywordAction (word : Keyword) (fuel : Nat) :
    ReadsNoDirective (keywordAction word fuel) := by
  cases word with
  | letWord | constWord | trueWord | falseWord => exact .bind fun _ => .pure nofun
  | print | returnWord | input | throwWord => exact .bind fun _ => .bind fun _ => .pure nofun
  | channel | send | bounds => exact .bind fun _ => .bind fun _ => .bind fun _ => .pure nofun
  | read | write | append | recv | mutate =>
      exact .bind fun _ => .bind fun _ => .bind fun _ => .bind fun _ => .pure nofun
  | scale | duration =>
      exact .bind fun _ => .bind fun _ => .bind fun _ => .bind fun _ => .bind fun _ => .pure nofun
  | derivative =>
      refine .bind fun _ => .bind fun _ => .bind fun _ => .bind fun _ => .bind fun _ => ?_
      exact .bind fun _ => .pure nofun
  | checkpoint =>
      exact .bind fun _ => .bind fun _ => .ite (.bind fun _ => .pure nofun) (.pure nofun)
  | splice =>
      refine .bind fun _ => .bind fun _ => .ite (.bind fun _ => .pure nofun) ?_
      exact .bind fun _ => .failAt _ _
  | _ => exact .bind fun _ => .pure nofun

theorem follows_keywordAction {account : Account} (word : Keyword) (fuel : Nat) :
    Follows (Stable account) (liftM (keywordAction word fuel)) (keywordAction word fuel)
      (fun action cursor buffer => Stable account cursor buffer ∧ action.NoDirective) := by
  refine .lift fun cursor buffer action after hstable hread => ?_
  have honward := (passes_keywordAction word fuel cursor action after hread).onward
  exact ⟨hstable.onward honward, readsNoDirective_keywordAction word fuel cursor action after hread⟩

/-! ## Directives -/

section

variable {account : Account} {run : List Overlay}

theorem Buffered.directive_of_ok {fuel : Nat} {buffer : Buffer} {cursor rest : Cursor}
    {overlay : Overlay} (hread : Parser.directive fuel cursor = .ok overlay rest) :
    directive fuel buffer cursor = .ok (overlay, ⟨buffer.pending ++ [overlay],
      buffer.trace.seq (.event (.directive cursor overlay rest))⟩) rest := by
  have hlift : (liftM (Parser.directive fuel) : Buffered Overlay) buffer cursor =
      .ok (overlay, buffer) rest := bind_of_ok hread
  exact bind_of_ok hlift

theorem Buffered.directive_of_error {fuel : Nat} {buffer : Buffer} {cursor rest : Cursor}
    {error : ParseError} (hread : Parser.directive fuel cursor = .error error rest) :
    directive fuel buffer cursor = .error error rest := by
  simp [directive, here, liftM, monadLift, MonadLift.monadLift, StateT.lift, bind, StateT.bind,
    EStateM.bind, pure, EStateM.pure, hread]

/-- The cursor is at a directive, and the run before it is in the buffer. -/
def AtDirective (account : Account) (run : List Overlay) (cursor : Cursor) (buffer : Buffer) :
    Prop :=
  Waiting account run cursor buffer ∧ cursor.head.isKeyword .overlay = true

theorem Follows.directive {fuel : Nat} {next : Overlay → Buffered α}
    {nextReader : Overlay → Parser α} {post : α → Cursor → Buffer → Prop}
    (hnext : ∀ overlay, Follows (Waiting account (run ++ [overlay])) (next overlay)
      (nextReader overlay) post) :
    Follows (AtDirective account run) (Buffered.directive fuel >>= next)
      (overlay fuel >>= fun overlay => skipSeparators >>= fun _ => nextReader overlay) post := by
  have hreader : (overlay fuel >>= fun overlay => skipSeparators >>= fun _ => nextReader overlay) =
      Parser.directive fuel >>= nextReader := by
    simp [Parser.directive]
  rw [hreader]
  refine Follows.bind ?_ hnext
  intro cursor buffer ⟨hwaiting, hword⟩
  cases hread : Parser.directive fuel cursor with
  | error error after =>
      rw [Buffered.directive_of_error hread]
      exact .error
  | ok overlay rest =>
      rw [Buffered.directive_of_ok hread]
      exact .ok (hwaiting.directive hword hread)

/-- A run of directives is in the buffer, and no other directive follows. -/
def BehindRun (account : Account) (run : List Overlay) (cursor : Cursor) (buffer : Buffer) :
    Prop :=
  Waiting account run cursor buffer ∧ run ≠ [] ∧ cursor.head.isKeyword .overlay = false

/-- A run of directives is read to its end. -/
theorem follows_directives (fuel : Nat) :
    Follows (AtDirective account run) (Buffered.directives fuel) (overlays fuel)
      (fun more => BehindRun account (run ++ more)) := by
  induction fuel generalizing run with
  | zero => exact follows_tooDeep
  | succ fuel ih =>
      rw [Buffered.directives, overlays]
      refine .directive fun overlay => ?_
      refine .peek fun token => ?_
      refine .ite (fun hword => ?_) (fun hword => ?_)
      · refine .weaken (.bind ih fun rest => .pure fun cursor buffer hpost => ?_)
          fun cursor buffer hpre => ⟨hpre.1, hpre.2 ▸ hword⟩
        rw [List.append_assoc] at hpost
        exact hpost
      · refine .pure fun cursor buffer hpre => ⟨hpre.1, List.append_ne_nil_of_right_ne_nil _ ?_, ?_⟩
        · exact List.cons_ne_nil overlay []
        · rw [hpre.2]
          exact Bool.eq_false_of_not_eq_true hword

/-- A run that no function follows becomes a statement of its own. -/
theorem follows_release (line : Nat) {token : Token} (htoken : token.startsFunction = false) :
    Follows (fun cursor buffer => BehindRun account run cursor buffer ∧ cursor.head = token)
      (do
        let place ← here
        let run ← Buffered.handOver place (.statement line)
        return Stmt.simple line (.directive run))
      (pure (Stmt.simple line (.directive run)))
      (fun statement => Stable (account.add statement.takers)) := by
  refine .here fun place => ?_
  refine .handOver (fun cursor buffer hpre => ?_) (.done rfl)
  obtain ⟨⟨⟨hwaiting, hrun, hdirective⟩, rfl⟩, rfl⟩ := hpre
  rw [Stmt.takers_directive]
  exact ⟨hwaiting.pending, hwaiting.handOver
    (fun start log hlog => .toStatement hlog hrun hdirective htoken .nil) (.refl cursor)⟩

end

/-! ## Functions and members -/

/-- The cursor is in the head of a function that starts at `place`. -/
def InHead (account : Account) (run : List Overlay) (place cursor : Cursor) (buffer : Buffer) :
    Prop :=
  Waiting account run place buffer ∧ place.head.startsFunction = true ∧ place.Onward cursor

/-- The cursor is at the start of a function. -/
def AtFunction (account : Account) (run : List Overlay) (cursor : Cursor) (buffer : Buffer) :
    Prop :=
  Waiting account run cursor buffer ∧ cursor.head.startsFunction = true

/-- The token starts a method, or a directive in front of one. -/
def startsMethod (token : Token) : Bool :=
  token.isKeyword .overlay || token.startsFunction

/-- The cursor is between two members.  Behind a directive, another one or a function follows. -/
def AtMember (account : Account) (run : List Overlay) (cursor : Cursor) (buffer : Buffer) :
    Prop :=
  Waiting account run cursor buffer ∧ (run ≠ [] → startsMethod cursor.head = true)

theorem kind_of_startsMethod {token : Token} (hstarts : startsMethod token = true) :
    token.kind = .keyword .overlay ∨ token.kind = .keyword .fnWord ∨
      token.kind = .keyword .method ∨ token.kind = .keyword .routine := by
  rcases token with ⟨kind, text, line⟩
  cases kind with
  | keyword word =>
      cases word <;>
        simp_all [startsMethod, Token.startsFunction, Token.isKeyword, Keyword.startsFunction]
  | _ => simp_all [startsMethod, Token.startsFunction, Token.isKeyword]

section

variable {account : Account} {cursor : Cursor} {run : List Overlay} {buffer : Buffer}

theorem Follows.inHead {leaf : Parser β} {next : β → Buffered α} {nextReader : β → Parser α}
    {post : α → Cursor → Buffer → Prop} {place : Cursor} (hmoves : MovesOn leaf)
    (hnext : ∀ value, Follows (InHead account run place) (next value) (nextReader value) post) :
    Follows (InHead account run place) (liftM leaf >>= next) (leaf >>= nextReader) post :=
  .onward (fun _ _ _ hpre honward => ⟨hpre.1, hpre.2.1, hpre.2.2.trans honward⟩) hmoves hnext

/-- What looks for something else does not move the cursor where a method or a directive starts. -/
theorem Follows.atMember {leaf : Parser β} {value : β} (hmoves : MovesOn leaf)
    (hstays : ∀ cursor : Cursor, startsMethod cursor.head = true →
      leaf cursor = .ok value cursor) :
    Follows (AtMember account run) (liftM leaf) leaf (fun found cursor buffer =>
      AtMember account run cursor buffer ∧ (run ≠ [] → found = value)) := by
  refine .lift fun cursor buffer found after hpre hread => ?_
  by_cases hrun : run = []
  · subst hrun
    have hstable := hpre.1.stable.onward (hmoves cursor found after hread)
    exact ⟨⟨hstable.waiting, fun hrun => absurd rfl hrun⟩, fun hrun => absurd rfl hrun⟩
  · rw [hstays cursor (hpre.2 hrun)] at hread
    cases hread
    exact ⟨hpre, fun _ => rfl⟩

theorem skipSeparators_of_startsMethod (cursor : Cursor)
    (hstarts : startsMethod cursor.head = true) :
    skipSeparators cursor = .ok () cursor := by
  rcases cursor with ⟨_ | ⟨token, rest⟩, finish, notes⟩
  · rfl
  · have hsign : ¬token.isSymbol .semicolon = true := by
      rcases kind_of_startsMethod hstarts with hkind | hkind | hkind | hkind <;>
        simp_all [Cursor.head, Token.isSymbol]
    have htokens : (token :: rest).dropWhile (·.isSymbol .semicolon) = token :: rest :=
      List.dropWhile_cons_of_neg hsign
    simp only [skipSeparators, htokens]

theorem tryPunctuation_of_startsMethod (cursor : Cursor)
    (hstarts : startsMethod cursor.head = true) :
    tryPunctuation .closeBrace cursor = .ok false cursor := by
  apply tryPunctuation_of_not
  rcases kind_of_startsMethod hstarts with hkind | hkind | hkind | hkind <;>
    simp [Token.isSymbol, hkind]

/-- Where neither a method nor a directive starts, nothing is kept in the buffer. -/
theorem AtMember.eq_nil (hpre : AtMember account run cursor buffer)
    (hplain : startsMethod cursor.head = false) : run = [] := by
  by_contra hrun
  rw [hpre.2 hrun] at hplain
  cases hplain

theorem startsMethod_of_access? {token : Token} {access : Access}
    (haccess : token.access? = some access) : startsMethod token = false := by
  by_contra hstarts
  rcases kind_of_startsMethod (Bool.eq_true_of_not_eq_false hstarts) with hkind | hkind | hkind |
    hkind <;> simp [Token.access?, hkind] at haccess

theorem startsMethod_of_declaration {token : Token}
    (hword : (token.isKeyword .letWord || token.isKeyword .constWord) = true) :
    startsMethod token = false := by
  by_contra hstarts
  rcases kind_of_startsMethod (Bool.eq_true_of_not_eq_false hstarts) with hkind | hkind | hkind |
    hkind <;> simp [Token.isKeyword, hkind] at hword

theorem atMember_of_stable (hstable : Stable account cursor buffer) :
    AtMember account [] cursor buffer :=
  ⟨hstable.waiting, fun hrun => absurd rfl hrun⟩

end

/-! ## Statements with blocks

By recursion on the nesting, as the readers go.  Only functions and members start with a run in the
buffer; all other readers start and end between two statements.
-/

mutual

theorem follows_block (account : Account) : ∀ fuel,
    Follows (Stable account) (Buffered.block fuel) (block fuel)
      (fun body => Stable (account.add body.takers))
  | 0 => follows_tooDeep
  | fuel + 1 => by
      rw [Buffered.block, block]
      refine .read movesOn_peek fun opening => ?_
      refine .read (movesOn_tryPunctuation .openBrace) fun brace => ?_
      refine .ite (fun _ => ?_) (fun _ => ?_)
      · exact .bind (follows_statements account _ _ fuel) fun _ => .done rfl
      · refine .read (movesOn_tryPunctuation .openParen) fun paren => ?_
        refine .ite (fun _ => ?_) (fun _ => follows_expected .block)
        exact .bind (follows_statements account _ _ fuel) fun _ => .done rfl

theorem follows_statements (account : Account) (line : Nat) (close : Symbol) : ∀ fuel,
    Follows (Stable account) (Buffered.statements line close fuel) (statements line close fuel)
      (fun statements => Stable (account.add (Program.takers statements)))
  | 0 => follows_tooDeep
  | fuel + 1 => by
      rw [Buffered.statements, statements]
      refine .read movesOn_skipSeparators fun _ => ?_
      refine .read (movesOn_tryPunctuation close) fun closed => ?_
      refine .ite (fun _ => .done account.add_nil.symm) (fun _ => ?_)
      refine .read movesOn_peek fun token => ?_
      refine .ite (fun _ => .fail fun _ => ⟨_, rfl⟩) (fun _ => ?_)
      refine .bind (follows_statement account fuel) fun statement => ?_
      refine .bind (follows_statements _ line close fuel) fun rest => ?_
      exact .done (by rw [Program.takers_cons, Account.add_add])

/-- Between statements the buffer is empty again. -/
theorem follows_statement (account : Account) : ∀ fuel,
    Follows (Stable account) (Buffered.statement fuel) (statement fuel)
      (fun statement => Stable (account.add statement.takers))
  | 0 => follows_tooDeep
  | fuel + 1 => by
      rw [Buffered.statement, statement]
      refine .bracketed fun place => ?_
      refine .peek fun token => ?_
      have hassignment : Follows (fun cursor buffer =>
          Stable (.empty place) cursor buffer ∧ cursor.head = token)
          (liftM (assignment? fuel)) (assignment? fuel)
          (fun assignment cursor buffer => Stable (.empty place) cursor buffer ∧
            (assignment = none → cursor.head = token) ∧
            ∀ action, assignment = some action → action.NoDirective) := by
        refine .lift fun cursor buffer assignment after hpre hread => ?_
        rcases assignment?_cases hread with ⟨rfl, rfl⟩ | ⟨hpast, ⟨_, _, _, rfl⟩ | ⟨_, _, rfl⟩⟩
        · exact ⟨hpre.1, fun _ => hpre.2, nofun⟩
        · exact ⟨hpre.1.onward hpast.onward, nofun,
            fun _ haction => Option.some.inj haction ▸ nofun⟩
        · exact ⟨hpre.1.onward hpast.onward, nofun,
            fun _ haction => Option.some.inj haction ▸ nofun⟩
      refine .bind hassignment fun assignment => ?_
      cases assignment with
      | some action =>
          refine .pure fun cursor buffer hpre => hpre.1.of_eq ?_
          rw [Stmt.takers_simple (hpre.2.2 action rfl), Account.add_nil]
      | none =>
          cases hkind : token.kind with
          | keyword word =>
              refine .weaken (follows_keywordStatement (.empty place) token.line word fuel) ?_
              intro cursor buffer hpre
              exact ⟨hpre.1, hpre.2.1 rfl ▸ hkind⟩
          | _ =>
              refine .weaken ?_ fun cursor buffer hpre => hpre.1
              refine .ite (fun _ => ?_) (fun _ => ?_)
              · exact .read (movesOn_expression fuel) fun _ => .done rfl
              · refine .read movesOn_next fun _ => ?_
                exact .read (movesOn_note _) fun _ => .done rfl

theorem follows_keywordStatement (account : Account) (line : Nat) (word : Keyword) : ∀ fuel,
    Follows (fun cursor buffer => Stable account cursor buffer ∧ cursor.head.kind = .keyword word)
      (Buffered.keywordStatement line word fuel) (keywordStatement line word fuel)
      (fun statement => Stable (account.add statement.takers))
  | 0 => follows_tooDeep
  | fuel + 1 => by
      cases word with
      | overlay =>
          have hdirectives := follows_directives fuel |>.weaken
            fun cursor buffer (hpre : Stable account cursor buffer ∧
              cursor.head.kind = .keyword .overlay) =>
            ⟨hpre.1.waiting, decide_eq_true hpre.2⟩
          refine .bind hdirectives fun run => ?_
          refine .peek fun token => ?_
          refine .ite (fun hfunction => ?_) (fun hfunction => ?_)
          · refine .weaken (.bind (follows_function account run fuel) fun _ => .done rfl)
              fun cursor buffer hpre => ?_
            exact ⟨hpre.1.1, hpre.2 ▸ hfunction⟩
          · exact follows_release line (Bool.eq_false_of_not_eq_true hfunction)
      | fnWord | method | routine =>
          refine .weaken (.bind (follows_function account [] fuel) fun _ => .done rfl)
            fun cursor buffer hpre => ⟨hpre.1.waiting, ?_⟩
          rw [Token.startsFunction, hpre.2]
          rfl
      | ifWord => exact (follows_branch account line fuel).weaken fun _ _ hpre => hpre.1
      | whileWord | schedule =>
          refine .weaken ?_ fun cursor buffer hpre => hpre.1
          refine .read movesOn_next fun _ => ?_
          refine .read (movesOn_expression fuel) fun condition => ?_
          exact .bind (follows_block account fuel) fun body => .done (by rw [Stmt.takers_nested])
      | forWord =>
          refine .weaken ?_ fun cursor buffer hpre => hpre.1
          refine .read movesOn_next fun _ => ?_
          refine .read (movesOn_rawText .loopHeader) fun header => ?_
          exact .bind (follows_block account fuel) fun body => .done rfl
      | pureWord =>
          refine .weaken ?_ fun cursor buffer hpre => hpre.1
          refine .read movesOn_next fun _ => ?_
          exact .bind (follows_block account fuel) fun body => .done rfl
      | switchWord =>
          refine .weaken ?_ fun cursor buffer hpre => hpre.1
          refine .read movesOn_next fun _ => ?_
          refine .read (movesOn_expression fuel) fun scrutinee => ?_
          refine .read (movesOn_expectSymbol .openBrace) fun _ => ?_
          refine .bind (.choice fun place => follows_switchClauses (.empty place) none rfl fuel)
            fun clauses => ?_
          exact .done (by rw [Stmt.takers_switch])
      | matchWord =>
          refine .weaken ?_ fun cursor buffer hpre => hpre.1
          refine .read movesOn_next fun _ => ?_
          refine .read (movesOn_expression fuel) fun scrutinee => ?_
          refine .read (movesOn_expectSymbol .openBrace) fun _ => ?_
          refine .bind (.choice fun place => follows_matchClauses (.empty place) none rfl fuel)
            fun clauses => ?_
          exact .done (by rw [Stmt.takers_select])
      | tryWord =>
          refine .weaken ?_ fun cursor buffer hpre => hpre.1
          refine .read movesOn_next fun _ => ?_
          refine .bind (follows_block account fuel) fun body => ?_
          refine .read (movesOn_expectKeyword .catchWord .handler) fun _ => ?_
          refine .read movesOn_peek fun binding => ?_
          refine .ite (fun _ => ?_) (fun _ => ?_)
          · refine .read movesOn_next fun _ => ?_
            refine .bind (follows_block _ fuel) fun handler => .done ?_
            rw [Stmt.takers_attempt, Account.add_add]
          · refine .bind (follows_block _ fuel) fun handler => .done ?_
            rw [Stmt.takers_attempt, Account.add_add]
      | classWord | structWord =>
          refine .weaken ?_ fun cursor buffer hpre => hpre.1
          refine .bind (follows_classDeclaration account fuel) fun declaration => ?_
          exact .done (by rw [Stmt.takers_classDecl])
      | _ =>
          refine .weaken ?_ fun cursor buffer hpre => hpre.1
          refine .bind (follows_keywordAction _ fuel) fun action => ?_
          refine .pure fun cursor buffer hpre => hpre.1.of_eq ?_
          rw [Stmt.takers_simple hpre.2, Account.add_nil]

theorem follows_branch (account : Account) (line : Nat) : ∀ fuel,
    Follows (Stable account) (Buffered.branch line fuel) (branch line fuel)
      (fun statement => Stable (account.add statement.takers))
  | 0 => follows_tooDeep
  | fuel + 1 => by
      rw [Buffered.branch, branch]
      refine .read movesOn_next fun _ => ?_
      refine .read (movesOn_expression fuel) fun condition => ?_
      refine .bind (follows_block account fuel) fun positive => ?_
      refine .read (movesOn_tryWord .elseWord) fun otherwise => ?_
      refine .ite (fun _ => ?_) (fun _ => .done (by rw [Stmt.takers_branch_none]))
      refine .read movesOn_peek fun token => ?_
      refine .ite (fun _ => ?_) (fun _ => ?_)
      · refine .bind (follows_branch _ token.line fuel) fun negative => .done ?_
        rw [Stmt.takers_branch_some, Account.add_add]
      · refine .bind (follows_block _ fuel) fun negative => .done ?_
        rw [Stmt.takers_branch_some, Stmt.takers_nested, Account.add_add]

theorem follows_switchClauses (account : Account) (default : Option Block)
    (hdefault : account.held.getLastD [] = Block.fallbackTakers default) : ∀ fuel,
    Follows (Stable account) (Buffered.switchClauses default fuel) (switchClauses default fuel)
      (fun clauses => ClausesRead account (SwitchCase.takers clauses.1)
        (Block.fallbackTakers clauses.2))
  | 0 => follows_tooDeep
  | fuel + 1 => by
      rw [Buffered.switchClauses, switchClauses]
      refine .read movesOn_skipSeparators fun _ => ?_
      refine .read (movesOn_tryPunctuation .closeBrace) fun closed => ?_
      refine .ite (fun _ => .pure fun cursor buffer hstable => ?_) (fun _ => ?_)
      · exact ⟨account.held, hstable.of_eq account.add_nil.symm, hdefault⟩
      refine .read (movesOn_tryWord .caseWord) fun case => ?_
      refine .ite (fun _ => ?_) (fun _ => ?_)
      · refine .read movesOn_literal fun label => ?_
        refine .bind (follows_block account fuel) fun body => ?_
        refine .bind (follows_switchClauses (account.add body.takers) default hdefault fuel)
          fun clauses => .pure fun cursor buffer hclauses => ?_
        rw [SwitchCase.takers_cons]
        exact hclauses.of_add
      · refine .read (movesOn_tryWord .defaultWord) fun word => ?_
        refine .ite (fun _ => ?_) (fun _ => follows_expected .switchClause)
        refine .bind (.fallback fun place => follows_block (.empty place) fuel) fun body => ?_
        -- A second default clause takes the place of the first, whose overlays are then lost.
        have hlast : (account.hold body.takers).held.getLastD [] = body.takers :=
          List.getLastD_concat ..
        exact follows_switchClauses (account.hold body.takers) (some body) hlast fuel

theorem follows_matchClauses (account : Account) (default : Option Block)
    (hdefault : account.held.getLastD [] = Block.fallbackTakers default) : ∀ fuel,
    Follows (Stable account) (Buffered.matchClauses default fuel) (matchClauses default fuel)
      (fun clauses => ClausesRead account (MatchArm.takers clauses.1)
        (Block.fallbackTakers clauses.2))
  | 0 => follows_tooDeep
  | fuel + 1 => by
      rw [Buffered.matchClauses, matchClauses]
      refine .read movesOn_skipSeparators fun _ => ?_
      refine .read (movesOn_tryPunctuation .closeBrace) fun closed => ?_
      refine .ite (fun _ => .pure fun cursor buffer hstable => ?_) (fun _ => ?_)
      · exact ⟨account.held, hstable.of_eq account.add_nil.symm, hdefault⟩
      refine .read (movesOn_tryWord .caseWord) fun case => ?_
      refine .ite (fun _ => ?_) (fun _ => ?_)
      · refine .read movesOn_pattern fun pattern => ?_
        refine .read (movesOn_morePatterns fuel) fun patterns => ?_
        refine .bind (follows_block account fuel) fun body => ?_
        refine .bind (follows_matchClauses (account.add body.takers) default hdefault fuel)
          fun clauses => .pure fun cursor buffer hclauses => ?_
        rw [MatchArm.takers_cons]
        exact hclauses.of_add
      · refine .read (movesOn_tryWord .defaultWord) fun word => ?_
        refine .ite (fun _ => ?_) (fun _ => follows_expected .matchClause)
        refine .bind (.fallback fun place => follows_block (.empty place) fuel) fun body => ?_
        have hlast : (account.hold body.takers).held.getLastD [] = body.takers :=
          List.getLastD_concat ..
        exact follows_matchClauses (account.hold body.takers) (some body) hlast fuel

theorem follows_classDeclaration (account : Account) : ∀ fuel,
    Follows (Stable account) (Buffered.classDeclaration fuel) (classDeclaration fuel)
      (fun declaration => Stable (account.add (ClassMember.takers declaration.members)))
  | 0 => follows_tooDeep
  | fuel + 1 => by
      rw [Buffered.classDeclaration, classDeclaration]
      refine .read movesOn_next fun keyword => ?_
      refine .read (movesOn_identifier .className) fun name => ?_
      refine .read (movesOn_baseClasses fuel) fun bases => ?_
      refine .read (movesOn_expectSymbol .openBrace) fun _ => ?_
      refine .bind ((follows_members account name _ [] fuel).weaken ?_) fun _ => .done rfl
      exact fun _ _ => atMember_of_stable

theorem follows_members (account : Account) (name : String) (access : Access)
    (run : List Overlay) : ∀ fuel,
    Follows (AtMember account run) (Buffered.members name access fuel)
      (members name access run fuel)
      (fun members => Stable (account.add (ClassMember.takers members)))
  | 0 => follows_tooDeep
  | fuel + 1 => by
      rw [Buffered.members, members]
      refine .bind (.atMember movesOn_skipSeparators skipSeparators_of_startsMethod) fun _ => ?_
      refine .weaken ?_ fun cursor buffer hpre => hpre.1
      refine .bind (.atMember (movesOn_tryPunctuation .closeBrace) tryPunctuation_of_startsMethod)
        fun closed => ?_
      refine .ite (fun hclosed => ?_) (fun _ => ?_)
      · refine .pure fun cursor buffer hpre => ?_
        have hrun : run = [] := by
          by_contra hrun
          exact Bool.false_ne_true ((hpre.2 hrun).symm.trans hclosed)
        subst hrun
        exact hpre.1.1.stable.of_eq account.add_nil.symm
      refine .weaken ?_ fun cursor buffer hpre => hpre.1
      refine .peek fun token => ?_
      -- A label or a field cannot stand behind a directive, so there the buffer is empty.
      cases haccess : token.access? with
      | some label =>
          refine .given (fun cursor buffer hpre => hpre.1.eq_nil
            (hpre.2 ▸ startsMethod_of_access? haccess)) fun hrun => ?_
          subst hrun
          refine .weaken ?_ fun cursor buffer hpre => hpre.1.1.stable
          refine .read movesOn_next fun _ => ?_
          refine .read (movesOn_expectSymbol .colon) fun _ => ?_
          exact (follows_members account name label [] fuel).weaken
            fun _ _ => atMember_of_stable
      | none =>
          refine .ite (fun hfield => ?_) fun _ => .ite (fun hoverlay => ?_) fun _ =>
            .ite (fun hfunction => ?_) fun _ => follows_expected (.classMember name)
          · refine .given (fun cursor buffer hpre => hpre.1.eq_nil
              (hpre.2 ▸ startsMethod_of_declaration hfield)) fun hrun => ?_
            subst hrun
            refine .weaken ?_ fun cursor buffer hpre => hpre.1.1.stable
            refine .read (passes_declaration fuel).movesOn fun binding => ?_
            refine .bind ((follows_members account name access [] fuel).weaken
              fun _ _ => atMember_of_stable) fun rest => .done ?_
            rw [ClassMember.takers_field]
          · refine .weaken (.directive fun overlay => ?_)
              fun cursor buffer hpre => ⟨hpre.1.1, hpre.2 ▸ hoverlay⟩
            refine .peek fun following => ?_
            refine .ite (fun hfollowing => ?_) (fun _ => .fail fun _ => ⟨_, rfl⟩)
            exact (follows_members account name access (run ++ [overlay]) fuel).weaken
              fun cursor buffer hpre => ⟨hpre.1, fun _ => hpre.2 ▸ hfollowing⟩
          · refine .weaken (.bind (follows_function account run fuel) fun method => ?_)
              fun cursor buffer hpre => ⟨hpre.1.1, hpre.2 ▸ hfunction⟩
            refine .bind ((follows_members _ name access [] fuel).weaken
              fun _ _ => atMember_of_stable) fun rest => .done ?_
            rw [ClassMember.takers_method, Account.add_add]

theorem follows_function (account : Account) (run : List Overlay) : ∀ fuel,
    Follows (AtFunction account run) (Buffered.function fuel) (function run fuel)
      (fun declaration => Stable (account.add declaration.takers))
  | 0 => follows_tooDeep
  | fuel + 1 => by
      rw [Buffered.function, function]
      refine .here fun place => ?_
      refine .weaken (?_ : Follows (InHead account run place) _ _ _) ?_
      · refine .inHead movesOn_next fun keyword => ?_
        refine .inHead (movesOn_identifier .functionName) fun name => ?_
        refine .inHead (movesOn_parameterList name fuel) fun parameters => ?_
        refine .inHead (movesOn_optionalType .arrow fuel) fun result => ?_
        refine .handOver (fun cursor buffer hpre => ⟨hpre.1.pending, hpre.1.handOver
          (fun start log hrun => .toFunction hrun hpre.2.1 .nil) hpre.2.2⟩) ?_
        refine .bind (follows_block _ fuel) fun body => .done ?_
        rw [FunctionDecl.takers_eq, Account.add_add]
        rfl
      · rintro cursor buffer ⟨hpre, rfl⟩
        exact ⟨hpre.1, hpre.2, .refl cursor⟩

end

/-- After a program, the account has all that takes overlays in it. -/
theorem follows_topLevel (account : Account) (fuel : Nat) :
    Follows (Stable account) (Buffered.topLevel fuel) (topLevel fuel)
      (fun program => Stable (account.add (Program.takers program))) := by
  induction fuel generalizing account with
  | zero => exact follows_tooDeep
  | succ fuel ih =>
      rw [Buffered.topLevel, topLevel]
      refine .read movesOn_skipSeparators fun _ => ?_
      refine .read movesOn_peek fun token => ?_
      refine .ite (fun _ => .done account.add_nil.symm) (fun _ => ?_)
      refine .bind (follows_statement account fuel) fun statement => ?_
      refine .bind (ih _) fun rest => .done ?_
      rw [Program.takers_cons, Account.add_add]

end Parser

end Tide
