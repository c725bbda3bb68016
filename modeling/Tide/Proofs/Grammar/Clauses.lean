import Tide.Proofs.Grammar.Progress

/-!
# Clauses of a switch and of a match

Between the braces stand labelled clauses and default clauses, in any order and number.  All that
are labelled are kept with their bodies, in the order of the source.  Of the default clauses only
the last one is kept, so nothing is lost exactly when there is at most one.
-/

namespace Tide

/-- A clause as it is written. -/
inductive Clause (Label : Type) where
  | labelled (label : Label) (body : Block)
  | fallback (body : Block)

namespace Clause

variable {Label : Type}

def labelled? : Clause Label → Option (Label × Block)
  | labelled label body => some (label, body)
  | fallback _ => none

def fallback? : Clause Label → Option Block
  | labelled _ _ => none
  | fallback body => some body

/-- The labels with their bodies, in order. -/
def allLabelled (clauses : List (Clause Label)) : List (Label × Block) :=
  clauses.filterMap labelled?

/-- The bodies of the default clauses, in order. -/
def allFallbacks (clauses : List (Clause Label)) : List Block :=
  clauses.filterMap fallback?

theorem length_allLabelled_add (clauses : List (Clause Label)) :
    (allLabelled clauses).length + (allFallbacks clauses).length = clauses.length := by
  induction clauses with
  | nil => rfl
  | cons head tail ih =>
      cases head with
      | labelled label body =>
          have hlabelled : allLabelled (labelled label body :: tail) =
              (label, body) :: allLabelled tail := rfl
          have hfallbacks : allFallbacks (labelled label body :: tail) = allFallbacks tail := rfl
          rw [hlabelled, hfallbacks, List.length_cons, List.length_cons]
          omega
      | fallback body =>
          have hlabelled : allLabelled (fallback body :: tail) = allLabelled tail := rfl
          have hfallbacks : allFallbacks (fallback body :: tail) = body :: allFallbacks tail := rfl
          rw [hlabelled, hfallbacks, List.length_cons, List.length_cons]
          omega

/-- A default clause stands in for one that was read before, unless a later one does. -/
theorem getLast?_allFallbacks_cons (body : Block) (clauses : List (Clause Label))
    (before : Option Block) :
    (allFallbacks (fallback body :: clauses)).getLast?.or before =
      (allFallbacks clauses).getLast?.or (some body) := by
  have hcons : allFallbacks (fallback body :: clauses) = body :: allFallbacks clauses := rfl
  rw [hcons, List.getLast?_cons]
  cases (allFallbacks clauses).getLast? <;> rfl

/-- Every labelled clause is kept, and of the default clauses the last.  These are as many as there
are clauses exactly when at most one is a default. -/
structure Keeps (clauses : List (Clause Label)) (kept : List (Label × Block))
    (last : Option Block) : Prop where
  labelled : kept = allLabelled clauses
  fallback : last = (allFallbacks clauses).getLast?
  length_eq_iff : kept.length + last.toList.length = clauses.length ↔
    (allFallbacks clauses).length ≤ 1

theorem keeps_iff {clauses : List (Clause Label)} {kept : List (Label × Block)}
    {last : Option Block} :
    Keeps clauses kept last ↔
      kept = allLabelled clauses ∧ last = (allFallbacks clauses).getLast? := by
  constructor
  · exact fun hkeeps => ⟨hkeeps.labelled, hkeeps.fallback⟩
  · rintro ⟨rfl, rfl⟩
    refine ⟨rfl, rfl, ?_⟩
    have hlength := length_allLabelled_add clauses
    cases hfallbacks : allFallbacks clauses with
    | nil => simp_all
    | cons first rest =>
        rw [hfallbacks, List.length_cons] at hlength
        rw [List.getLast?_cons, Option.toList_some, List.length_singleton, List.length_cons]
        omega

end Clause

/-- Behind any separators the token is ahead, and the second place is right after it. -/
inductive Cursor.Meets : Cursor → Token → Cursor → Prop
  | intro {gap rest : List Token} {token finish : Token} {notes : List Note}
      (hgap : ∀ separator ∈ gap, separator.isSymbol .semicolon = true) :
      Meets ⟨gap ++ token :: rest, finish, notes⟩ token ⟨rest, finish, notes⟩

theorem Cursor.Meets.finish {cursor later : Cursor} {token : Token}
    (hmeets : cursor.Meets token later) : later.finish = cursor.finish := by
  obtain ⟨-⟩ := hmeets
  rfl

namespace Parser

variable {α Label Item : Type}

/-! ## What stands ahead -/

theorem skipSeparators_of_meets {cursor later : Cursor} {token : Token}
    (hmeets : cursor.Meets token later) (htoken : token.isSymbol .semicolon = false) :
    skipSeparators cursor = .ok () { later with tokens := token :: later.tokens } := by
  obtain ⟨hgap⟩ := hmeets
  rw [skipSeparators, List.dropWhile_append_of_pos hgap, List.dropWhile_cons_of_neg]
  simp [htoken]

/-- A token ahead behind the separators, other than the finishing one, stands in the source. -/
theorem exists_meets {cursor skipped : Cursor} (hfinish : cursor.finish.kind = .finish)
    (hskip : skipSeparators cursor = .ok () skipped) (hhead : skipped.head.kind ≠ .finish) :
    ∃ later, cursor.Meets skipped.head later := by
  obtain ⟨tokens, finish, notes⟩ := cursor
  cases hskip
  cases hrest : tokens.dropWhile (·.isSymbol .semicolon) with
  | nil =>
      rw [hrest] at hhead
      exact absurd hfinish hhead
  | cons token rest =>
      have hgap : ∀ separator ∈ tokens.takeWhile (·.isSymbol .semicolon),
          separator.isSymbol .semicolon = true := fun _ => List.mem_takeWhile_imp
      have hmeets : Cursor.Meets ⟨_, finish, notes⟩ token ⟨rest, finish, notes⟩ := .intro hgap
      rw [← hrest, List.takeWhile_append_dropWhile] at hmeets
      exact ⟨_, hmeets⟩

theorem tryWord_cons {word : Keyword} {token finish : Token} {rest : List Token}
    {notes : List Note} (hword : token.isKeyword word = true) :
    tryWord word ⟨token :: rest, finish, notes⟩ = .ok true ⟨rest, finish, notes⟩ := by
  rw [tryWord, bind_of_ok (peek_apply _)]
  exact congrFun (if_pos hword) _

theorem tryWord_of_not {word : Keyword} {cursor : Cursor}
    (hword : cursor.head.isKeyword word = false) : tryWord word cursor = .ok false cursor := by
  rw [tryWord, bind_of_ok (peek_apply _)]
  exact congrFun (if_neg (by simp [hword])) _

/-! ## One clause or the end -/

/-- What is read between the braces of a switch or a match: `close` behind the closing brace,
`labelled` behind a `case` and `fallback` behind a `default`. -/
def clauseChoice (close labelled fallback : Parser α) (what : Expectation) : Parser α := do
  skipSeparators
  if ← tryPunctuation .closeBrace then close
  else if ← tryWord .caseWord then labelled
  else if ← tryWord .defaultWord then fallback
  else expected what

section

variable {close labelled fallback : Parser α} {what : Expectation} {cursor later : Cursor}
  {token : Token}

theorem clauseChoice_of_close (hmeets : cursor.Meets token later)
    (hclose : token.isSymbol .closeBrace = true) :
    clauseChoice close labelled fallback what cursor = close later := by
  have hskip := skipSeparators_of_meets hmeets (by simp_all [Token.isSymbol])
  rw [clauseChoice, bind_of_ok hskip, bind_of_ok (tryPunctuation_cons hclose), if_pos rfl]

theorem clauseChoice_of_case (hmeets : cursor.Meets token later)
    (hword : token.isKeyword .caseWord = true) :
    clauseChoice close labelled fallback what cursor = labelled later := by
  have hkind : token.kind = .keyword .caseWord := by simpa [Token.isKeyword] using hword
  have hskip := skipSeparators_of_meets hmeets (by simp [Token.isSymbol, hkind])
  have hbrace : (Cursor.head { later with tokens := token :: later.tokens }).isSymbol .closeBrace =
      false := by
    simp [Cursor.head, Token.isSymbol, hkind]
  rw [clauseChoice, bind_of_ok hskip, bind_of_ok (tryPunctuation_of_not hbrace),
    if_neg Bool.false_ne_true, bind_of_ok (tryWord_cons hword), if_pos rfl]

theorem clauseChoice_of_default (hmeets : cursor.Meets token later)
    (hword : token.isKeyword .defaultWord = true) :
    clauseChoice close labelled fallback what cursor = fallback later := by
  have hkind : token.kind = .keyword .defaultWord := by simpa [Token.isKeyword] using hword
  have hskip := skipSeparators_of_meets hmeets (by simp [Token.isSymbol, hkind])
  have hbrace : (Cursor.head { later with tokens := token :: later.tokens }).isSymbol .closeBrace =
      false := by
    simp [Cursor.head, Token.isSymbol, hkind]
  have hcase : (Cursor.head { later with tokens := token :: later.tokens }).isKeyword .caseWord =
      false := by
    simp [Cursor.head, Token.isKeyword, hkind]
  rw [clauseChoice, bind_of_ok hskip, bind_of_ok (tryPunctuation_of_not hbrace),
    if_neg Bool.false_ne_true, bind_of_ok (tryWord_of_not hcase), if_neg Bool.false_ne_true,
    bind_of_ok (tryWord_cons hword), if_pos rfl]

/-- Reading goes on in one of the three ways, behind the token that tells which. -/
theorem exists_of_clauseChoice {value : α} {after : Cursor}
    (hfinish : cursor.finish.kind = .finish)
    (hread : clauseChoice close labelled fallback what cursor = .ok value after) :
    ∃ token later, cursor.Meets token later ∧
      (token.isSymbol .closeBrace = true ∧ close later = .ok value after ∨
        token.isKeyword .caseWord = true ∧ labelled later = .ok value after ∨
        token.isKeyword .defaultWord = true ∧ fallback later = .ok value after) := by
  obtain ⟨_, skipped, hskip, hrest⟩ := exists_of_bind_eq_ok hread
  by_cases hclose : skipped.head.isSymbol .closeBrace = true
  · obtain ⟨later, hmeets⟩ :=
      exists_meets hfinish hskip (Token.kind_ne_finish_of_isSymbol hclose)
    rw [clauseChoice_of_close hmeets hclose] at hread
    exact ⟨_, later, hmeets, .inl ⟨hclose, hread⟩⟩
  by_cases hcase : skipped.head.isKeyword .caseWord = true
  · obtain ⟨later, hmeets⟩ :=
      exists_meets hfinish hskip (Token.kind_ne_finish_of_isKeyword hcase)
    rw [clauseChoice_of_case hmeets hcase] at hread
    exact ⟨_, later, hmeets, .inr (.inl ⟨hcase, hread⟩)⟩
  by_cases hdefault : skipped.head.isKeyword .defaultWord = true
  · obtain ⟨later, hmeets⟩ :=
      exists_meets hfinish hskip (Token.kind_ne_finish_of_isKeyword hdefault)
    rw [clauseChoice_of_default hmeets hdefault] at hread
    exact ⟨_, later, hmeets, .inr (.inr ⟨hdefault, hread⟩)⟩
  · rw [Bool.not_eq_true] at hclose hcase hdefault
    rw [bind_of_ok (tryPunctuation_of_not hclose), if_neg Bool.false_ne_true,
      bind_of_ok (tryWord_of_not hcase), if_neg Bool.false_ne_true,
      bind_of_ok (tryWord_of_not hdefault), if_neg Bool.false_ne_true] at hrest
    cases hrest

end

/-! ## All clauses -/

/-- Up to the closing brace the clauses stand ahead, with labels that the reader reads and blocks as
their bodies. -/
inductive ReadsClauses (label : Nat → Parser Label) :
    Nat → Cursor → List (Clause Label) → Cursor → Prop
  | close {fuel cursor token after} (hmeets : cursor.Meets token after)
      (hclose : token.isSymbol .closeBrace = true) : ReadsClauses label (fuel + 1) cursor [] after
  | labelled {fuel cursor token start value opening body next clauses after}
      (hmeets : cursor.Meets token start) (hword : token.isKeyword .caseWord = true)
      (hlabel : label fuel start = .ok value opening) (hbody : block fuel opening = .ok body next)
      (hrest : ReadsClauses label fuel next clauses after) :
      ReadsClauses label (fuel + 1) cursor (.labelled value body :: clauses) after
  | fallback {fuel cursor token opening body next clauses after}
      (hmeets : cursor.Meets token opening) (hword : token.isKeyword .defaultWord = true)
      (hbody : block fuel opening = .ok body next)
      (hrest : ReadsClauses label fuel next clauses after) :
      ReadsClauses label (fuel + 1) cursor (.fallback body :: clauses) after

/-- The loop reads clauses one after the other and makes an item of each labelled one.  It starts
with a default body that was read before. -/
structure ClauseLoop (label : Nat → Parser Label) (item : Label → Block → Item)
    (what : Expectation) (loop : Option Block → Nat → Parser (List Item × Option Block)) :
    Prop where
  zero : ∀ before, loop before 0 = tooDeep
  succ : ∀ before fuel, loop before (fuel + 1) =
    clauseChoice (pure ([], before))
      (do
        let value ← label fuel
        let body ← block fuel
        let rest ← loop before fuel
        return (item value body :: rest.1, rest.2))
      (do
        let body ← block fuel
        loop (some body) fuel)
      what

theorem clauseLoop_switchClauses :
    ClauseLoop (fun _ => literal) SwitchCase.mk .switchClause switchClauses where
  zero _ := rfl
  succ _ _ := rfl

/-- The patterns of an arm. -/
def patterns (fuel : Nat) : Parser (List Pattern) := do
  let first ← pattern
  let rest ← morePatterns fuel
  return first :: rest

theorem clauseLoop_matchClauses :
    ClauseLoop patterns MatchArm.mk .matchClause matchClauses where
  zero _ := rfl
  succ before fuel := by
    rw [matchClauses]
    simp only [patterns, bind_assoc, pure_bind]
    rfl

theorem movesOn_patterns (fuel : Nat) : MovesOn (patterns fuel) :=
  .bind movesOn_pattern fun _ => .bind (movesOn_morePatterns fuel) fun _ => .pure _

/-- A loop over clauses gives what it makes of the clauses that stand ahead. -/
theorem ClauseLoop.eq_ok_iff {label : Nat → Parser Label} {item : Label → Block → Item}
    {what : Expectation} {loop : Option Block → Nat → Parser (List Item × Option Block)}
    (hloop : ClauseLoop label item what loop) (hlabel : ∀ fuel, MovesOn (label fuel))
    {before : Option Block} {fuel : Nat} {cursor after : Cursor}
    (hfinish : cursor.finish.kind = .finish) {items : List Item} {last : Option Block} :
    loop before fuel cursor = .ok (items, last) after ↔
      ∃ clauses, ReadsClauses label fuel cursor clauses after ∧
        items = (Clause.allLabelled clauses).map (fun clause => item clause.1 clause.2) ∧
        last = (Clause.allFallbacks clauses).getLast?.or before := by
  induction fuel generalizing before cursor items last with
  | zero =>
      rw [hloop.zero]
      constructor
      · rintro ⟨⟩
      · rintro ⟨clauses, hclauses, -⟩
        cases hclauses
  | succ fuel ih =>
      have hbehindToken {token : Token} {later : Cursor} (hmeets : cursor.Meets token later) :
          later.finish.kind = .finish := by
        rw [hmeets.finish]
        exact hfinish
      have hbehindLabel {start opening : Cursor} {value : Label}
          (hstart : start.finish.kind = .finish) (hvalue : label fuel start = .ok value opening) :
          opening.finish.kind = .finish := by
        rw [(hlabel fuel start value opening hvalue).finish]
        exact hstart
      have hbehindBody {opening next : Cursor} {body : Block}
          (hopening : opening.finish.kind = .finish)
          (hbody : block fuel opening = .ok body next) : next.finish.kind = .finish := by
        rw [((passes_block fuel).movesOn opening body next hbody).finish]
        exact hopening
      rw [hloop.succ]
      constructor
      · intro hread
        obtain ⟨token, later, hmeets, hway⟩ := exists_of_clauseChoice hfinish hread
        rcases hway with ⟨hclose, hread⟩ | ⟨hword, hread⟩ | ⟨hword, hread⟩
        · cases hread
          exact ⟨[], .close hmeets hclose, rfl, rfl⟩
        · obtain ⟨value, opening, hvalue, hread⟩ := exists_of_bind_eq_ok hread
          obtain ⟨body, next, hbody, hread⟩ := exists_of_bind_eq_ok hread
          obtain ⟨⟨rest, final⟩, last, hrest, hread⟩ := exists_of_bind_eq_ok hread
          cases hread
          have hnext := hbehindBody (hbehindLabel (hbehindToken hmeets) hvalue) hbody
          obtain ⟨clauses, hclauses, rfl, rfl⟩ := (ih hnext).mp hrest
          exact ⟨_, .labelled hmeets hword hvalue hbody hclauses, rfl, rfl⟩
        · obtain ⟨body, next, hbody, hread⟩ := exists_of_bind_eq_ok hread
          have hnext := hbehindBody (hbehindToken hmeets) hbody
          obtain ⟨clauses, hclauses, rfl, rfl⟩ := (ih hnext).mp hread
          refine ⟨_, .fallback hmeets hword hbody hclauses, rfl, ?_⟩
          exact (Clause.getLast?_allFallbacks_cons body clauses before).symm
      · rintro ⟨clauses, hclauses, rfl, rfl⟩
        cases hclauses with
        | close hmeets hclose => exact clauseChoice_of_close hmeets hclose
        | labelled hmeets hword hvalue hbody hrest =>
            have hnext := hbehindBody (hbehindLabel (hbehindToken hmeets) hvalue) hbody
            rw [clauseChoice_of_case hmeets hword, bind_of_ok hvalue, bind_of_ok hbody,
              bind_of_ok ((ih hnext).mpr ⟨_, hrest, rfl, rfl⟩)]
            rfl
        | fallback hmeets hword hbody hrest =>
            have hnext := hbehindBody (hbehindToken hmeets) hbody
            rw [clauseChoice_of_default hmeets hword, bind_of_ok hbody,
              (ih hnext).mpr ⟨_, hrest, rfl, rfl⟩, Clause.getLast?_allFallbacks_cons]
            rfl

/-! ## Switch and match -/

/-- Behind the word ahead the scrutinee is read, and then a brace opens the clauses. -/
def OpensClauses (fuel : Nat) (cursor : Cursor) (scrutinee : Expr) (opened : Cursor) : Prop :=
  ∃ between opening,
    expression fuel { cursor with tokens := cursor.tokens.tail } = .ok scrutinee between ∧
      expectSymbol .openBrace between = .ok opening opened

theorem OpensClauses.finish {fuel : Nat} {cursor opened : Cursor} {scrutinee : Expr}
    (hopens : OpensClauses fuel cursor scrutinee opened) : opened.finish = cursor.finish := by
  obtain ⟨between, opening, hscrutinee, hbrace⟩ := hopens
  rw [(movesOn_expectSymbol _ between opening opened hbrace).finish,
    (movesOn_expression fuel _ scrutinee between hscrutinee).finish]

/-- A statement made of the items and the default body that a loop over clauses gives. -/
theorem ClauseLoop.statement_eq_ok_iff {label : Nat → Parser Label} {item : Label → Block → Item}
    {what : Expectation} {loop : Option Block → Nat → Parser (List Item × Option Block)}
    (hloop : ClauseLoop label item what loop) (hlabel : ∀ fuel, MovesOn (label fuel))
    {parts : Item → Label × Block} (hparts : Function.LeftInverse parts (Function.uncurry item))
    (hitem : Function.RightInverse parts (Function.uncurry item))
    {build : Expr → List Item → Option Block → Stmt} {fuel : Nat} {cursor after : Cursor}
    (hfinish : cursor.finish.kind = .finish) {statement : Stmt} :
    (do
      let _ ← next
      let scrutinee ← expression fuel
      let _ ← expectSymbol .openBrace
      let result ← loop none fuel
      return build scrutinee result.1 result.2 : Parser Stmt) cursor = .ok statement after ↔
      ∃ scrutinee opened clauses items fallback, OpensClauses fuel cursor scrutinee opened ∧
        ReadsClauses label fuel opened clauses after ∧
        Clause.Keeps clauses (items.map parts) fallback ∧
        statement = build scrutinee items fallback := by
  rw [bind_of_ok (next_apply _)]
  constructor
  · intro hread
    obtain ⟨scrutinee, between, hscrutinee, hread⟩ := exists_of_bind_eq_ok hread
    obtain ⟨opening, opened, hopening, hread⟩ := exists_of_bind_eq_ok hread
    obtain ⟨⟨items, fallback⟩, last, hclauses, hread⟩ := exists_of_bind_eq_ok hread
    cases hread
    have hopens : OpensClauses fuel cursor scrutinee opened :=
      ⟨between, opening, hscrutinee, hopening⟩
    have hopened : opened.finish.kind = .finish := by
      rw [hopens.finish]
      exact hfinish
    obtain ⟨clauses, hreads, rfl, rfl⟩ := (hloop.eq_ok_iff hlabel hopened).mp hclauses
    refine ⟨scrutinee, opened, clauses, _, _, hopens, hreads, ?_, rfl⟩
    rw [Clause.keeps_iff, List.map_map, Option.or_none]
    exact ⟨List.map_id'' hparts _, rfl⟩
  · rintro ⟨scrutinee, opened, clauses, items, fallback, hopens, hreads, hkeeps, rfl⟩
    have hopened : opened.finish.kind = .finish := by
      rw [hopens.finish]
      exact hfinish
    obtain ⟨between, opening, hscrutinee, hopening⟩ := hopens
    have hitems : items = (Clause.allLabelled clauses).map (Function.uncurry item) := by
      rw [← hkeeps.labelled, List.map_map]
      exact (List.map_id'' hitem _).symm
    have hclauses : loop none fuel opened = .ok (items, fallback) after := by
      rw [hloop.eq_ok_iff hlabel hopened]
      refine ⟨clauses, hreads, hitems, ?_⟩
      rw [Option.or_none, hkeeps.fallback]
    rw [bind_of_ok hscrutinee, bind_of_ok hopening, bind_of_ok hclauses]
    rfl

/-- A switch and a match are read from any clauses in any order.  They keep every labelled clause
and the last default, so they keep as many clauses as they were given exactly when at most one of
these is a default. -/
theorem keeps_clauses {cursor : Cursor} (hfinish : cursor.finish.kind = .finish)
    (line fuel : Nat) (statement : Stmt) (after : Cursor) :
    (keywordStatement line .switchWord (fuel + 1) cursor = .ok statement after ↔
      ∃ scrutinee opened clauses cases fallback, OpensClauses fuel cursor scrutinee opened ∧
        ReadsClauses (fun _ => literal) fuel opened clauses after ∧
        Clause.Keeps clauses (cases.map fun clause => (clause.label, clause.body)) fallback ∧
        statement = .switch line scrutinee cases fallback) ∧
    (keywordStatement line .matchWord (fuel + 1) cursor = .ok statement after ↔
      ∃ scrutinee opened clauses arms fallback, OpensClauses fuel cursor scrutinee opened ∧
        ReadsClauses patterns fuel opened clauses after ∧
        Clause.Keeps clauses (arms.map fun clause => (clause.patterns, clause.body)) fallback ∧
        statement = .select line scrutinee arms fallback) := by
  constructor
  · apply clauseLoop_switchClauses.statement_eq_ok_iff (fun _ => movesOn_literal) (fun _ => rfl) _
      hfinish
    rintro ⟨label, body⟩
    rfl
  · apply clauseLoop_matchClauses.statement_eq_ok_iff movesOn_patterns (fun _ => rfl) _ hfinish
    rintro ⟨patterns, body⟩
    rfl

/-- The tokens of `switch x { default { } case true { sync } }`. -/
def defaultFirst : List Token :=
  [⟨.keyword .switchWord, "switch", 1⟩, ⟨.identifier, "x", 1⟩, ⟨.symbol .openBrace, "\x7b", 1⟩,
   ⟨.keyword .defaultWord, "default", 1⟩, ⟨.symbol .openBrace, "\x7b", 1⟩,
   ⟨.symbol .closeBrace, "\x7d", 1⟩,
   ⟨.keyword .caseWord, "case", 1⟩, ⟨.keyword .trueWord, "true", 1⟩,
   ⟨.symbol .openBrace, "\x7b", 1⟩, ⟨.keyword .sync, "sync", 1⟩, ⟨.symbol .closeBrace, "\x7d", 1⟩,
   ⟨.symbol .closeBrace, "\x7d", 1⟩]

theorem keeps_clauses_default_first :
    (Cursor.ofTokens defaultFirst).finish.kind = .finish ∧
      ∃ scrutinee opened clauses cases fallback,
        OpensClauses 99 (Cursor.ofTokens defaultFirst) scrutinee opened ∧
        ReadsClauses (fun _ => literal) 99 opened clauses ⟨[], .finish 1, []⟩ ∧
        Clause.Keeps clauses (cases.map fun clause => (clause.label, clause.body)) fallback ∧
        Stmt.switch 1 (.name 1 "x") [⟨.boolean true, ⟨1, [.simple 1 .sync]⟩⟩] (some ⟨1, []⟩) =
          .switch 1 scrutinee cases fallback := by
  have hfinish := Cursor.finish_ofTokens defaultFirst
  refine ⟨hfinish, (keeps_clauses hfinish 1 99 _ _).1.mp ?_⟩
  cbv

/-- The tokens of `switch x { default { sync } default { } }`. -/
def defaultTwice : List Token :=
  [⟨.keyword .switchWord, "switch", 1⟩, ⟨.identifier, "x", 1⟩, ⟨.symbol .openBrace, "\x7b", 1⟩,
   ⟨.keyword .defaultWord, "default", 1⟩, ⟨.symbol .openBrace, "\x7b", 1⟩,
   ⟨.keyword .sync, "sync", 1⟩, ⟨.symbol .closeBrace, "\x7d", 1⟩,
   ⟨.keyword .defaultWord, "default", 1⟩, ⟨.symbol .openBrace, "\x7b", 1⟩,
   ⟨.symbol .closeBrace, "\x7d", 1⟩, ⟨.symbol .closeBrace, "\x7d", 1⟩]

/-- With two default clauses, the body of the first is read and not kept. -/
theorem switch_drops_first_default :
    ∃ opened clauses,
      OpensClauses 99 (Cursor.ofTokens defaultTwice) (.name 1 "x") opened ∧
      ReadsClauses (fun _ => literal) 99 opened clauses ⟨[], .finish 1, []⟩ ∧
      clauses = [.fallback ⟨1, [.simple 1 .sync]⟩, .fallback ⟨1, []⟩] ∧
      ∃ cases fallback,
        keywordStatement 1 .switchWord 100 (Cursor.ofTokens defaultTwice) =
          .ok (.switch 1 (.name 1 "x") cases fallback) ⟨[], .finish 1, []⟩ ∧
        cases.length + fallback.toList.length ≠ clauses.length := by
  refine ⟨⟨defaultTwice.drop 3, .finish 1, []⟩, _,
    ⟨⟨defaultTwice.drop 2, .finish 1, []⟩, ⟨.symbol .openBrace, "\x7b", 1⟩, ?_, ?_⟩, ?_, rfl,
    [], some ⟨1, []⟩, ?_, by decide⟩
  · cbv
  · rfl
  · have hgap : ∀ separator ∈ ([] : List Token), separator.isSymbol .semicolon = true := by simp
    have hfirst : block 98 ⟨defaultTwice.drop 4, .finish 1, []⟩ =
        .ok ⟨1, [.simple 1 .sync]⟩ ⟨defaultTwice.drop 7, .finish 1, []⟩ := by
      cbv
    have hsecond : block 97 ⟨defaultTwice.drop 8, .finish 1, []⟩ =
        .ok ⟨1, []⟩ ⟨defaultTwice.drop 10, .finish 1, []⟩ := by
      cbv
    exact .fallback (.intro hgap) rfl hfirst
      (.fallback (.intro hgap) rfl hsecond (.close (.intro hgap) rfl))
  · cbv

end Parser

end Tide
