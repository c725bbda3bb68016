import Tide.Grammar.Statement
import Tide.Proofs.Grammar.Cursor
import Tide.Proofs.Token.Layout

/-!
# Text that is kept as tokens

The header of a loop and a parameter list in parentheses are kept as the source text of their
tokens, with a space between two.  A space ends every lexeme, so reading that text again gives the
tokens back.
-/

namespace Tide

namespace Token

/-! ## Tokens with a space between them -/

theorem decodes_flatMap_requotedChar (value : List Char) :
    Lexeme.Decodes (value.flatMap requotedChar) value := by
  induction value with
  | nil => exact .nil
  | cons char value ih =>
      rw [List.flatMap_cons]
      unfold requotedChar
      split
      case h_1 | h_2 => exact .escaped (.verbatim (by decide) (by decide) (by decide)) ih
      case h_3 => exact .escaped .lineFeed ih
      case h_4 => exact .escaped .tab ih
      case h_5 => exact .escaped .carriageReturn ih
      case h_6 hquote hslash _ _ _ => exact .plain hquote hslash ih

/-- The source text of a token is one of its lexemes. -/
theorem writtenAs_sourceText {token : Token} {lexeme : List Char}
    (hlexeme : token.spelling.WrittenAs lexeme) :
    token.spelling.WrittenAs token.sourceText.toList := by
  obtain ⟨kind, text, line⟩ := token
  simp only [Token.spelling] at hlexeme ⊢
  cases hlexeme with
  | identifier hword hfree => exact .identifier hword hfree
  | keyword hword hreserved => exact .keyword hword hreserved
  | number hnumeral => exact .number hnumeral
  | symbol sign => exact .symbol sign
  | string hbody =>
      simp only [sourceText, String.toList_ofList]
      exact .string (decodes_flatMap_requotedChar _)

/-- What follows the first token reads as the other tokens, and ends its lexeme. -/
theorem exists_tail_joinedText (token : Token) (tokens : List Token) :
    ∃ tail, (Parser.joinedText (token :: tokens)).toList = token.sourceText.toList ++ tail ∧
      (∀ kind : TokenKind, kind.endsBefore tail = true) ∧
      ∀ line, scanFrom line tail = scanFrom line (Parser.joinedText tokens).toList := by
  cases tokens with
  | nil =>
      refine ⟨[], ?_, TokenKind.endsBefore_nil, fun line => rfl⟩
      rw [Parser.joinedText, String.toList_intercalate]
      simp
  | cons next tokens =>
      refine ⟨' ' :: (Parser.joinedText (next :: tokens)).toList, ?_, ?_, ?_⟩
      · simp only [Parser.joinedText, String.toList_intercalate, List.map_cons,
          List.intercalate_cons_cons]
        simp
      · exact fun kind => kind.endsBefore_space _
      · exact fun line => scanFrom_blank line (by decide) _

/-- The text is read as these tokens, whatever their lines. -/
def AreReadFrom (tokens : List Token) (text : String) : Prop :=
  ∃ again last, scan text = .ok (again ++ [finish last]) ∧
    again.map spelling = tokens.map spelling

/-- Tokens that have lexemes are read again from their source text with spaces between them. -/
theorem areReadFrom_joinedText {tokens : List Token}
    (htokens : ∀ token ∈ tokens, ∃ lexeme, token.spelling.WrittenAs lexeme) :
    AreReadFrom tokens (Parser.joinedText tokens) := by
  -- The line has to vary for the induction: a lexeme may end on a later line than it starts.
  suffices hscan : ∀ line, ∃ again last,
      scanFrom line (Parser.joinedText tokens).toList = .ok (again ++ [finish last]) ∧
        again.map spelling = tokens.map spelling from hscan 1
  induction tokens with
  | nil => exact fun line => ⟨[], line, scanFrom_nil line, rfl⟩
  | cons token tokens ih =>
      intro line
      obtain ⟨lexeme, hlexeme⟩ := htokens token (by simp)
      have hwritten := writtenAs_sourceText hlexeme
      obtain ⟨tail, htext, hends, htail⟩ := exists_tail_joinedText token tokens
      obtain ⟨again, last, hagain, hspelling⟩ :=
        ih (fun other hother => htokens other (by simp [hother]))
          (line + token.sourceText.toList.count '\n')
      refine ⟨⟨token.kind, token.text, line⟩ :: again, last, ?_, ?_⟩
      · rw [htext, scanFrom_append line hwritten (hends _), htail, hagain]
        rfl
      · rw [List.map_cons, List.map_cons, hspelling]
        rfl

end Token

namespace Parser

/-! ## Balanced parentheses -/

/-- Every parenthesis among the tokens has its partner among them. -/
inductive Balanced : List Token → Prop
  | nil : Balanced []
  | token {token : Token} {rest : List Token} (hopen : token.isSymbol .openParen = false)
      (hclose : token.isSymbol .closeParen = false) (hrest : Balanced rest) :
      Balanced (token :: rest)
  | nested {opening closing : Token} {inside rest : List Token}
      (hopening : opening.isSymbol .openParen = true) (hinside : Balanced inside)
      (hclosing : closing.isSymbol .closeParen = true) (hrest : Balanced rest) :
      Balanced (opening :: (inside ++ closing :: rest))

theorem isSymbol_openParen_of_closeParen {token : Token}
    (hclose : token.isSymbol .closeParen = true) : token.isSymbol .openParen = false := by
  simp_all [Token.isSymbol]

section

variable {token : Token} (depth : Nat) (rest : List Token)

theorem untilClosed_open (hopen : token.isSymbol .openParen = true) :
    untilClosed depth (token :: rest) =
      (untilClosed (depth + 1) rest).map fun (inside, after) => (token :: inside, after) := by
  rw [untilClosed.eq_def]
  exact if_pos hopen

theorem untilClosed_close (hclose : token.isSymbol .closeParen = true) :
    untilClosed 0 (token :: rest) = some ([], rest) := by
  have hopen := isSymbol_openParen_of_closeParen hclose
  simp [untilClosed, hopen, hclose]

theorem untilClosed_close_succ (hclose : token.isSymbol .closeParen = true) :
    untilClosed (depth + 1) (token :: rest) =
      (untilClosed depth rest).map fun (inside, after) => (token :: inside, after) := by
  have hopen := isSymbol_openParen_of_closeParen hclose
  simp [untilClosed, hopen, hclose]

theorem untilClosed_other (hopen : token.isSymbol .openParen = false)
    (hclose : token.isSymbol .closeParen = false) :
    untilClosed depth (token :: rest) =
      (untilClosed depth rest).map fun (inside, after) => (token :: inside, after) := by
  rw [untilClosed.eq_def]
  simp [hopen, hclose]

end

/-- Balanced tokens are passed at any depth. -/
theorem Balanced.untilClosed_append {inside : List Token} (hinside : Balanced inside)
    (depth : Nat) (rest : List Token) :
    untilClosed depth (inside ++ rest) =
      (untilClosed depth rest).map fun (more, after) => (inside ++ more, after) := by
  induction hinside generalizing depth rest with
  | nil => simp
  | token hopen hclose hmore ih =>
      rw [List.cons_append, untilClosed_other depth _ hopen hclose, ih, Option.map_map]
      rfl
  | nested hopening hinside hclosing hmore ihInside ih =>
      rw [List.cons_append, untilClosed_open depth _ hopening, List.append_assoc, ihInside,
        List.cons_append, untilClosed_close_succ depth _ hclosing, ih, Option.map_map,
        Option.map_map, Option.map_map]
      congr 1
      funext ⟨more, after⟩
      simp

theorem Balanced.append {left right : List Token} (hleft : Balanced left)
    (hright : Balanced right) : Balanced (left ++ right) := by
  induction hleft with
  | nil => exact hright
  | token hopen hclose hrest ih => exact .token hopen hclose ih
  | nested hopening hinside hclosing hrest ihInside ih =>
      rw [List.cons_append, List.append_assoc, List.cons_append]
      exact .nested hopening hinside hclosing ih

/-- Tokens that close `depth` parentheses more than they open, and none before it is open. -/
inductive Closes : Nat → List Token → Prop
  | balanced {tokens : List Token} (htokens : Balanced tokens) : Closes 0 tokens
  | close {depth : Nat} {inside rest : List Token} {closing : Token} (hinside : Balanced inside)
      (hclosing : closing.isSymbol .closeParen = true) (hrest : Closes depth rest) :
      Closes (depth + 1) (inside ++ closing :: rest)

theorem Balanced.closes_append {depth : Nat} {left right : List Token} (hleft : Balanced left)
    (hright : Closes depth right) : Closes depth (left ++ right) := by
  cases hright with
  | balanced htokens => exact .balanced (hleft.append htokens)
  | close hinside hclosing hrest =>
      rw [← List.append_assoc]
      exact .close (hleft.append hinside) hclosing hrest

theorem exists_of_map_cons {token : Token} {result : Option (List Token × List Token)}
    {inside after : List Token}
    (hmap : (result.map fun (inside, after) => (token :: inside, after)) = some (inside, after)) :
    ∃ more, result = some (more, after) ∧ inside = token :: more := by
  obtain ⟨⟨more, _⟩, hresult, heq⟩ := Option.map_eq_some_iff.mp hmap
  cases heq
  exact ⟨more, hresult, rfl⟩

/-- The tokens up to the parenthesis that closes `depth + 1` open ones. -/
theorem closes_of_untilClosed {depth : Nat} {tokens inside after : List Token}
    (hclosed : untilClosed depth tokens = some (inside, after)) :
    Closes depth inside ∧ ∃ closing, closing.isSymbol .closeParen = true ∧
      tokens = inside ++ closing :: after := by
  induction tokens generalizing depth inside with
  | nil => simp [untilClosed] at hclosed
  | cons token rest ih =>
      cases hopen : token.isSymbol .openParen with
      | true =>
          rw [untilClosed_open depth rest hopen] at hclosed
          obtain ⟨more, hmore, rfl⟩ := exists_of_map_cons hclosed
          obtain ⟨hcloses, closing, hclosing, rfl⟩ := ih hmore
          refine ⟨?_, closing, hclosing, rfl⟩
          -- The first parenthesis that `more` closes is the one opened here.
          cases hcloses with
          | @close _ nested rest partner hnested hpartner hrest =>
              have hpair := (Balanced.nested hopen hnested hpartner .nil).closes_append hrest
              simpa using hpair
      | false =>
          cases hclose : token.isSymbol .closeParen with
          | true =>
              cases depth with
              | zero =>
                  rw [untilClosed_close rest hclose] at hclosed
                  cases hclosed
                  exact ⟨.balanced .nil, token, hclose, rfl⟩
              | succ depth =>
                  rw [untilClosed_close_succ depth rest hclose] at hclosed
                  obtain ⟨more, hmore, rfl⟩ := exists_of_map_cons hclosed
                  obtain ⟨hcloses, closing, hclosing, rfl⟩ := ih hmore
                  exact ⟨.close .nil hclose hcloses, closing, hclosing, rfl⟩
          | false =>
              rw [untilClosed_other depth rest hopen hclose] at hclosed
              obtain ⟨more, hmore, rfl⟩ := exists_of_map_cons hclosed
              obtain ⟨hcloses, closing, hclosing, rfl⟩ := ih hmore
              have hsingle := Balanced.nil.token hopen hclose
              exact ⟨hsingle.closes_append hcloses, closing, hclosing, rfl⟩

/-! ## Raw text -/

/-- A parenthesis, the tokens `inside` it, its partner and then `rest` stand ahead. -/
def Encloses (cursor : Cursor) (inside rest : List Token) : Prop :=
  ∃ opening closing, cursor.tokens = opening :: (inside ++ closing :: rest) ∧
    opening.isSymbol .openParen = true ∧ closing.isSymbol .closeParen = true ∧ Balanced inside

theorem rawText_of_encloses {cursor : Cursor} {inside rest : List Token}
    (hencloses : Encloses cursor inside rest) (what : RawText) :
    rawText what cursor = .ok (joinedText inside) { cursor with tokens := rest } := by
  obtain ⟨tokens, finish, notes⟩ := cursor
  obtain ⟨opening, closing, rfl, hopening, hclosing, hinside⟩ := hencloses
  refine (bind_of_ok (expectSymbol_cons hopening)).trans ?_
  simp [hinside.untilClosed_append, untilClosed_close _ hclosing]

theorem rawText_eq_ok_iff (what : RawText) {cursor after : Cursor} {text : String} :
    rawText what cursor = .ok text after ↔
      ∃ inside rest, Encloses cursor inside rest ∧ text = joinedText inside ∧
        after = { cursor with tokens := rest } := by
  constructor
  · intro hraw
    obtain ⟨opening, between, hopening, hraw⟩ := exists_of_bind_eq_ok hraw
    obtain ⟨hsign, hnext⟩ := next_of_expectSymbol hopening
    obtain ⟨tokens, finish, notes⟩ := cursor
    cases tokens with
    | nil =>
        cases hnext
        simp [untilClosed] at hraw
    | cons token tokens =>
        cases hnext
        dsimp only at hraw
        split at hraw
        case h_1 inside rest hclosed =>
          cases hraw
          obtain ⟨hcloses, closing, hclosing, rfl⟩ := closes_of_untilClosed hclosed
          cases hcloses with
          | balanced hinside =>
              exact ⟨inside, rest, ⟨_, closing, rfl, hsign, hclosing, hinside⟩, rfl, rfl⟩
        case h_2 => cases hraw
  · rintro ⟨inside, rest, hencloses, rfl, rfl⟩
    exact rawText_of_encloses hencloses what

theorem Encloses.isSymbol_head {cursor : Cursor} {inside rest : List Token}
    (hencloses : Encloses cursor inside rest) : cursor.head.isSymbol .openParen = true := by
  obtain ⟨opening, closing, htokens, hopening, -, -⟩ := hencloses
  simpa [Cursor.head, htokens] using hopening

theorem Encloses.subset {cursor : Cursor} {inside rest : List Token}
    (hencloses : Encloses cursor inside rest) : inside ⊆ cursor.tokens := by
  obtain ⟨opening, closing, htokens, -, -, -⟩ := hencloses
  intro token htoken
  simp [htokens, htoken]

/-- A parameter list in parentheses is kept as raw text. -/
theorem parameterList_eq_raw_iff {name : String} {fuel : Nat} {cursor after : Cursor}
    {text : String} :
    parameterList name fuel cursor = .ok (.raw text) after ↔
      ∃ inside rest, Encloses cursor inside rest ∧ text = joinedText inside ∧
        after = { cursor with tokens := rest } := by
  rw [parameterList, bind_of_ok (peek_apply _), ← rawText_eq_ok_iff .parameterList]
  cases hsign : cursor.head.isSymbol .openParen with
  | true =>
      constructor
      · intro hlist
        obtain ⟨kept, between, hraw, hlist⟩ := exists_of_bind_eq_ok hlist
        cases hlist
        exact hraw
      · exact fun hraw => bind_of_ok hraw
  | false =>
      constructor
      · intro hlist
        obtain ⟨parameters, between, -, hlist⟩ := exists_of_bind_eq_ok hlist
        cases hlist
      · intro hraw
        obtain ⟨inside, rest, hencloses, -, -⟩ := (rawText_eq_ok_iff _).mp hraw
        exact absurd (hencloses.isSymbol_head.symm.trans hsign) (by decide)

/-- The header of a `for` is kept as raw text. -/
theorem keywordStatement_for_eq_ok_iff {line fuel : Nat} {cursor after : Cursor}
    {header : String} {body : Block} :
    keywordStatement line .forWord (fuel + 1) cursor =
        .ok (.nested line (.forLoop header) body) after ↔
      ∃ inside rest, Encloses { cursor with tokens := cursor.tokens.tail } inside rest ∧
        header = joinedText inside ∧
        block fuel { cursor with tokens := rest } = .ok body after := by
  rw [keywordStatement, bind_of_ok (next_apply _)]
  constructor
  · intro hloop
    obtain ⟨kept, between, hraw, hloop⟩ := exists_of_bind_eq_ok hloop
    obtain ⟨inside, rest, hencloses, rfl, rfl⟩ := (rawText_eq_ok_iff _).mp hraw
    obtain ⟨block, last, hbody, hloop⟩ := exists_of_bind_eq_ok hloop
    cases hloop
    exact ⟨inside, rest, hencloses, rfl, hbody⟩
  · rintro ⟨inside, rest, hencloses, rfl, hbody⟩
    rw [bind_of_ok (rawText_of_encloses hencloses .loopHeader), bind_of_ok hbody]
    rfl

end Parser

namespace Token

/-- Joining the tokens of a source gives a text that is read as the same tokens.  So what is kept
of a parameter list in parentheses and of the header of a `for` stands for exactly the tokens
between the parentheses, however they are nested. -/
theorem joinedText_reads_back {source : String} {tokens : List Token}
    (hscan : scan source = .ok tokens) :
    AreReadFrom tokens.dropLast (Parser.joinedText tokens.dropLast) ∧
      ∀ cursor : Cursor, cursor.tokens <:+ tokens.dropLast →
        (∀ name fuel text after,
          Parser.parameterList name fuel cursor = .ok (.raw text) after ↔
            ∃ inside rest, Parser.Encloses cursor inside rest ∧
              text = Parser.joinedText inside ∧ AreReadFrom inside text ∧
              after = { cursor with tokens := rest }) ∧
        ∀ line fuel header body after,
          Parser.keywordStatement line .forWord (fuel + 1) cursor =
              .ok (.nested line (.forLoop header) body) after ↔
            ∃ inside rest,
              Parser.Encloses { cursor with tokens := cursor.tokens.tail } inside rest ∧
              header = Parser.joinedText inside ∧ AreReadFrom inside header ∧
              Parser.block fuel { cursor with tokens := rest } = .ok body after := by
  obtain ⟨-, hlexemes⟩ := exists_writtenAs_of_scan hscan
  refine ⟨areReadFrom_joinedText hlexemes, fun cursor hcursor => ?_⟩
  -- Whatever is kept from here is kept of tokens that have lexemes.
  have hread : ∀ {ahead : Cursor} {inside rest : List Token}, ahead.tokens ⊆ cursor.tokens →
      Parser.Encloses ahead inside rest → AreReadFrom inside (Parser.joinedText inside) := by
    intro ahead inside rest hahead hencloses
    apply areReadFrom_joinedText
    intro token htoken
    exact hlexemes token (hcursor.subset (hahead (hencloses.subset htoken)))
  constructor
  · intro name fuel text after
    rw [Parser.parameterList_eq_raw_iff]
    constructor
    · rintro ⟨inside, rest, hencloses, rfl, hafter⟩
      exact ⟨inside, rest, hencloses, rfl, hread (List.Subset.refl _) hencloses, hafter⟩
    · rintro ⟨inside, rest, hencloses, htext, -, hafter⟩
      exact ⟨inside, rest, hencloses, htext, hafter⟩
  · intro line fuel header body after
    rw [Parser.keywordStatement_for_eq_ok_iff]
    constructor
    · rintro ⟨inside, rest, hencloses, rfl, hbody⟩
      exact ⟨inside, rest, hencloses, rfl, hread (List.tail_subset _) hencloses, hbody⟩
    · rintro ⟨inside, rest, hencloses, hheader, -, hbody⟩
      exact ⟨inside, rest, hencloses, hheader, hbody⟩

theorem joinedText_reads_back_nested :
    ∃ tokens, scan "((a--) \"\\n\" 1.5e3)" = .ok tokens ∧
      AreReadFrom tokens.dropLast "( ( a -- ) \"\\n\" 1.5e3 )" ∧
      ∃ inside, Parser.Encloses ⟨tokens.dropLast, finish 1, []⟩ inside [] ∧
        AreReadFrom inside "( a -- ) \"\\n\" 1.5e3" := by
  have hscan : scan "((a--) \"\\n\" 1.5e3)" =
      .ok [⟨.symbol .openParen, "(", 1⟩, ⟨.symbol .openParen, "(", 1⟩, ⟨.identifier, "a", 1⟩,
        ⟨.symbol .decrement, "--", 1⟩, ⟨.symbol .closeParen, ")", 1⟩, ⟨.string, "\n", 1⟩,
        ⟨.number, "1.5e3", 1⟩, ⟨.symbol .closeParen, ")", 1⟩, finish 1] := by
    cbv
  obtain ⟨hread, hkept⟩ := joinedText_reads_back hscan
  obtain ⟨hlist, -⟩ := hkept ⟨_, finish 1, []⟩ (List.suffix_refl _)
  obtain ⟨inside, rest, hencloses, -, hinside, hafter⟩ :=
    (hlist "f" 0 "( a -- ) \"\\n\" 1.5e3" ⟨[], finish 1, []⟩).mp rfl
  cases hafter
  exact ⟨_, hscan, hread, inside, hencloses, hinside⟩

end Token

end Tide
