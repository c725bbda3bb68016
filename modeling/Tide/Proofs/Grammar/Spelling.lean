import Tide.Proofs.Grammar.Onward
import Tide.Proofs.Token.RawText
import Tide.Proofs.Tree.Spelling

/-!
# Names and text that are read

Readers take names from words, and they copy text only from tokens.  No source text of a token has a
line feed in it, not even that of a string.  So what is read from the tokens of a source is spelt as
a source can spell it.  There is one rule for each way to put readers together, and one theorem for
each reader that reads no block.
-/

namespace Tide

open Lexeme (JoinsWords)

/-! ## Tokens of a source -/

namespace Token

variable {token : Token} {lexeme : List Char}

/-- A line feed in a string is written as an escape again. -/
theorem onOneLine_sourceText (hlexeme : token.spelling.WrittenAs lexeme) :
    Text.OnOneLine token.sourceText := by
  rcases token with ⟨kind, text, line⟩
  cases hlexeme with
  | identifier hword | keyword hword =>
      exact Lexeme.not_mem_of_isWord hword (by decide)
  | number hnumeral => exact hnumeral.lineFeed_not_mem
  | symbol sign =>
      have hsigns : ∀ sign ∈ Symbol.all, Text.OnOneLine sign.text := by decide
      exact hsigns sign (by cases sign <;> decide)
  | string hbody =>
      simp only [Text.OnOneLine, sourceText, String.toList_ofList]
      intro hmem
      have hrequoted : '\n' ∈ text.toList.flatMap requotedChar := by simpa using hmem
      obtain ⟨char, -, hchar⟩ := List.mem_flatMap.mp hrequoted
      unfold requotedChar at hchar
      split at hchar <;> grind

/-- The token stands for a lexeme, or for the end. -/
def IsSpelt (token : Token) : Prop :=
  token.kind = .finish ∨ ∃ lexeme, token.spelling.WrittenAs lexeme

theorem IsSpelt.isWord (hspelt : token.IsSpelt) (hkind : token.kind = .identifier) :
    Lexeme.isWord token.text.toList = true := by
  rcases token with ⟨kind, text, line⟩
  rcases hspelt with hfinish | ⟨lexeme, hlexeme⟩
  · exact absurd (hfinish.symm.trans hkind) (by decide)
  · cases hlexeme with
    | identifier hword => exact hword
    | _ => cases hkind

theorem IsSpelt.isWord_keyword (hspelt : token.IsSpelt) {word : Keyword}
    (hkind : token.kind = .keyword word) : Lexeme.isWord token.text.toList = true := by
  rcases token with ⟨kind, text, line⟩
  rcases hspelt with hfinish | ⟨lexeme, hlexeme⟩
  · cases hfinish.symm.trans hkind
  · cases hlexeme with
    | keyword hword => exact hword
    | _ => cases hkind

end Token

theorem TokenKind.joinsWords_name (kind : TokenKind) : JoinsWords kind.name :=
  Lexeme.joinsWords_of_isWord (by cases kind <;> simp only [name] <;> decide)

/-- The tokens ahead are those of a source. -/
structure Cursor.Spelt (cursor : Cursor) : Prop where
  tokens : ∀ token ∈ cursor.tokens, ∃ lexeme, token.spelling.WrittenAs lexeme
  finish : cursor.finish.kind = .finish

theorem Cursor.Spelt.head {cursor : Cursor} (hspelt : cursor.Spelt) : cursor.head.IsSpelt := by
  rcases cursor with ⟨_ | ⟨token, rest⟩, finish, notes⟩
  · exact .inl hspelt.finish
  · exact .inr (hspelt.tokens token List.mem_cons_self)

/-- What is ahead later was ahead before. -/
theorem Cursor.Onward.spelt {cursor later : Cursor} (honward : cursor.Onward later)
    (hspelt : cursor.Spelt) : later.Spelt where
  tokens token htoken := hspelt.tokens token (honward.tokens.subset htoken)
  finish := honward.finish ▸ hspelt.finish

/-! ## Spelt trees -/

namespace Stmt

/-- No text that an action copies has to be on one line. -/
theorem spelt_simple_iff {line : Nat} {action : Action} :
    (simple line action).Spelt ↔ (∀ word ∈ action.words, JoinsWords word) ∧
      (∀ expression ∈ action.expressions, expression.Spelt) ∧
      ∀ target ∈ (simple line action).target?, target.rootName.isSome = true := by
  constructor
  · rintro ⟨hwords, hnames, -, htarget⟩
    exact ⟨hwords, fun expression hmem => hnames expression (List.mem_append_left _ hmem), htarget⟩
  · rintro ⟨hwords, hnames, htarget⟩
    refine ⟨hwords, fun expression hmem => hnames expression ?_, nofun, htarget⟩
    exact (List.mem_append.mp hmem).resolve_right nofun

/-- All these statements are spelt as a source can spell them. -/
def AllSpelt (found : List Stmt) : Prop := ∀ statement ∈ found, statement.Spelt

@[simp]
theorem allSpelt_nil : AllSpelt [] := nofun

@[simp]
theorem allSpelt_cons {statement : Stmt} {found : List Stmt} :
    AllSpelt (statement :: found) ↔ statement.Spelt ∧ AllSpelt found :=
  List.forall_mem_cons

@[simp]
theorem allSpelt_append {front back : List Stmt} :
    AllSpelt (front ++ back) ↔ AllSpelt front ∧ AllSpelt back :=
  List.forall_mem_append

end Stmt

namespace Parser

variable {α β : Type}

/-! ## Rules -/

/-- On the tokens of a source, what the reader returns has the property, and the tokens it leaves
are still those of a source. -/
def Yields (reader : Parser α) (property : α → Prop) : Prop :=
  ∀ cursor : Cursor, cursor.Spelt → ∀ value after, reader cursor = .ok value after →
    after.Spelt ∧ property value

theorem MovesOn.yields {reader : Parser α} (hreader : MovesOn reader) :
    Yields reader fun _ => True :=
  fun cursor hspelt value after hread => ⟨(hreader cursor value after hread).spelt hspelt, trivial⟩

namespace Yields

variable {property : α → Prop}

theorem pure {value : α} (hvalue : property value) : Yields (Pure.pure value) property := by
  intro cursor hspelt result after hread
  cases hread
  exact ⟨hspelt, hvalue⟩

/-- What follows may use what is known of the first value. -/
theorem bind {middle : β → Prop} {first : Parser β} {next : β → Parser α}
    (hfirst : Yields first middle) (hnext : ∀ value, middle value → Yields (next value) property) :
    Yields (first >>= next) property := by
  intro cursor hspelt result after hread
  obtain ⟨value, between, hvalue, hresult⟩ := exists_of_bind_eq_ok hread
  obtain ⟨hbetween, hmiddle⟩ := hfirst cursor hspelt value between hvalue
  exact hnext value hmiddle between hbetween result after hresult

/-- What was read before is of no importance. -/
theorem after {first : Parser β} {next : β → Parser α} (hfirst : MovesOn first)
    (hnext : ∀ value, Yields (next value) property) : Yields (first >>= next) property :=
  .bind hfirst.yields fun value _ => hnext value

theorem ite {condition : Prop} [Decidable condition] {yes no : Parser α}
    (hyes : condition → Yields yes property) (hno : Yields no property) :
    Yields (if condition then yes else no) property :=
  iteInduction (motive := (Yields · property)) hyes fun _ => hno

theorem failAt {line : Nat} {cause : ParseCause} :
    Yields (Parser.failAt line cause : Parser α) property := by
  intro cursor hspelt value after hread
  cases hread

theorem expected {what : Expectation} : Yields (Parser.expected what : Parser α) property :=
  .after movesOn_peek fun _ => failAt

theorem failHere {cause : ParseCause} : Yields (Parser.failHere cause : Parser α) property :=
  .after movesOn_peek fun _ => failAt

theorem tooDeep : Yields (Parser.tooDeep : Parser α) property := failHere

end Yields

/-! ## Names and copied text -/

theorem yields_peek : Yields peek Token.IsSpelt := by
  intro cursor hspelt token after hread
  cases hread
  exact ⟨hspelt, hspelt.head⟩

theorem yields_identifierWord (what : Expectation) :
    Yields (identifier what) fun name => Lexeme.isWord name.toList = true := by
  intro cursor hspelt name after hread
  refine ⟨(movesOn_identifier what cursor name after hread).spelt hspelt, ?_⟩
  rw [identifier, bind_of_ok (peek_apply _)] at hread
  split at hread
  case isTrue hidentifier =>
    rw [bind_of_ok (next_apply _)] at hread
    cases hread
    exact hspelt.head.isWord (of_decide_eq_true hidentifier)
  case isFalse => cases hread

/-- A name is a single word. -/
theorem yields_identifier (what : Expectation) : Yields (identifier what) JoinsWords := by
  intro cursor hspelt name after hread
  have hyields := yields_identifierWord what cursor hspelt name after hread
  exact hyields.imp_right Lexeme.joinsWords_of_isWord

theorem isWord_of_mem_qualifiers {tokens : List Token}
    (htokens : ∀ token ∈ tokens, ∃ lexeme, token.spelling.WrittenAs lexeme) {name : String}
    (hname : name ∈ (Token.qualifiers tokens).1) : Lexeme.isWord name.toList = true := by
  fun_induction Token.qualifiers tokens with
  | case1 separator token rest hqualifies names after hrest ih =>
      rcases List.mem_cons.mp hname with rfl | hname
      · rcases token with ⟨kind, text, line⟩
        obtain ⟨lexeme, hlexeme⟩ := htokens ⟨kind, text, line⟩ (by simp)
        cases hlexeme with
        | identifier hword => exact hword
        | _ => simp [Token.isIdentifier] at hqualifies
      · refine ih (fun found hfound => htokens found ?_) (hrest ▸ hname)
        exact List.mem_cons_of_mem _ (List.mem_cons_of_mem _ hfound)
  | case2 | case3 => cases hname

/-- A name with qualifiers joins words. -/
theorem yields_qualifiedName {first : String} (hfirst : Lexeme.isWord first.toList = true) :
    Yields (qualifiedName first) JoinsWords := by
  intro cursor hspelt name after hread
  refine ⟨(movesOn_qualifiedName first cursor name after hread).spelt hspelt, ?_⟩
  cases hread
  refine ⟨first, _, List.forall_mem_cons.mpr ⟨hfirst, ?_⟩, rfl⟩
  exact fun name hname => isWord_of_mem_qualifiers hspelt.tokens hname

/-- Copied text is on one line, as it is put together from texts of tokens. -/
theorem yields_rawText (what : RawText) : Yields (rawText what) Text.OnOneLine := by
  intro cursor hspelt text after hread
  refine ⟨(movesOn_rawText what cursor text after hread).spelt hspelt, ?_⟩
  obtain ⟨inside, rest, hencloses, rfl, -⟩ := (rawText_eq_ok_iff what).mp hread
  apply Text.onOneLine_intercalate (by decide)
  intro text htext
  obtain ⟨token, htoken, rfl⟩ := List.mem_map.mp htext
  obtain ⟨lexeme, hlexeme⟩ := hspelt.tokens token (hencloses.subset htoken)
  exact Token.onOneLine_sourceText hlexeme

/-! ## Expressions -/

section

variable {line : Nat} {operand left right : Expr}

theorem spelt_unary {operator : UnaryOp} (hoperand : operand.Spelt) :
    Expr.Spelt (.unary line operator operand) := hoperand

theorem spelt_binary {operator : BinaryOp} (hleft : left.Spelt) (hright : right.Spelt) :
    Expr.Spelt (.binary line operator left right) := by
  rw [Expr.Spelt, Expr.names]
  exact List.forall_mem_append.mpr ⟨hleft, hright⟩

theorem spelt_index (htarget : left.Spelt) (hplace : right.Spelt) :
    Expr.Spelt (.index line left right) := by
  rw [Expr.Spelt, Expr.names]
  exact List.forall_mem_append.mpr ⟨htarget, hplace⟩

theorem spelt_member {field : String} (htarget : left.Spelt) (hfield : JoinsWords field) :
    Expr.Spelt (.member line left field) := by
  rw [Expr.Spelt, Expr.names]
  exact List.forall_mem_append.mpr ⟨htarget, by simpa using hfield⟩

theorem spelt_call {arguments : List Expr} (hcallee : left.Spelt)
    (harguments : ∀ argument ∈ arguments, argument.Spelt) :
    Expr.Spelt (.call line left arguments) := by
  rw [Expr.Spelt, Expr.names, Expr.namesAll_eq_flatMap]
  refine List.forall_mem_append.mpr ⟨hcallee, fun name hname => ?_⟩
  obtain ⟨argument, hargument, hmem⟩ := List.mem_flatMap.mp hname
  exact harguments argument hargument name hmem

end

theorem spelt_literal (line : Nat) (value : Literal) : Expr.Spelt (.literal line value) := nofun

mutual

/-- All names in an expression come from words, in one induction on the bound. -/
theorem yields_expression : ∀ fuel, Yields (expression fuel) Expr.Spelt
  | 0 => .tooDeep
  | fuel + 1 => by
      rw [expression]
      refine .bind (yields_binary 1 fuel) fun condition hcondition => ?_
      refine .after movesOn_peek fun question => .ite (fun _ => ?_) (.pure hcondition)
      refine .after movesOn_next fun _ => ?_
      refine .bind (yields_expression fuel) fun positive hpositive => ?_
      refine .after (movesOn_expectSymbol _) fun _ => ?_
      refine .bind (yields_expression fuel) fun negative hnegative => .pure ?_
      rw [Expr.Spelt, Expr.names]
      simp only [List.forall_mem_append]
      exact ⟨⟨hcondition, hpositive⟩, hnegative⟩

theorem yields_binary (least : Nat) : ∀ fuel, Yields (binary least fuel) Expr.Spelt
  | 0 => .tooDeep
  | fuel + 1 => by
      rw [binary]
      exact .bind (yields_unary fuel) fun left hleft => yields_binaryAfter least hleft fuel

theorem yields_binaryAfter (least : Nat) {left : Expr} (hleft : left.Spelt) : ∀ fuel,
    Yields (binaryAfter least left fuel) Expr.Spelt
  | 0 => .tooDeep
  | fuel + 1 => by
      rw [binaryAfter]
      refine .after movesOn_peek fun token => ?_
      cases token.binaryOp? with
      | none => exact .pure hleft
      | some operator =>
          refine .ite (fun _ => .pure hleft) (.after movesOn_next fun _ => ?_)
          refine .bind (yields_binary _ fuel) fun right hright => ?_
          exact yields_binaryAfter least (spelt_binary hleft hright) fuel

theorem yields_unary : ∀ fuel, Yields (unary fuel) Expr.Spelt
  | 0 => .tooDeep
  | fuel + 1 => by
      rw [unary]
      refine .after movesOn_peek fun token => ?_
      cases token.unaryOp? with
      | some operator =>
          refine .after movesOn_next fun _ => ?_
          exact .bind (yields_unary fuel) fun operand hoperand => .pure (spelt_unary hoperand)
      | none => exact .bind (yields_primary fuel) fun target htarget => yields_suffixes htarget fuel

theorem yields_suffixes {target : Expr} (htarget : target.Spelt) : ∀ fuel,
    Yields (suffixes target fuel) Expr.Spelt
  | 0 => .tooDeep
  | fuel + 1 => by
      rw [suffixes]
      refine .after movesOn_peek fun token => ?_
      split
      · refine .after movesOn_next fun _ => ?_
        refine .bind (yields_arguments fuel) fun arguments harguments => ?_
        refine .after (movesOn_expectSymbol _) fun _ => ?_
        exact yields_suffixes (spelt_call htarget harguments) fuel
      · refine .after movesOn_next fun _ => ?_
        refine .bind (yields_expression fuel) fun place hplace => ?_
        refine .after (movesOn_expectSymbol _) fun _ => ?_
        exact yields_suffixes (spelt_index htarget hplace) fuel
      · refine .after movesOn_next fun _ => ?_
        refine .bind (yields_identifier _) fun field hfield => ?_
        exact yields_suffixes (spelt_member htarget hfield) fuel
      · exact .pure htarget

theorem yields_arguments : ∀ fuel,
    Yields (arguments fuel) fun arguments => ∀ argument ∈ arguments, argument.Spelt
  | 0 => .tooDeep
  | fuel + 1 => by
      rw [arguments]
      refine .after movesOn_peek fun token => .ite (fun _ => .pure nofun) ?_
      refine .bind (yields_expression fuel) fun first hfirst => ?_
      refine .bind (yields_moreArguments fuel) fun rest hrest => .pure ?_
      exact List.forall_mem_cons.mpr ⟨hfirst, hrest⟩

theorem yields_moreArguments : ∀ fuel,
    Yields (moreArguments fuel) fun arguments => ∀ argument ∈ arguments, argument.Spelt
  | 0 => .tooDeep
  | fuel + 1 => by
      rw [moreArguments]
      refine .after (movesOn_tryPunctuation _) fun comma => .ite (fun _ => ?_) (.pure nofun)
      refine .bind (yields_expression fuel) fun first hfirst => ?_
      refine .bind (yields_moreArguments fuel) fun rest hrest => .pure ?_
      exact List.forall_mem_cons.mpr ⟨hfirst, hrest⟩

theorem yields_primary : ∀ fuel, Yields (primary fuel) Expr.Spelt
  | 0 => .tooDeep
  | fuel + 1 => by
      rw [primary]
      refine .bind yields_peek fun token htoken => ?_
      split
      · refine .after movesOn_next fun _ => .after (movesOn_numberValue token) fun value => ?_
        exact .pure (spelt_literal _ _)
      · exact .after movesOn_next fun _ => .pure (spelt_literal _ _)
      · exact .after movesOn_next fun _ => .pure (spelt_literal _ _)
      · exact .after movesOn_next fun _ => .pure (spelt_literal _ _)
      · rename_i hkind
        refine .after movesOn_next fun _ => ?_
        refine .bind (yields_qualifiedName (htoken.isWord hkind)) fun name hname => .pure ?_
        simpa [Expr.Spelt, Expr.names] using hname
      · refine .after movesOn_next fun _ => ?_
        refine .bind (yields_expression fuel) fun inner hinner => ?_
        exact .after (movesOn_expectSymbol _) fun _ => .pure hinner
      · exact .expected

end

/-- What is assigned to is a name with places behind it. -/
def SpeltTarget (target : Expr) : Prop := target.Spelt ∧ target.rootName.isSome = true

theorem yields_targetSuffixes (line : Nat) {target : Expr} (htarget : SpeltTarget target)
    (fuel : Nat) : Yields (targetSuffixes line target fuel) SpeltTarget := by
  induction fuel generalizing target with
  | zero => exact .tooDeep
  | succ fuel ih =>
      rw [targetSuffixes]
      refine .after (movesOn_tryPunctuation _) fun bracket => .ite (fun _ => ?_) ?_
      · refine .bind (yields_expression fuel) fun place hplace => ?_
        refine .after (movesOn_expectSymbol _) fun _ => ?_
        exact ih ⟨spelt_index htarget.1 hplace, htarget.2⟩
      · refine .after (movesOn_tryPunctuation _) fun dot => .ite (fun _ => ?_) (.pure htarget)
        refine .bind (yields_identifier _) fun field hfield => ?_
        exact ih ⟨spelt_member htarget.1 hfield, htarget.2⟩

/-- What is assigned to starts with a name. -/
theorem yields_assignmentTarget (fuel : Nat) : Yields (assignmentTarget fuel) SpeltTarget := by
  refine .after movesOn_peek fun token => ?_
  refine .bind (yields_identifier _) fun name hname => ?_
  exact yields_targetSuffixes token.line ⟨by simpa [Expr.Spelt, Expr.names] using hname, rfl⟩ fuel

theorem yields_pair (fuel : Nat) :
    Yields (pair fuel) fun values => values.1.Spelt ∧ values.2.Spelt := by
  refine .after (movesOn_expectSymbol _) fun _ => ?_
  refine .bind (yields_expression fuel) fun first hfirst => ?_
  refine .after (movesOn_expectSymbol _) fun _ => ?_
  refine .bind (yields_expression fuel) fun second hsecond => ?_
  exact .after (movesOn_expectSymbol _) fun _ => .pure ⟨hfirst, hsecond⟩

theorem yields_optionalExpression (fuel : Nat) :
    Yields (optionalExpression fuel) fun value => ∀ found ∈ value, found.Spelt := by
  refine .after movesOn_peek fun token => .ite (fun _ => ?_) (.pure nofun)
  exact .bind (yields_expression fuel) fun value hvalue => .pure (by simpa using hvalue)

/-! ## Parts of statements -/

theorem yields_typeNameAfter (fuel : Nat) :
    Yields (typeNameAfter fuel) fun names => ∀ name ∈ names, Lexeme.isWord name.toList = true := by
  induction fuel with
  | zero => exact .tooDeep
  | succ fuel ih =>
      rw [typeNameAfter]
      refine .after (movesOn_tryPunctuation _) fun colons =>
        .ite (fun _ => ?_) (.pure (List.forall_mem_nil _))
      refine .bind (yields_identifierWord _) fun segment hsegment => ?_
      exact .bind ih fun rest hrest => .pure (List.forall_mem_cons.mpr ⟨hsegment, hrest⟩)

/-- A type is a name with qualifiers. -/
theorem yields_typeName (fuel : Nat) : Yields (typeName fuel) JoinsWords := by
  refine .bind (yields_identifierWord _) fun first hfirst => ?_
  refine .bind (yields_typeNameAfter fuel) fun rest hrest => .pure ?_
  exact ⟨first, rest, List.forall_mem_cons.mpr ⟨hfirst, hrest⟩, rfl⟩

theorem yields_optionalType (sign : Symbol) (fuel : Nat) :
    Yields (optionalType sign fuel) fun type => ∀ found ∈ type, JoinsWords found := by
  refine .after (movesOn_tryPunctuation _) fun _ => .ite (fun _ => ?_) (.pure nofun)
  exact .bind (yields_typeName fuel) fun type htype => .pure (by simpa using htype)

/-- The name, the type and the value of the variable are spelt. -/
def SpeltLocal (binding : Local) : Prop :=
  (∀ word ∈ binding.texts, JoinsWords word) ∧ ∀ value ∈ binding.value, value.Spelt

theorem yields_declaration (fuel : Nat) : Yields (declaration fuel) SpeltLocal := by
  refine .after movesOn_next fun keyword => ?_
  refine .bind (yields_identifier _) fun name hname => ?_
  refine .bind (yields_optionalType _ fuel) fun type htype => ?_
  have htexts : ∀ word ∈ name :: type.toList, JoinsWords word :=
    List.forall_mem_cons.mpr ⟨hname, fun word hword => htype word (Option.mem_toList.mp hword)⟩
  refine .after (movesOn_tryPunctuation _) fun _ => .ite (fun _ => ?_) (.pure ⟨htexts, nofun⟩)
  exact .bind (yields_expression fuel) fun value hvalue => .pure ⟨htexts, by simpa using hvalue⟩

/-- On any line, the action is a statement that is spelt. -/
def SpeltAction (action : Action) : Prop := ∀ line, (Stmt.simple line action).Spelt

theorem yields_assigned {target : Expr} (htarget : SpeltTarget target) (operator : AssignOp)
    (fuel : Nat) :
    Yields (do
      let _ ← next
      let value ← expression fuel
      return some (.assign target operator value))
      fun result => ∀ action ∈ result, SpeltAction action := by
  refine .after movesOn_next fun _ => .bind (yields_expression fuel) fun value hvalue => .pure ?_
  rintro _ ⟨⟩ line
  simpa [Stmt.spelt_simple_iff, Action.words, Action.texts, Action.expressions, Stmt.target?]
    using ⟨⟨htarget.1, hvalue⟩, htarget.2⟩

theorem yields_stepped {target : Expr} (htarget : SpeltTarget target) (operator : StepOp) :
    Yields (do
      let _ ← next
      return some (.step target operator))
      fun result => ∀ action ∈ result, SpeltAction action := by
  refine .after movesOn_next fun _ => .pure ?_
  rintro _ ⟨⟩ line
  simpa [Stmt.spelt_simple_iff, Action.words, Action.texts, Action.expressions, Stmt.target?]
    using And.intro htarget.1 htarget.2

/-- Where an assignment is found, it is spelt. -/
theorem yields_assignment? (fuel : Nat) :
    Yields (assignment? fuel) fun result => ∀ action ∈ result, SpeltAction action := by
  intro cursor hspelt result after hread
  rw [assignment?] at hread
  split at hread
  case isFalse =>
    cases hread
    exact ⟨hspelt, by simp⟩
  case isTrue =>
    cases htarget : assignmentTarget fuel cursor with
    | error error stopped =>
        simp only [htarget] at hread
        cases hread
        exact ⟨hspelt, by simp⟩
    | ok target stopped =>
        obtain ⟨hstopped, hroot⟩ :=
          yields_assignmentTarget fuel cursor hspelt target stopped htarget
        simp only [htarget] at hread
        cases hassign : stopped.head.assignOp? with
        | some operator =>
            simp only [hassign] at hread
            exact yields_assigned hroot operator fuel stopped hstopped result after hread
        | none =>
            cases hstep : stopped.head.stepOp? with
            | some operator =>
                simp only [hassign, hstep] at hread
                exact yields_stepped hroot operator stopped hstopped result after hread
            | none =>
                simp only [hassign, hstep] at hread
                cases hread
                exact ⟨hspelt, by simp⟩

theorem yields_overlay (fuel : Nat) :
    Yields (overlay fuel) fun overlay => JoinsWords overlay.name := by
  refine .after movesOn_next fun keyword => .bind yields_peek fun name hname => ?_
  split
  case h_1 hkind =>
    refine .after movesOn_next fun _ => .after (movesOn_overlayArguments fuel) fun _ => .pure ?_
    exact Lexeme.joinsWords_of_isWord (hname.isWord hkind)
  case h_2 hkind =>
    refine .after movesOn_next fun _ => .after (movesOn_overlayArguments fuel) fun _ => .pure ?_
    exact Lexeme.joinsWords_of_isWord (hname.isWord_keyword hkind)
  case h_3 => exact .expected

theorem yields_overlays (fuel : Nat) :
    Yields (overlays fuel) fun overlays => ∀ overlay ∈ overlays, JoinsWords overlay.name := by
  induction fuel with
  | zero => exact .tooDeep
  | succ fuel ih =>
      rw [overlays]
      refine .bind (yields_overlay fuel) fun first hfirst => ?_
      refine .after movesOn_skipSeparators fun _ => .after movesOn_peek fun token => ?_
      refine .ite (fun _ => ?_) (.pure (by simpa using hfirst))
      exact .bind ih fun rest hrest => .pure (List.forall_mem_cons.mpr ⟨hfirst, hrest⟩)

theorem yields_listedParameters (name : String) (fuel : Nat) :
    Yields (listedParameters name fuel) fun parameters =>
      ∀ parameter ∈ parameters, Text.OnOneLine parameter.shown := by
  induction fuel with
  | zero => exact .tooDeep
  | succ fuel ih =>
      rw [listedParameters]
      refine .after movesOn_peek fun fragment => .ite (fun _ => ?_) (.pure (List.forall_mem_nil _))
      refine .after movesOn_next fun _ => ?_
      cases hparameter : Parameter.ofFragment? fragment.text.toList with
      | none => exact .failAt
      | some parameter =>
          have hshown := parameter.onOneLine_shown_iff.mpr
            (Parameter.onOneLine_of_ofFragment? hparameter)
          refine .after (movesOn_tryPunctuation _) fun _ =>
            .ite (fun _ => ?_) (.pure (by simpa using hshown))
          exact .bind ih fun rest hrest => .pure (List.forall_mem_cons.mpr ⟨hshown, hrest⟩)

/-- Parameters are shown on one line, raw or listed. -/
theorem yields_parameterList (name : String) (fuel : Nat) :
    Yields (parameterList name fuel) fun parameters => Text.OnOneLine parameters.shown := by
  refine .after movesOn_peek fun token => .ite (fun _ => ?_) ?_
  · exact .bind (yields_rawText _) fun text htext => .pure htext
  · refine .bind (yields_listedParameters name fuel) fun parameters hparameters => .pure ?_
    apply Text.onOneLine_intercalate (by decide)
    intro text htext
    obtain ⟨parameter, hparameter, rfl⟩ := List.mem_map.mp htext
    exact hparameters parameter hparameter

theorem yields_moreBases (fuel : Nat) :
    Yields (moreBases fuel) fun bases => ∀ base ∈ bases, JoinsWords base := by
  induction fuel with
  | zero => exact .tooDeep
  | succ fuel ih =>
      rw [moreBases]
      refine .after (movesOn_tryPunctuation _) fun _ =>
        .ite (fun _ => ?_) (.pure (List.forall_mem_nil _))
      refine .bind (yields_identifier _) fun base hbase => ?_
      exact .bind ih fun rest hrest => .pure (List.forall_mem_cons.mpr ⟨hbase, hrest⟩)

theorem yields_baseClasses (fuel : Nat) :
    Yields (baseClasses fuel) fun bases => ∀ base ∈ bases, JoinsWords base := by
  refine .after (movesOn_tryPunctuation _) fun _ => .ite (fun _ => ?_) (.pure nofun)
  refine .bind (yields_identifier _) fun base hbase => ?_
  exact .bind (yields_moreBases fuel) fun rest hrest =>
    .pure (List.forall_mem_cons.mpr ⟨hbase, hrest⟩)

/-- An action that assigns to no place is spelt if its words and expressions are. -/
theorem speltAction_of {action : Action} (htarget : (Stmt.simple 0 action).target? = none)
    (hwords : ∀ word ∈ action.words, JoinsWords word)
    (hexpressions : ∀ expression ∈ action.expressions, expression.Spelt) :
    SpeltAction action := by
  intro line
  have hnone : (Stmt.simple line action).target? = none := by
    cases action <;> simp_all [Stmt.target?]
  rw [Stmt.spelt_simple_iff, hnone]
  exact ⟨hwords, hexpressions, nofun⟩

/-- Every action is spelt, whatever its keyword. -/
theorem yields_keywordAction (word : Keyword) (fuel : Nat) :
    Yields (keywordAction word fuel) SpeltAction := by
  have hnone {action : Action} (hwords : action.words = []) (hexpressions : action.expressions = [])
      (htarget : (Stmt.simple 0 action).target? = none) : SpeltAction action :=
    speltAction_of htarget (by simp [hwords]) (by simp [hexpressions])
  have hknown {keyword : Token} : SpeltAction (.unknown keyword.kind.name keyword.text) :=
    speltAction_of rfl (by simpa [Action.words] using keyword.kind.joinsWords_name)
      (by simp [Action.expressions])
  cases word with
  | letWord | constWord =>
      refine .bind (yields_declaration fuel) fun binding hbinding => .pure ?_
      exact speltAction_of rfl hbinding.1 (by simpa [Action.expressions] using hbinding.2)
  | trueWord | falseWord =>
      refine .bind (yields_expression fuel) fun value hvalue => .pure ?_
      exact speltAction_of rfl (List.forall_mem_nil _) (by simpa [Action.expressions] using hvalue)
  | print | returnWord =>
      refine .after movesOn_next fun _ => ?_
      refine .bind (yields_optionalExpression fuel) fun value hvalue => .pure ?_
      exact speltAction_of rfl (List.forall_mem_nil _) (by simpa [Action.expressions] using hvalue)
  | input =>
      refine .after movesOn_next fun _ => ?_
      refine .bind (yields_identifier _) fun name hname => .pure ?_
      exact speltAction_of rfl (by simpa [Action.words, Action.texts] using hname)
        (List.forall_mem_nil _)
  | breakWord | continueWord | sync => exact .after movesOn_next fun _ => .pure (hnone rfl rfl rfl)
  | read =>
      refine .after movesOn_next fun _ => ?_
      refine .bind (yields_expression fuel) fun path hpath => ?_
      refine .after (movesOn_expectSymbol _) fun _ => ?_
      refine .bind (yields_identifier _) fun name hname => .pure ?_
      exact speltAction_of rfl (by simpa [Action.words, Action.texts] using hname)
        (by simpa [Action.expressions] using hpath)
  | write | append =>
      refine .after movesOn_next fun _ => ?_
      refine .bind (yields_expression fuel) fun path hpath => ?_
      refine .after (movesOn_expectSymbol _) fun _ => ?_
      refine .bind (yields_expression fuel) fun value hvalue => .pure ?_
      exact speltAction_of rfl (List.forall_mem_nil _)
        (by simpa [Action.expressions] using ⟨hpath, hvalue⟩)
  | channel =>
      refine .after movesOn_next fun _ => ?_
      refine .bind (yields_identifier _) fun name hname => ?_
      refine .bind (yields_optionalType _ fuel) fun element helement => .pure ?_
      exact speltAction_of rfl (by simpa [Action.words, Action.texts] using ⟨hname, helement⟩)
        (List.forall_mem_nil _)
  | send =>
      refine .after movesOn_next fun _ => ?_
      refine .bind (yields_identifier _) fun channel hchannel => ?_
      refine .bind (yields_expression fuel) fun value hvalue => .pure ?_
      exact speltAction_of rfl (by simpa [Action.words, Action.texts] using hchannel)
        (by simpa [Action.expressions] using hvalue)
  | recv =>
      refine .after movesOn_next fun _ => ?_
      refine .bind (yields_identifier _) fun channel hchannel => ?_
      refine .after (movesOn_expectSymbol _) fun _ => ?_
      refine .bind (yields_identifier _) fun name hname => .pure ?_
      exact speltAction_of rfl (by simpa [Action.words, Action.texts] using ⟨hchannel, hname⟩)
        (List.forall_mem_nil _)
  | mutate =>
      refine .after movesOn_next fun _ => ?_
      refine .bind (yields_assignmentTarget fuel) fun target htarget => ?_
      refine .after (movesOn_expectSymbol _) fun _ => ?_
      refine .bind (yields_expression fuel) fun value hvalue => .pure fun line => ?_
      simpa [Stmt.spelt_simple_iff, Action.words, Action.texts, Action.expressions, Stmt.target?]
        using ⟨⟨htarget.1, hvalue⟩, htarget.2⟩
  | scale =>
      refine .after movesOn_next fun _ => ?_
      refine .bind (yields_identifier _) fun name hname => ?_
      refine .bind (yields_pair fuel) fun source hsource => ?_
      refine .after (movesOn_expectSymbol _) fun _ => ?_
      refine .bind (yields_pair fuel) fun image himage => .pure ?_
      exact speltAction_of rfl (by simpa [Action.words, Action.texts] using hname)
        (by simpa [Action.expressions] using ⟨hsource.1, hsource.2, himage⟩)
  | bounds =>
      refine .after movesOn_next fun _ => ?_
      refine .bind (yields_identifier _) fun name hname => ?_
      refine .bind (yields_pair fuel) fun range hrange => .pure ?_
      exact speltAction_of rfl (by simpa [Action.words, Action.texts] using hname)
        (by simpa [Action.expressions] using hrange)
  | checkpoint =>
      refine .after movesOn_next fun _ => .after movesOn_peek fun label => ?_
      refine .ite (fun _ => ?_) (.pure (hnone rfl rfl rfl))
      exact .after movesOn_next fun _ => .pure (hnone rfl rfl rfl)
  | duration =>
      refine .after movesOn_next fun _ => ?_
      refine .bind (yields_identifier _) fun name hname => ?_
      refine .after (movesOn_expectSymbol _) fun _ => ?_
      refine .bind (yields_expression fuel) fun amount hamount => ?_
      refine .after movesOn_timeUnit fun unit => .pure ?_
      exact speltAction_of rfl (by simpa [Action.words, Action.texts] using hname)
        (by simpa [Action.expressions] using hamount)
  | derivative =>
      refine .after movesOn_next fun _ => ?_
      refine .bind (yields_identifier _) fun name hname => ?_
      refine .after (movesOn_expectSymbol _) fun _ => ?_
      refine .bind (yields_expression fuel) fun body hbody => ?_
      refine .after (movesOn_expectKeyword _ _) fun _ => ?_
      refine .bind (yields_identifier _) fun argument hargument => .pure ?_
      exact speltAction_of rfl (by simpa [Action.words, Action.texts] using ⟨hname, hargument⟩)
        (by simpa [Action.expressions] using hbody)
  | splice =>
      refine .after movesOn_next fun _ => .after movesOn_peek fun payload => ?_
      refine .ite (fun _ => ?_) .expected
      exact .after movesOn_next fun _ => .pure (hnone rfl rfl rfl)
  | throwWord =>
      refine .after movesOn_next fun _ => ?_
      refine .bind (yields_expression fuel) fun value hvalue => .pure ?_
      exact speltAction_of rfl (List.forall_mem_nil _) (by simpa [Action.expressions] using hvalue)
  | _ => exact .after movesOn_next fun keyword => .pure hknown

end Parser

end Tide
