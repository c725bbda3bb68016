import Tide.Grammar.Statement
import Tide.Proofs.Grammar.Cursor

/-!
# Readers move onward

A reader that succeeds leaves the cursor where it was or further on in the same tokens.  This holds
also of the reader that tries an assignment, since it goes back no further than it started.  Many
readers pass at least one token if there is one.  There is one rule for each way to put readers
together, and one theorem for each reader that reads no block.
-/

namespace Tide

/-- The second place is the first or one after it, in the same tokens. -/
structure Cursor.Onward (place later : Cursor) : Prop where
  tokens : later.tokens <:+ place.tokens
  finish : later.finish = place.finish

namespace Cursor.Onward

variable {first second third : Cursor}

theorem refl (place : Cursor) : place.Onward place := ⟨List.suffix_refl _, rfl⟩

theorem trans (hfirst : first.Onward second) (hsecond : second.Onward third) :
    first.Onward third :=
  ⟨hsecond.tokens.trans hfirst.tokens, hsecond.finish.trans hfirst.finish⟩

end Cursor.Onward

/-- The second place is after the first, unless the first is at the end. -/
structure Cursor.Past (place later : Cursor) : Prop where
  onward : place.Onward later
  shorter : place.tokens ≠ [] → later.tokens.length < place.tokens.length

theorem Cursor.Past.trans_onward {first second third : Cursor} (hfirst : first.Past second)
    (hsecond : second.Onward third) : first.Past third where
  onward := hfirst.onward.trans hsecond
  shorter htokens := hsecond.tokens.length_le.trans_lt (hfirst.shorter htokens)

/-- A token that is passed later on is passed. -/
theorem Cursor.Onward.trans_past {first second third : Cursor} (hfirst : first.Onward second)
    (hsecond : second.Past third) : first.Past third where
  onward := hfirst.trans hsecond.onward
  shorter htokens := by
    by_cases hend : second.tokens = []
    · have hthird := hsecond.onward.tokens.length_le
      rw [hend, List.length_nil] at hthird
      exact hthird.trans_lt (List.length_pos_iff.mpr htokens)
    · exact (hsecond.shorter hend).trans_le hfirst.tokens.length_le

namespace Parser

variable {α β : Type}

/-- Where the reader succeeds, it leaves the cursor onward. -/
def MovesOn (reader : Parser α) : Prop :=
  ∀ cursor value after, reader cursor = .ok value after → cursor.Onward after

/-- Where the reader succeeds and is not at the end, it has passed a token. -/
def Passes (reader : Parser α) : Prop :=
  ∀ cursor value after, reader cursor = .ok value after → cursor.Past after

/-! ## Rules -/

namespace MovesOn

theorem pure (value : α) : MovesOn (Pure.pure value) := by
  intro cursor result after hread
  cases hread
  exact .refl cursor

/-- One reader after the other moves onward if both do. -/
theorem bind {first : Parser α} {next : α → Parser β} (hfirst : MovesOn first)
    (hnext : ∀ value, MovesOn (next value)) : MovesOn (first >>= next) := by
  intro cursor result after hread
  obtain ⟨value, between, hvalue, hresult⟩ := exists_of_bind_eq_ok hread
  exact (hfirst cursor value between hvalue).trans (hnext value between result after hresult)

theorem ite {condition : Prop} [Decidable condition] {yes no : Parser α} (hyes : MovesOn yes)
    (hno : MovesOn no) : MovesOn (if condition then yes else no) :=
  iteInduction (fun _ => hyes) fun _ => hno

end MovesOn

namespace Passes

theorem movesOn {reader : Parser α} (hreader : Passes reader) : MovesOn reader :=
  fun cursor value after hread => (hreader cursor value after hread).onward

/-- It is enough that the first reader passes a token. -/
theorem bind {first : Parser α} {next : α → Parser β} (hfirst : Passes first)
    (hnext : ∀ value, MovesOn (next value)) : Passes (first >>= next) := by
  intro cursor result after hread
  obtain ⟨value, between, hvalue, hresult⟩ := exists_of_bind_eq_ok hread
  have hafter := hnext value between result after hresult
  exact (hfirst cursor value between hvalue).trans_onward hafter

/-- It is enough that the second reader passes a token, too. -/
theorem after {first : Parser α} {next : α → Parser β} (hfirst : MovesOn first)
    (hnext : ∀ value, Passes (next value)) : Passes (first >>= next) := by
  intro cursor result after hread
  obtain ⟨value, between, hvalue, hresult⟩ := exists_of_bind_eq_ok hread
  have hbetween := hfirst cursor value between hvalue
  exact hbetween.trans_past (hnext value between result after hresult)

theorem ite {condition : Prop} [Decidable condition] {yes no : Parser α} (hyes : Passes yes)
    (hno : Passes no) : Passes (if condition then yes else no) :=
  iteInduction (fun _ => hyes) fun _ => hno

end Passes

/-! ## Single tokens -/

theorem passes_failAt (line : Nat) (cause : ParseCause) :
    Passes (failAt line cause : Parser α) := by
  intro cursor value after hread
  cases hread

theorem movesOn_failAt (line : Nat) (cause : ParseCause) :
    MovesOn (failAt line cause : Parser α) :=
  (passes_failAt line cause).movesOn

theorem movesOn_peek : MovesOn peek := by
  intro cursor value after hread
  cases hread
  exact .refl cursor

/-- Only at the end is there no token to pass. -/
theorem passes_next : Passes next := by
  intro cursor value after hread
  rw [next_apply] at hread
  cases hread
  refine ⟨⟨List.tail_suffix _, rfl⟩, fun htokens => ?_⟩
  rw [List.length_tail]
  exact Nat.sub_lt (List.length_pos_iff.mpr htokens) Nat.one_pos

theorem movesOn_next : MovesOn next := passes_next.movesOn

theorem passes_expected (what : Expectation) : Passes (expected what : Parser α) :=
  .after movesOn_peek fun _ => passes_failAt _ _

theorem movesOn_expected (what : Expectation) : MovesOn (expected what : Parser α) :=
  (passes_expected what).movesOn

theorem passes_failHere (cause : ParseCause) : Passes (failHere cause : Parser α) :=
  .after movesOn_peek fun _ => passes_failAt _ _

theorem passes_tooDeep : Passes (tooDeep : Parser α) := passes_failHere .tooDeep

theorem movesOn_tooDeep : MovesOn (tooDeep : Parser α) := passes_tooDeep.movesOn

theorem movesOn_tryPunctuation (sign : Symbol) : MovesOn (tryPunctuation sign) := by
  refine .bind movesOn_peek fun token => ?_
  refine .ite ?_ (.pure _)
  exact .bind movesOn_next fun _ => .pure _

theorem movesOn_tryWord (word : Keyword) : MovesOn (tryWord word) := by
  refine .bind movesOn_peek fun token => ?_
  refine .ite ?_ (.pure _)
  exact .bind movesOn_next fun _ => .pure _

theorem movesOn_expectSymbol (sign : Symbol) : MovesOn (expectSymbol sign) :=
  .bind movesOn_peek fun _ => .ite movesOn_next (movesOn_expected _)

theorem movesOn_expectKeyword (word : Keyword) (what : Expectation) :
    MovesOn (expectKeyword word what) :=
  .bind movesOn_peek fun _ => .ite movesOn_next (movesOn_expected _)

theorem passes_identifier (what : Expectation) : Passes (identifier what) := by
  refine .after movesOn_peek fun token => ?_
  refine .ite ?_ (passes_expected what)
  exact .bind passes_next fun _ => .pure _

theorem movesOn_identifier (what : Expectation) : MovesOn (identifier what) :=
  (passes_identifier what).movesOn

theorem movesOn_skipSeparators : MovesOn skipSeparators := by
  intro cursor value after hread
  cases hread
  exact ⟨List.dropWhile_suffix _, rfl⟩

theorem movesOn_note (entry : Note) : MovesOn (note entry) := by
  intro cursor value after hread
  cases hread
  exact ⟨List.suffix_refl _, rfl⟩

theorem movesOn_numberValue (token : Token) : MovesOn (numberValue token) := by
  rw [numberValue]
  cases Number.ofText? token.text.toList with
  | none => exact movesOn_failAt _ _
  | some value => exact .pure _

/-- A literal is a token at least, with or without a sign before it. -/
theorem passes_literal : Passes literal := by
  refine .after (movesOn_tryPunctuation .minus) fun negative => ?_
  refine .after movesOn_peek fun token => ?_
  split
  · refine .after (movesOn_numberValue token) fun value => ?_
    exact .bind passes_next fun _ => .pure _
  · exact .bind passes_next fun _ => .pure _
  · exact .bind passes_next fun _ => .pure _
  · exact .bind passes_next fun _ => .pure _
  · exact passes_expected .literal

theorem movesOn_literal : MovesOn literal := passes_literal.movesOn

/-- What follows closed parentheses is a later part of the tokens. -/
theorem untilClosed_suffix {depth : Nat} {tokens inside after : List Token}
    (hclosed : untilClosed depth tokens = some (inside, after)) : after <:+ tokens := by
  induction tokens generalizing depth inside with
  | nil => simp [untilClosed] at hclosed
  | cons token rest ih =>
      have hinner : ∀ inner, (untilClosed inner rest).map
          (fun parts => (token :: parts.1, parts.2)) = some (inside, after) →
          after <:+ token :: rest := by
        intro inner hinner
        obtain ⟨parts, hparts, heq⟩ := Option.map_eq_some_iff.mp hinner
        cases heq
        exact (ih hparts).trans (List.suffix_cons token rest)
      unfold untilClosed at hclosed
      split at hclosed
      · exact hinner _ hclosed
      · split at hclosed
        · cases depth with
          | zero =>
              cases hclosed
              exact List.suffix_cons token after
          | succ depth => exact hinner _ hclosed
        · exact hinner _ hclosed

/-- Copied text ends behind the parenthesis that closes it. -/
theorem movesOn_rawText (what : RawText) : MovesOn (rawText what) := by
  refine .bind (movesOn_expectSymbol .openParen) fun opening => ?_
  intro cursor value after hread
  cases hclosed : untilClosed 0 cursor.tokens with
  | none => simp [hclosed] at hread
  | some parts =>
      simp only [hclosed] at hread
      cases hread
      exact ⟨untilClosed_suffix hclosed, rfl⟩

/-! ## Expressions -/

/-- Qualifiers are taken off the front of the tokens. -/
theorem qualifiers_suffix (tokens : List Token) : (Token.qualifiers tokens).2 <:+ tokens := by
  induction tokens using Token.qualifiers.induct with
  | case1 separator name rest hcontinues names after hrest ih =>
      rw [Token.qualifiers, if_pos hcontinues]
      exact ih.trans ((List.suffix_cons name rest).trans (List.suffix_cons separator _))
  | case2 separator name rest hends =>
      rw [Token.qualifiers, if_neg hends]
  | case3 tokens hshort =>
      rcases tokens with _ | ⟨first, _ | ⟨second, rest⟩⟩
      · exact List.suffix_refl _
      · exact List.suffix_refl _
      · exact absurd rfl (hshort first second rest)

theorem movesOn_qualifiedName (first : String) : MovesOn (qualifiedName first) := by
  intro cursor value after hread
  cases hread
  exact ⟨qualifiers_suffix cursor.tokens, rfl⟩

mutual

/-- Every expression starts with an operand, and every operand passes a token. -/
theorem passes_expression : ∀ fuel, Passes (expression fuel)
  | 0 => passes_tooDeep
  | fuel + 1 => by
      rw [expression]
      refine .bind (passes_binary 1 fuel) fun condition => ?_
      refine .bind movesOn_peek fun question => ?_
      refine .ite ?_ (.pure _)
      refine .bind movesOn_next fun _ => ?_
      refine .bind (passes_expression fuel).movesOn fun positive => ?_
      refine .bind (movesOn_expectSymbol .colon) fun _ => ?_
      exact .bind (passes_expression fuel).movesOn fun _ => .pure _

theorem passes_binary (least : Nat) : ∀ fuel, Passes (binary least fuel)
  | 0 => passes_tooDeep
  | fuel + 1 => by
      rw [binary]
      exact .bind (passes_unary fuel) fun left => movesOn_binaryAfter least left fuel

theorem movesOn_binaryAfter (least : Nat) (left : Expr) : ∀ fuel,
    MovesOn (binaryAfter least left fuel)
  | 0 => movesOn_tooDeep
  | fuel + 1 => by
      rw [binaryAfter]
      refine .bind movesOn_peek fun token => ?_
      cases token.binaryOp? with
      | none => exact .pure _
      | some operator =>
          refine .ite (.pure _) ?_
          refine .bind movesOn_next fun _ => ?_
          refine .bind (passes_binary (operator.precedence + 1) fuel).movesOn fun right => ?_
          exact movesOn_binaryAfter least _ fuel

theorem passes_unary : ∀ fuel, Passes (unary fuel)
  | 0 => passes_tooDeep
  | fuel + 1 => by
      rw [unary]
      refine .after movesOn_peek fun token => ?_
      cases token.unaryOp? with
      | none => exact .bind (passes_primary fuel) fun target => movesOn_suffixes target fuel
      | some operator =>
          refine .bind passes_next fun _ => ?_
          exact .bind (passes_unary fuel).movesOn fun _ => .pure _

theorem movesOn_suffixes (target : Expr) : ∀ fuel, MovesOn (suffixes target fuel)
  | 0 => movesOn_tooDeep
  | fuel + 1 => by
      rw [suffixes]
      refine .bind movesOn_peek fun token => ?_
      split
      · refine .bind movesOn_next fun _ => ?_
        refine .bind (movesOn_arguments fuel) fun arguments => ?_
        refine .bind (movesOn_expectSymbol .closeParen) fun _ => ?_
        exact movesOn_suffixes _ fuel
      · refine .bind movesOn_next fun _ => ?_
        refine .bind (passes_expression fuel).movesOn fun index => ?_
        refine .bind (movesOn_expectSymbol .closeBracket) fun _ => ?_
        exact movesOn_suffixes _ fuel
      · refine .bind movesOn_next fun _ => ?_
        refine .bind (movesOn_identifier .memberName) fun name => ?_
        exact movesOn_suffixes _ fuel
      · exact .pure _

theorem movesOn_arguments : ∀ fuel, MovesOn (arguments fuel)
  | 0 => movesOn_tooDeep
  | fuel + 1 => by
      rw [arguments]
      refine .bind movesOn_peek fun token => ?_
      refine .ite (.pure _) ?_
      refine .bind (passes_expression fuel).movesOn fun first => ?_
      exact .bind (movesOn_moreArguments fuel) fun _ => .pure _

theorem movesOn_moreArguments : ∀ fuel, MovesOn (moreArguments fuel)
  | 0 => movesOn_tooDeep
  | fuel + 1 => by
      rw [moreArguments]
      refine .bind (movesOn_tryPunctuation .comma) fun comma => ?_
      refine .ite ?_ (.pure _)
      refine .bind (passes_expression fuel).movesOn fun argument => ?_
      exact .bind (movesOn_moreArguments fuel) fun _ => .pure _

theorem passes_primary : ∀ fuel, Passes (primary fuel)
  | 0 => passes_tooDeep
  | fuel + 1 => by
      rw [primary]
      refine .after movesOn_peek fun token => ?_
      split
      · refine .bind passes_next fun _ => ?_
        exact .bind (movesOn_numberValue token) fun _ => .pure _
      · exact .bind passes_next fun _ => .pure _
      · exact .bind passes_next fun _ => .pure _
      · exact .bind passes_next fun _ => .pure _
      · refine .bind passes_next fun _ => ?_
        exact .bind (movesOn_qualifiedName token.text) fun _ => .pure _
      · refine .bind passes_next fun _ => ?_
        refine .bind (passes_expression fuel).movesOn fun inner => ?_
        exact .bind (movesOn_expectSymbol .closeParen) fun _ => .pure _
      · exact passes_expected .expression

end

/-- The weaker form, for expressions that are not the first thing read. -/
theorem movesOn_expression (fuel : Nat) : MovesOn (expression fuel) :=
  (passes_expression fuel).movesOn

theorem movesOn_targetSuffixes (line : Nat) (target : Expr) (fuel : Nat) :
    MovesOn (targetSuffixes line target fuel) := by
  induction fuel generalizing target with
  | zero => exact movesOn_tooDeep
  | succ fuel ih =>
      rw [targetSuffixes]
      refine .bind (movesOn_tryPunctuation .openBracket) fun bracket => ?_
      refine .ite ?_ ?_
      · refine .bind (movesOn_expression fuel) fun index => ?_
        exact .bind (movesOn_expectSymbol .closeBracket) fun _ => ih _
      · refine .bind (movesOn_tryPunctuation .dot) fun dot => ?_
        refine .ite ?_ (.pure _)
        exact .bind (movesOn_identifier .memberName) fun _ => ih _

theorem passes_assignmentTarget (fuel : Nat) : Passes (assignmentTarget fuel) := by
  refine .after movesOn_peek fun token => ?_
  exact .bind (passes_identifier .assignmentTarget) fun _ => movesOn_targetSuffixes _ _ fuel

theorem movesOn_pair (fuel : Nat) : MovesOn (pair fuel) := by
  refine .bind (movesOn_expectSymbol .openParen) fun _ => ?_
  refine .bind (movesOn_expression fuel) fun first => ?_
  refine .bind (movesOn_expectSymbol .comma) fun _ => ?_
  refine .bind (movesOn_expression fuel) fun second => ?_
  exact .bind (movesOn_expectSymbol .closeParen) fun _ => .pure _

/-! ## Statements without blocks -/

theorem movesOn_typeNameAfter (fuel : Nat) : MovesOn (typeNameAfter fuel) := by
  induction fuel with
  | zero => exact movesOn_tooDeep
  | succ fuel ih =>
      rw [typeNameAfter]
      refine .bind (movesOn_tryPunctuation .doubleColon) fun separator => ?_
      refine .ite ?_ (.pure _)
      refine .bind (movesOn_identifier .typeName) fun segment => ?_
      exact .bind ih fun _ => .pure _

theorem movesOn_typeName (fuel : Nat) : MovesOn (typeName fuel) := by
  refine .bind (movesOn_identifier .typeName) fun first => ?_
  exact .bind (movesOn_typeNameAfter fuel) fun _ => .pure _

theorem movesOn_optionalType (sign : Symbol) (fuel : Nat) : MovesOn (optionalType sign fuel) := by
  refine .bind (movesOn_tryPunctuation sign) fun announced => ?_
  exact .ite (.bind (movesOn_typeName fuel) fun _ => .pure _) (.pure _)

theorem movesOn_optionalExpression (fuel : Nat) : MovesOn (optionalExpression fuel) := by
  refine .bind movesOn_peek fun token => ?_
  refine .ite ?_ (.pure _)
  exact .bind (movesOn_expression fuel) fun _ => .pure _

/-- A declaration passes its keyword. -/
theorem passes_declaration (fuel : Nat) : Passes (declaration fuel) := by
  refine .bind passes_next fun keyword => ?_
  refine .bind (movesOn_identifier .variableName) fun name => ?_
  refine .bind (movesOn_optionalType .colon fuel) fun type => ?_
  refine .bind (movesOn_tryPunctuation .equals) fun equals => ?_
  refine .ite ?_ (.pure _)
  exact .bind (movesOn_expression fuel) fun _ => .pure _

/-- Either no assignment stands here and nothing is read, or an assignment or a step is. -/
theorem assignment?_cases {fuel : Nat} {cursor after : Cursor} {result : Option Action}
    (hread : assignment? fuel cursor = .ok result after) :
    (result = none ∧ after = cursor) ∨ (cursor.Past after ∧
      ((∃ target operator value, result = some (.assign target operator value)) ∨
        ∃ target operator, result = some (.step target operator))) := by
  rw [assignment?] at hread
  split at hread
  case isFalse =>
    cases hread
    exact .inl ⟨rfl, rfl⟩
  case isTrue =>
    cases htarget : assignmentTarget fuel cursor with
    | error error stopped =>
        simp only [htarget] at hread
        cases hread
        exact .inl ⟨rfl, rfl⟩
    | ok target stopped =>
        have hstopped := passes_assignmentTarget fuel cursor target stopped htarget
        simp only [htarget] at hread
        cases hassign : stopped.head.assignOp? with
        | some operator =>
            simp only [hassign] at hread
            obtain ⟨sign, between, hsign, hread⟩ := exists_of_bind_eq_ok hread
            obtain ⟨value, finish, hvalue, hread⟩ := exists_of_bind_eq_ok hread
            cases hread
            have hbetween := movesOn_next stopped sign between hsign
            have hafter := movesOn_expression fuel between value after hvalue
            exact .inr ⟨hstopped.trans_onward (hbetween.trans hafter),
              .inl ⟨target, operator, value, rfl⟩⟩
        | none =>
            cases hstep : stopped.head.stepOp? with
            | some operator =>
                simp only [hassign, hstep] at hread
                obtain ⟨sign, between, hsign, hread⟩ := exists_of_bind_eq_ok hread
                cases hread
                have hafter := movesOn_next stopped sign after hsign
                exact .inr ⟨hstopped.trans_onward hafter, .inr ⟨target, operator, rfl⟩⟩
            | none =>
                simp only [hassign, hstep] at hread
                cases hread
                exact .inl ⟨rfl, rfl⟩

theorem movesOn_overlayArguments (fuel : Nat) : MovesOn (overlayArguments fuel) := by
  induction fuel with
  | zero => exact movesOn_tooDeep
  | succ fuel ih =>
      rw [overlayArguments]
      refine .bind movesOn_peek fun token => ?_
      refine .ite ?_ (.pure _)
      refine .bind movesOn_literal fun argument => ?_
      exact .bind ih fun _ => .pure _

theorem passes_overlay (fuel : Nat) : Passes (overlay fuel) := by
  refine .bind passes_next fun keyword => ?_
  refine .bind movesOn_peek fun name => ?_
  split
  · refine .bind movesOn_next fun _ => ?_
    exact .bind (movesOn_overlayArguments fuel) fun _ => .pure _
  · refine .bind movesOn_next fun _ => ?_
    exact .bind (movesOn_overlayArguments fuel) fun _ => .pure _
  · exact movesOn_expected .overlayName

theorem movesOn_listedParameters (name : String) (fuel : Nat) :
    MovesOn (listedParameters name fuel) := by
  induction fuel with
  | zero => exact movesOn_tooDeep
  | succ fuel ih =>
      rw [listedParameters]
      refine .bind movesOn_peek fun fragment => ?_
      refine .ite ?_ (.pure _)
      refine .bind movesOn_next fun _ => ?_
      cases Parameter.ofFragment? fragment.text.toList with
      | none => exact movesOn_failAt _ _
      | some parameter =>
          refine .bind (movesOn_tryPunctuation .comma) fun comma => ?_
          refine .ite ?_ (.pure _)
          exact .bind ih fun _ => .pure _

theorem movesOn_parameterList (name : String) (fuel : Nat) :
    MovesOn (parameterList name fuel) := by
  refine .bind movesOn_peek fun token => ?_
  refine .ite ?_ ?_
  · exact .bind (movesOn_rawText .parameterList) fun _ => .pure _
  · exact .bind (movesOn_listedParameters name fuel) fun _ => .pure _

theorem movesOn_moreBases (fuel : Nat) : MovesOn (moreBases fuel) := by
  induction fuel with
  | zero => exact movesOn_tooDeep
  | succ fuel ih =>
      rw [moreBases]
      refine .bind (movesOn_tryPunctuation .comma) fun comma => ?_
      refine .ite ?_ (.pure _)
      refine .bind (movesOn_identifier .baseClass) fun base => ?_
      exact .bind ih fun _ => .pure _

theorem movesOn_baseClasses (fuel : Nat) : MovesOn (baseClasses fuel) := by
  refine .bind (movesOn_tryPunctuation .colon) fun colon => ?_
  refine .ite ?_ (.pure _)
  refine .bind (movesOn_identifier .baseClass) fun base => ?_
  exact .bind (movesOn_moreBases fuel) fun _ => .pure _

theorem movesOn_pattern : MovesOn pattern := by
  refine .bind movesOn_peek fun token => ?_
  refine .ite ?_ ?_
  · exact .bind movesOn_next fun _ => .pure _
  · exact .bind movesOn_literal fun _ => .pure _

theorem movesOn_morePatterns (fuel : Nat) : MovesOn (morePatterns fuel) := by
  induction fuel with
  | zero => exact movesOn_tooDeep
  | succ fuel ih =>
      rw [morePatterns]
      refine .bind movesOn_peek fun token => ?_
      refine .ite ?_ (.pure _)
      refine .bind movesOn_next fun _ => ?_
      refine .bind movesOn_pattern fun first => ?_
      exact .bind ih fun _ => .pure _

theorem movesOn_timeUnit : MovesOn timeUnit := by
  refine .bind movesOn_next fun token => ?_
  cases TimeUnit.ofText? token.text with
  | none => exact movesOn_failAt _ _
  | some unit => exact .pure _

/-- An action passes its keyword, or the expression that it is. -/
theorem passes_keywordAction (word : Keyword) (fuel : Nat) :
    Passes (keywordAction word fuel) := by
  cases word with
  | letWord | constWord => exact .bind (passes_declaration fuel) fun _ => .pure _
  | trueWord | falseWord => exact .bind (passes_expression fuel) fun _ => .pure _
  | print | returnWord =>
      refine .bind passes_next fun _ => ?_
      exact .bind (movesOn_optionalExpression fuel) fun _ => .pure _
  | input =>
      refine .bind passes_next fun _ => ?_
      exact .bind (movesOn_identifier .inputVariable) fun _ => .pure _
  | read =>
      refine .bind passes_next fun _ => ?_
      refine .bind (movesOn_expression fuel) fun path => ?_
      refine .bind (movesOn_expectSymbol .arrow) fun _ => ?_
      exact .bind (movesOn_identifier .readVariable) fun _ => .pure _
  | write | append =>
      refine .bind passes_next fun _ => ?_
      refine .bind (movesOn_expression fuel) fun path => ?_
      refine .bind (movesOn_expectSymbol .comma) fun _ => ?_
      exact .bind (movesOn_expression fuel) fun _ => .pure _
  | channel =>
      refine .bind passes_next fun _ => ?_
      refine .bind (movesOn_identifier .channelName) fun name => ?_
      exact .bind (movesOn_optionalType .colon fuel) fun _ => .pure _
  | send =>
      refine .bind passes_next fun _ => ?_
      refine .bind (movesOn_identifier .channelName) fun name => ?_
      exact .bind (movesOn_expression fuel) fun _ => .pure _
  | recv =>
      refine .bind passes_next fun _ => ?_
      refine .bind (movesOn_identifier .channelName) fun name => ?_
      refine .bind (movesOn_expectSymbol .arrow) fun _ => ?_
      exact .bind (movesOn_identifier .receiveVariable) fun _ => .pure _
  | mutate =>
      refine .bind passes_next fun _ => ?_
      refine .bind (passes_assignmentTarget fuel).movesOn fun target => ?_
      refine .bind (movesOn_expectSymbol .equals) fun _ => ?_
      exact .bind (movesOn_expression fuel) fun _ => .pure _
  | scale =>
      refine .bind passes_next fun _ => ?_
      refine .bind (movesOn_identifier .scaledVariable) fun name => ?_
      refine .bind (movesOn_pair fuel) fun source => ?_
      refine .bind (movesOn_expectSymbol .arrow) fun _ => ?_
      exact .bind (movesOn_pair fuel) fun _ => .pure _
  | bounds =>
      refine .bind passes_next fun _ => ?_
      refine .bind (movesOn_identifier .clampedVariable) fun name => ?_
      exact .bind (movesOn_pair fuel) fun _ => .pure _
  | checkpoint =>
      refine .bind passes_next fun _ => ?_
      refine .bind movesOn_peek fun label => ?_
      refine .ite ?_ (.pure _)
      exact .bind movesOn_next fun _ => .pure _
  | duration =>
      refine .bind passes_next fun _ => ?_
      refine .bind (movesOn_identifier .durationName) fun name => ?_
      refine .bind (movesOn_expectSymbol .equals) fun _ => ?_
      refine .bind (movesOn_expression fuel) fun amount => ?_
      exact .bind movesOn_timeUnit fun _ => .pure _
  | derivative =>
      refine .bind passes_next fun _ => ?_
      refine .bind (movesOn_identifier .derivativeName) fun name => ?_
      refine .bind (movesOn_expectSymbol .equals) fun _ => ?_
      refine .bind (movesOn_expression fuel) fun body => ?_
      refine .bind (movesOn_expectKeyword .wrt .wrt) fun _ => ?_
      exact .bind (movesOn_identifier .derivativeVariable) fun _ => .pure _
  | splice =>
      refine .bind passes_next fun _ => ?_
      refine .bind movesOn_peek fun payload => ?_
      refine .ite ?_ (movesOn_expected .splicePayload)
      exact .bind movesOn_next fun _ => .pure _
  | throwWord =>
      refine .bind passes_next fun _ => ?_
      exact .bind (movesOn_expression fuel) fun _ => .pure _
  | _ => exact .bind passes_next fun _ => .pure _

end Parser

end Tide
