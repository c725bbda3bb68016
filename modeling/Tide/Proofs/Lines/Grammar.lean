import Tide.Grammar.Statement
import Tide.Proofs.Lines.Tree

/-!
# Reading without lines

Readers look at the kinds and texts of tokens and copy their lines.  So reading the same tokens on
other lines gives the same tree on other lines, or fails for the same cause.  There is one rule for
each way to put readers together, and one theorem for each reader.
-/

namespace Tide

def Token.unlined (token : Token) : Token := { token with line := 0 }

def Note.unlined (note : Note) : Note := { note with line := 0 }

/-- The cursor before the same tokens, with all lines set to zero. -/
def Cursor.unlined (cursor : Cursor) : Cursor where
  tokens := cursor.tokens.map Token.unlined
  finish := cursor.finish.unlined
  notes := cursor.notes.map Note.unlined

def ParseCause.unlined : ParseCause → ParseCause
  | .expected what found => .expected what found.unlined
  | cause => cause

def ParseError.unlined (error : ParseError) : ParseError := ⟨0, error.cause.unlined⟩

/-- What a parse error says does not depend on lines. -/
theorem ParseCause.message_unlined (cause : ParseCause) :
    cause.unlined.message = cause.message := by
  cases cause <;> rfl

theorem Cursor.head_unlined (cursor : Cursor) : cursor.unlined.head = cursor.head.unlined := by
  rcases cursor with ⟨_ | ⟨token, rest⟩, finish, notes⟩ <;> rfl

namespace Parser

variable {α β : Type} {erase : α → α} {eraseNext : β → β}

/-- The result with all lines set to zero, where `erase` does that to the value. -/
def unlinedResult (erase : α → α) :
    EStateM.Result ParseError Cursor α → EStateM.Result ParseError Cursor α
  | .ok value cursor => .ok (erase value) cursor.unlined
  | .error error cursor => .error error.unlined cursor.unlined

/-- On tokens whose lines are set to zero, `alike` reads what `reader` reads, with lines set to
zero. -/
def Erases (erase : α → α) (reader alike : Parser α) : Prop :=
  ∀ cursor : Cursor, alike cursor.unlined = unlinedResult erase (reader cursor)

/-- The reader reads the same on other lines. -/
abbrev Blind (erase : α → α) (reader : Parser α) : Prop := Erases erase reader reader

/-! ## Rules -/

namespace Erases

theorem pure {value other : α} (hvalue : erase value = other) :
    Erases erase (Pure.pure value) (Pure.pure other) := by
  intro cursor
  rw [← hvalue]
  rfl

/-- What is read next is to be alike for values that are the same up to lines. -/
theorem bind {first firstAlike : Parser α} {next nextAlike : α → Parser β}
    (hfirst : Erases erase first firstAlike)
    (hnext : ∀ value, Erases eraseNext (next value) (nextAlike (erase value))) :
    Erases eraseNext (first >>= next) (firstAlike >>= nextAlike) := by
  intro cursor
  have hread := hfirst cursor
  simp only [Bind.bind, EStateM.bind, hread]
  cases first cursor with
  | ok value after => exact hnext value after
  | error error after => rfl

theorem ite {condition : Prop} [Decidable condition] {yes yesAlike no noAlike : Parser α}
    (hyes : Erases erase yes yesAlike) (hno : Erases erase no noAlike) :
    Erases erase (if condition then yes else no) (if condition then yesAlike else noAlike) := by
  by_cases hcondition : condition
  · rw [if_pos hcondition, if_pos hcondition]
    exact hyes
  · rw [if_neg hcondition, if_neg hcondition]
    exact hno

end Erases

/-! ## Single tokens -/

theorem erases_failAt (line : Nat) (cause : ParseCause) :
    Erases erase (failAt line cause) (failAt 0 cause.unlined) := fun _ => rfl

/-- The token ahead is the same up to its line. -/
theorem blind_peek : Blind Token.unlined peek := by
  intro cursor
  rw [peek, cursor.head_unlined]
  rfl

theorem blind_next : Blind Token.unlined next := by
  intro cursor
  rcases cursor with ⟨_ | ⟨token, rest⟩, finish, notes⟩ <;> rfl

theorem blind_expected (what : Expectation) : Blind erase (expected what) := by
  refine .bind blind_peek fun token => ?_
  exact erases_failAt token.line (.expected what token)

theorem blind_tooDeep : Blind erase tooDeep := by
  refine .bind blind_peek fun token => ?_
  exact erases_failAt token.line .tooDeep

theorem blind_strayOverlay : Blind erase (failHere .strayOverlay) := by
  refine .bind blind_peek fun token => ?_
  exact erases_failAt token.line .strayOverlay

theorem blind_tryPunctuation (sign : Symbol) : Blind id (tryPunctuation sign) := by
  refine .bind blind_peek fun token => ?_
  refine .ite ?_ (.pure rfl)
  exact .bind blind_next fun _ => .pure rfl

theorem blind_tryWord (word : Keyword) : Blind id (tryWord word) := by
  refine .bind blind_peek fun token => ?_
  refine .ite ?_ (.pure rfl)
  exact .bind blind_next fun _ => .pure rfl

theorem blind_expectSymbol (sign : Symbol) : Blind Token.unlined (expectSymbol sign) := by
  refine .bind blind_peek fun token => ?_
  exact .ite blind_next (blind_expected _)

theorem blind_expectKeyword (word : Keyword) (what : Expectation) :
    Blind Token.unlined (expectKeyword word what) := by
  refine .bind blind_peek fun token => ?_
  exact .ite blind_next (blind_expected _)

theorem blind_identifier (what : Expectation) : Blind id (identifier what) := by
  refine .bind blind_peek fun token => ?_
  refine .ite ?_ (blind_expected what)
  exact .bind blind_next fun _ => .pure rfl

theorem blind_skipSeparators : Blind id skipSeparators := by
  intro cursor
  have hsame : (fun token : Token => token.isSymbol .semicolon) ∘ Token.unlined =
      (·.isSymbol .semicolon) := rfl
  simp only [skipSeparators, unlinedResult, Cursor.unlined, List.dropWhile_map, hsame, id_eq]

theorem erases_note (line : Nat) (text : String) :
    Erases id (note ⟨line, text⟩) (note ⟨0, text⟩) := fun _ => rfl

theorem erases_numberValue (token : Token) :
    Erases id (numberValue token) (numberValue token.unlined) := by
  have htext : token.unlined.text = token.text := rfl
  rw [numberValue, numberValue, htext]
  cases Number.ofText? token.text.toList with
  | none => exact erases_failAt token.line (.invalidNumber token.text)
  | some value => exact .pure rfl

/-- A literal carries no line. -/
theorem blind_literal : Blind id literal := by
  refine .bind (blind_tryPunctuation .minus) fun negative => ?_
  refine .bind blind_peek fun token => ?_
  have hkind : token.unlined.kind = token.kind := rfl
  simp only [hkind, id_eq]
  split
  · refine .bind (erases_numberValue token) fun value => ?_
    exact .bind blind_next fun _ => .pure rfl
  · exact .bind blind_next fun _ => .pure rfl
  · exact .bind blind_next fun _ => .pure rfl
  · exact .bind blind_next fun _ => .pure rfl
  · exact blind_expected .literal

/-- Which parenthesis closes is decided by the kinds of tokens. -/
theorem untilClosed_unlined (depth : Nat) (tokens : List Token) :
    untilClosed depth (tokens.map Token.unlined) =
      (untilClosed depth tokens).map
        (Prod.map (List.map Token.unlined) (List.map Token.unlined)) := by
  induction tokens generalizing depth with
  | nil => rfl
  | cons token rest ih =>
      have hsymbol : ∀ sign, token.unlined.isSymbol sign = token.isSymbol sign := fun _ => rfl
      simp only [List.map_cons, untilClosed, hsymbol, ih]
      split
      · rw [Option.map_map, Option.map_map]
        rfl
      · split
        · cases depth with
          | zero => rfl
          | succ depth =>
              simp only [Option.map_map]
              rfl
        · rw [Option.map_map, Option.map_map]
          rfl

theorem joinedText_unlined (tokens : List Token) :
    joinedText (tokens.map Token.unlined) = joinedText tokens := by
  rw [joinedText, List.map_map]
  rfl

/-- Text is copied from the texts of tokens. -/
theorem blind_rawText (what : RawText) : Blind id (rawText what) := by
  refine .bind (blind_expectSymbol .openParen) fun opening => ?_
  intro cursor
  have htokens : cursor.unlined.tokens = cursor.tokens.map Token.unlined := rfl
  simp only [htokens, untilClosed_unlined]
  cases untilClosed 0 cursor.tokens with
  | none => rfl
  | some parts =>
      simp only [Option.map_some, Prod.map, joinedText_unlined]
      rfl

/-! ## Expressions -/

theorem qualifiers_unlined (tokens : List Token) :
    Token.qualifiers (tokens.map Token.unlined) =
      ((Token.qualifiers tokens).1, (Token.qualifiers tokens).2.map Token.unlined) := by
  induction tokens using Token.qualifiers.induct with
  | case1 separator name rest hcontinues names after hrest ih =>
      have hcopy : (separator.unlined.isSymbol .doubleColon && name.unlined.isIdentifier) = true :=
        hcontinues
      simp only [List.map_cons, Token.qualifiers, if_pos hcontinues, if_pos hcopy, ih]
      rfl
  | case2 separator name rest hends =>
      have hcopy : ¬(separator.unlined.isSymbol .doubleColon && name.unlined.isIdentifier) = true :=
        hends
      simp only [List.map_cons, Token.qualifiers, if_neg hends, if_neg hcopy]
  | case3 tokens hshort =>
      rcases tokens with _ | ⟨first, _ | ⟨second, rest⟩⟩
      · rfl
      · rfl
      · exact absurd rfl (hshort first second rest)

theorem blind_qualifiedName (first : String) : Blind id (qualifiedName first) := by
  intro cursor
  have htokens : cursor.unlined.tokens = cursor.tokens.map Token.unlined := rfl
  simp only [qualifiedName, htokens, qualifiers_unlined]
  rfl

mutual

/-- One induction on the bound goes through all readers of expressions. -/
theorem blind_expression : ∀ fuel, Blind Expr.unlined (expression fuel)
  | 0 => blind_tooDeep
  | fuel + 1 => by
      rw [expression]
      refine .bind (blind_binary 1 fuel) fun condition => ?_
      refine .bind blind_peek fun question => ?_
      refine .ite ?_ (.pure rfl)
      refine .bind blind_next fun _ => ?_
      refine .bind (blind_expression fuel) fun positive => ?_
      refine .bind (blind_expectSymbol .colon) fun _ => ?_
      refine .bind (blind_expression fuel) fun negative => ?_
      exact .pure rfl

theorem blind_binary (least : Nat) : ∀ fuel, Blind Expr.unlined (binary least fuel)
  | 0 => blind_tooDeep
  | fuel + 1 => by
      rw [binary]
      refine .bind (blind_unary fuel) fun left => ?_
      exact erases_binaryAfter least left fuel

theorem erases_binaryAfter (least : Nat) (left : Expr) : ∀ fuel,
    Erases Expr.unlined (binaryAfter least left fuel) (binaryAfter least left.unlined fuel)
  | 0 => blind_tooDeep
  | fuel + 1 => by
      rw [binaryAfter, binaryAfter]
      refine .bind blind_peek fun token => ?_
      have hoperator : token.unlined.binaryOp? = token.binaryOp? := rfl
      rw [hoperator]
      cases token.binaryOp? with
      | none => exact .pure rfl
      | some operator =>
          refine .ite (.pure rfl) ?_
          refine .bind blind_next fun _ => ?_
          refine .bind (blind_binary (operator.precedence + 1) fuel) fun right => ?_
          exact erases_binaryAfter least (.binary token.line operator left right) fuel

theorem blind_unary : ∀ fuel, Blind Expr.unlined (unary fuel)
  | 0 => blind_tooDeep
  | fuel + 1 => by
      rw [unary]
      refine .bind blind_peek fun token => ?_
      have hoperator : token.unlined.unaryOp? = token.unaryOp? := rfl
      rw [hoperator]
      cases token.unaryOp? with
      | none =>
          refine .bind (blind_primary fuel) fun target => ?_
          exact erases_suffixes target fuel
      | some operator =>
          refine .bind blind_next fun _ => ?_
          refine .bind (blind_unary fuel) fun operand => ?_
          exact .pure rfl

theorem erases_suffixes (target : Expr) : ∀ fuel,
    Erases Expr.unlined (suffixes target fuel) (suffixes target.unlined fuel)
  | 0 => blind_tooDeep
  | fuel + 1 => by
      rw [suffixes, suffixes]
      refine .bind blind_peek fun token => ?_
      have hkind : token.unlined.kind = token.kind := rfl
      rw [hkind]
      split
      · refine .bind blind_next fun _ => ?_
        refine .bind (blind_arguments fuel) fun arguments => ?_
        refine .bind (blind_expectSymbol .closeParen) fun _ => ?_
        exact erases_suffixes (.call token.line target arguments) fuel
      · refine .bind blind_next fun _ => ?_
        refine .bind (blind_expression fuel) fun index => ?_
        refine .bind (blind_expectSymbol .closeBracket) fun _ => ?_
        exact erases_suffixes (.index token.line target index) fuel
      · refine .bind blind_next fun _ => ?_
        refine .bind (blind_identifier .memberName) fun name => ?_
        exact erases_suffixes (.member token.line target name) fuel
      · exact .pure rfl

theorem blind_arguments : ∀ fuel, Blind Expr.unlinedAll (arguments fuel)
  | 0 => blind_tooDeep
  | fuel + 1 => by
      rw [arguments]
      refine .bind blind_peek fun token => ?_
      refine .ite (.pure rfl) ?_
      refine .bind (blind_expression fuel) fun first => ?_
      refine .bind (blind_moreArguments fuel) fun rest => ?_
      exact .pure rfl

theorem blind_moreArguments : ∀ fuel, Blind Expr.unlinedAll (moreArguments fuel)
  | 0 => blind_tooDeep
  | fuel + 1 => by
      rw [moreArguments]
      refine .bind (blind_tryPunctuation .comma) fun comma => ?_
      refine .ite ?_ (.pure rfl)
      refine .bind (blind_expression fuel) fun argument => ?_
      refine .bind (blind_moreArguments fuel) fun rest => ?_
      exact .pure rfl

theorem blind_primary : ∀ fuel, Blind Expr.unlined (primary fuel)
  | 0 => blind_tooDeep
  | fuel + 1 => by
      rw [primary]
      refine .bind blind_peek fun token => ?_
      have hkind : token.unlined.kind = token.kind := rfl
      rw [hkind]
      split
      · refine .bind blind_next fun _ => ?_
        refine .bind (erases_numberValue token) fun value => ?_
        exact .pure rfl
      · exact .bind blind_next fun _ => .pure rfl
      · exact .bind blind_next fun _ => .pure rfl
      · exact .bind blind_next fun _ => .pure rfl
      · refine .bind blind_next fun _ => ?_
        refine .bind (blind_qualifiedName token.text) fun name => ?_
        exact .pure rfl
      · refine .bind blind_next fun _ => ?_
        refine .bind (blind_expression fuel) fun inner => ?_
        refine .bind (blind_expectSymbol .closeParen) fun _ => ?_
        exact .pure rfl
      · exact blind_expected .expression

end

theorem erases_targetSuffixes (line : Nat) (target : Expr) (fuel : Nat) :
    Erases Expr.unlined (targetSuffixes line target fuel)
      (targetSuffixes 0 target.unlined fuel) := by
  induction fuel generalizing target with
  | zero => exact blind_tooDeep
  | succ fuel ih =>
      rw [targetSuffixes, targetSuffixes]
      refine .bind (blind_tryPunctuation .openBracket) fun bracket => ?_
      refine .ite ?_ ?_
      · refine .bind (blind_expression fuel) fun index => ?_
        refine .bind (blind_expectSymbol .closeBracket) fun _ => ?_
        exact ih (.index line target index)
      · refine .bind (blind_tryPunctuation .dot) fun dot => ?_
        refine .ite ?_ (.pure rfl)
        refine .bind (blind_identifier .memberName) fun name => ?_
        exact ih (.member line target name)

theorem blind_assignmentTarget (fuel : Nat) : Blind Expr.unlined (assignmentTarget fuel) := by
  refine .bind blind_peek fun token => ?_
  refine .bind (blind_identifier .assignmentTarget) fun name => ?_
  exact erases_targetSuffixes token.line (.name token.line name) fuel

theorem blind_pair (fuel : Nat) : Blind (Prod.map Expr.unlined Expr.unlined) (pair fuel) := by
  refine .bind (blind_expectSymbol .openParen) fun _ => ?_
  refine .bind (blind_expression fuel) fun first => ?_
  refine .bind (blind_expectSymbol .comma) fun _ => ?_
  refine .bind (blind_expression fuel) fun second => ?_
  refine .bind (blind_expectSymbol .closeParen) fun _ => ?_
  exact .pure rfl

/-! ## Statements without blocks -/

theorem blind_typeNameAfter (fuel : Nat) : Blind id (typeNameAfter fuel) := by
  induction fuel with
  | zero => exact blind_tooDeep
  | succ fuel ih =>
      rw [typeNameAfter]
      refine .bind (blind_tryPunctuation .doubleColon) fun separator => ?_
      refine .ite ?_ (.pure rfl)
      refine .bind (blind_identifier .typeName) fun segment => ?_
      exact .bind ih fun _ => .pure rfl

theorem blind_typeName (fuel : Nat) : Blind id (typeName fuel) := by
  refine .bind (blind_identifier .typeName) fun first => ?_
  exact .bind (blind_typeNameAfter fuel) fun _ => .pure rfl

theorem blind_optionalType (sign : Symbol) (fuel : Nat) : Blind id (optionalType sign fuel) := by
  refine .bind (blind_tryPunctuation sign) fun announced => ?_
  refine .ite ?_ (.pure rfl)
  exact .bind (blind_typeName fuel) fun _ => .pure rfl

theorem blind_optionalExpression (fuel : Nat) :
    Blind (Option.map Expr.unlined) (optionalExpression fuel) := by
  refine .bind blind_peek fun token => ?_
  refine .ite ?_ (.pure rfl)
  exact .bind (blind_expression fuel) fun _ => .pure rfl

theorem blind_declaration (fuel : Nat) : Blind Local.unlined (declaration fuel) := by
  refine .bind blind_next fun keyword => ?_
  refine .bind (blind_identifier .variableName) fun name => ?_
  refine .bind (blind_optionalType .colon fuel) fun type => ?_
  refine .bind (blind_tryPunctuation .equals) fun equals => ?_
  refine .ite ?_ (.pure rfl)
  exact .bind (blind_expression fuel) fun _ => .pure rfl

/-- An assignment is given up for the same tokens. -/
theorem blind_assignment? (fuel : Nat) : Blind (Option.map Action.unlined) (assignment? fuel) := by
  intro cursor
  have hidentifier : cursor.unlined.head.isIdentifier = cursor.head.isIdentifier := by
    rw [cursor.head_unlined]
    rfl
  rw [assignment?, assignment?, hidentifier]
  split
  case isFalse => rfl
  case isTrue =>
    rw [blind_assignmentTarget fuel cursor]
    cases assignmentTarget fuel cursor with
    | error error after => rfl
    | ok target after =>
        have hassign : after.unlined.head.assignOp? = after.head.assignOp? := by
          rw [after.head_unlined]
          rfl
        have hstep : after.unlined.head.stepOp? = after.head.stepOp? := by
          rw [after.head_unlined]
          rfl
        simp only [unlinedResult, hassign, hstep]
        cases after.head.assignOp? with
        | some operator =>
            have hassignment : Erases (Option.map Action.unlined)
                (do
                  let _ ← next
                  let value ← expression fuel
                  return some (.assign target operator value))
                (do
                  let _ ← next
                  let value ← expression fuel
                  return some (.assign target.unlined operator value)) := by
              refine .bind blind_next fun _ => ?_
              exact .bind (blind_expression fuel) fun _ => .pure rfl
            exact hassignment after
        | none =>
            cases after.head.stepOp? with
            | some operator =>
                have hsteps : Erases (Option.map Action.unlined)
                    (do
                      let _ ← next
                      return some (.step target operator))
                    (do
                      let _ ← next
                      return some (.step target.unlined operator)) :=
                  .bind blind_next fun _ => .pure rfl
                exact hsteps after
            | none => rfl

theorem blind_overlayArguments (fuel : Nat) : Blind id (overlayArguments fuel) := by
  induction fuel with
  | zero => exact blind_tooDeep
  | succ fuel ih =>
      rw [overlayArguments]
      refine .bind blind_peek fun token => ?_
      refine .ite ?_ (.pure rfl)
      refine .bind blind_literal fun argument => ?_
      exact .bind ih fun _ => .pure rfl

theorem blind_overlay (fuel : Nat) : Blind Overlay.unlined (overlay fuel) := by
  refine .bind blind_next fun keyword => ?_
  refine .bind blind_peek fun name => ?_
  have hkind : name.unlined.kind = name.kind := rfl
  rw [hkind]
  split
  · refine .bind blind_next fun _ => ?_
    exact .bind (blind_overlayArguments fuel) fun _ => .pure rfl
  · refine .bind blind_next fun _ => ?_
    exact .bind (blind_overlayArguments fuel) fun _ => .pure rfl
  · exact blind_expected .overlayName

theorem blind_overlays (fuel : Nat) : Blind (List.map Overlay.unlined) (overlays fuel) := by
  induction fuel with
  | zero => exact blind_tooDeep
  | succ fuel ih =>
      rw [overlays]
      refine .bind (blind_overlay fuel) fun first => ?_
      refine .bind blind_skipSeparators fun _ => ?_
      refine .bind blind_peek fun token => ?_
      refine .ite ?_ (.pure rfl)
      exact .bind ih fun _ => .pure rfl

theorem blind_listedParameters (name : String) (fuel : Nat) :
    Blind id (listedParameters name fuel) := by
  induction fuel with
  | zero => exact blind_tooDeep
  | succ fuel ih =>
      rw [listedParameters]
      refine .bind blind_peek fun fragment => ?_
      refine .ite ?_ (.pure rfl)
      refine .bind blind_next fun _ => ?_
      have htext : fragment.unlined.text = fragment.text := rfl
      rw [htext]
      cases Parameter.ofFragment? fragment.text.toList with
      | none => exact erases_failAt fragment.line (.emptyParameter name)
      | some parameter =>
          refine .bind (blind_tryPunctuation .comma) fun comma => ?_
          refine .ite ?_ (.pure rfl)
          exact .bind ih fun _ => .pure rfl

theorem blind_parameterList (name : String) (fuel : Nat) : Blind id (parameterList name fuel) := by
  refine .bind blind_peek fun token => ?_
  refine .ite ?_ ?_
  · exact .bind (blind_rawText .parameterList) fun _ => .pure rfl
  · exact .bind (blind_listedParameters name fuel) fun _ => .pure rfl

theorem blind_moreBases (fuel : Nat) : Blind id (moreBases fuel) := by
  induction fuel with
  | zero => exact blind_tooDeep
  | succ fuel ih =>
      rw [moreBases]
      refine .bind (blind_tryPunctuation .comma) fun comma => ?_
      refine .ite ?_ (.pure rfl)
      refine .bind (blind_identifier .baseClass) fun base => ?_
      exact .bind ih fun _ => .pure rfl

theorem blind_baseClasses (fuel : Nat) : Blind id (baseClasses fuel) := by
  refine .bind (blind_tryPunctuation .colon) fun colon => ?_
  refine .ite ?_ (.pure rfl)
  refine .bind (blind_identifier .baseClass) fun base => ?_
  exact .bind (blind_moreBases fuel) fun _ => .pure rfl

theorem blind_pattern : Blind id pattern := by
  refine .bind blind_peek fun token => ?_
  refine .ite ?_ ?_
  · exact .bind blind_next fun _ => .pure rfl
  · exact .bind blind_literal fun _ => .pure rfl

theorem blind_morePatterns (fuel : Nat) : Blind id (morePatterns fuel) := by
  induction fuel with
  | zero => exact blind_tooDeep
  | succ fuel ih =>
      rw [morePatterns]
      refine .bind blind_peek fun token => ?_
      refine .ite ?_ (.pure rfl)
      refine .bind blind_next fun _ => ?_
      refine .bind blind_pattern fun first => ?_
      exact .bind ih fun _ => .pure rfl

theorem blind_timeUnit : Blind id timeUnit := by
  refine .bind blind_next fun token => ?_
  have htext : token.unlined.text = token.text := rfl
  rw [htext]
  cases TimeUnit.ofText? token.text with
  | none => exact erases_failAt token.line (.unknownTimeUnit token.text)
  | some unit => exact .pure rfl

/-- One case for each way an action can go on behind its keyword. -/
theorem blind_keywordAction (word : Keyword) (fuel : Nat) :
    Blind Action.unlined (keywordAction word fuel) := by
  cases word with
  | letWord | constWord => exact .bind (blind_declaration fuel) fun _ => .pure rfl
  | trueWord | falseWord => exact .bind (blind_expression fuel) fun _ => .pure rfl
  | print | returnWord =>
      refine .bind blind_next fun _ => ?_
      exact .bind (blind_optionalExpression fuel) fun _ => .pure rfl
  | input =>
      refine .bind blind_next fun _ => ?_
      exact .bind (blind_identifier .inputVariable) fun _ => .pure rfl
  | read =>
      refine .bind blind_next fun _ => ?_
      refine .bind (blind_expression fuel) fun path => ?_
      refine .bind (blind_expectSymbol .arrow) fun _ => ?_
      exact .bind (blind_identifier .readVariable) fun _ => .pure rfl
  | write | append =>
      refine .bind blind_next fun _ => ?_
      refine .bind (blind_expression fuel) fun path => ?_
      refine .bind (blind_expectSymbol .comma) fun _ => ?_
      exact .bind (blind_expression fuel) fun _ => .pure rfl
  | channel =>
      refine .bind blind_next fun _ => ?_
      refine .bind (blind_identifier .channelName) fun name => ?_
      exact .bind (blind_optionalType .colon fuel) fun _ => .pure rfl
  | send =>
      refine .bind blind_next fun _ => ?_
      refine .bind (blind_identifier .channelName) fun name => ?_
      exact .bind (blind_expression fuel) fun _ => .pure rfl
  | recv =>
      refine .bind blind_next fun _ => ?_
      refine .bind (blind_identifier .channelName) fun name => ?_
      refine .bind (blind_expectSymbol .arrow) fun _ => ?_
      exact .bind (blind_identifier .receiveVariable) fun _ => .pure rfl
  | mutate =>
      refine .bind blind_next fun _ => ?_
      refine .bind (blind_assignmentTarget fuel) fun target => ?_
      refine .bind (blind_expectSymbol .equals) fun _ => ?_
      exact .bind (blind_expression fuel) fun _ => .pure rfl
  | scale =>
      refine .bind blind_next fun _ => ?_
      refine .bind (blind_identifier .scaledVariable) fun name => ?_
      refine .bind (blind_pair fuel) fun source => ?_
      refine .bind (blind_expectSymbol .arrow) fun _ => ?_
      exact .bind (blind_pair fuel) fun _ => .pure rfl
  | bounds =>
      refine .bind blind_next fun _ => ?_
      refine .bind (blind_identifier .clampedVariable) fun name => ?_
      exact .bind (blind_pair fuel) fun _ => .pure rfl
  | checkpoint =>
      refine .bind blind_next fun _ => ?_
      refine .bind blind_peek fun label => ?_
      refine .ite ?_ (.pure rfl)
      exact .bind blind_next fun _ => .pure rfl
  | duration =>
      refine .bind blind_next fun _ => ?_
      refine .bind (blind_identifier .durationName) fun name => ?_
      refine .bind (blind_expectSymbol .equals) fun _ => ?_
      refine .bind (blind_expression fuel) fun amount => ?_
      exact .bind blind_timeUnit fun _ => .pure rfl
  | derivative =>
      refine .bind blind_next fun _ => ?_
      refine .bind (blind_identifier .derivativeName) fun name => ?_
      refine .bind (blind_expectSymbol .equals) fun _ => ?_
      refine .bind (blind_expression fuel) fun body => ?_
      refine .bind (blind_expectKeyword .wrt .wrt) fun _ => ?_
      exact .bind (blind_identifier .derivativeVariable) fun _ => .pure rfl
  | splice =>
      refine .bind blind_next fun _ => ?_
      refine .bind blind_peek fun payload => ?_
      refine .ite ?_ (blind_expected .splicePayload)
      exact .bind blind_next fun _ => .pure rfl
  | throwWord =>
      refine .bind blind_next fun _ => ?_
      exact .bind (blind_expression fuel) fun _ => .pure rfl
  | _ => exact .bind blind_next fun _ => .pure rfl

/-! ## Statements -/

mutual

/-- As for expressions, one induction goes through all readers of blocks. -/
theorem blind_block : ∀ fuel, Blind Unlined.block (block fuel)
  | 0 => blind_tooDeep
  | fuel + 1 => by
      rw [block]
      refine .bind blind_peek fun opening => ?_
      refine .bind (blind_tryPunctuation .openBrace) fun brace => ?_
      refine .ite ?_ ?_
      · exact .bind (erases_statements opening.line .closeBrace fuel) fun _ => .pure rfl
      · refine .bind (blind_tryPunctuation .openParen) fun paren => ?_
        refine .ite ?_ (blind_expected .block)
        exact .bind (erases_statements opening.line .closeParen fuel) fun _ => .pure rfl

theorem erases_statements (line : Nat) (close : Symbol) : ∀ fuel,
    Erases Unlined.stmts (statements line close fuel) (statements 0 close fuel)
  | 0 => blind_tooDeep
  | fuel + 1 => by
      rw [statements, statements]
      refine .bind blind_skipSeparators fun _ => ?_
      refine .bind (blind_tryPunctuation close) fun closed => ?_
      refine .ite (.pure rfl) ?_
      refine .bind blind_peek fun token => ?_
      refine .ite (erases_failAt line (.unclosedBlock close)) ?_
      refine .bind (blind_statement fuel) fun first => ?_
      exact .bind (erases_statements line close fuel) fun _ => .pure rfl

theorem blind_statement : ∀ fuel, Blind Unlined.stmt (statement fuel)
  | 0 => blind_tooDeep
  | fuel + 1 => by
      rw [statement]
      refine .bind blind_peek fun token => ?_
      refine .bind (blind_assignment? fuel) fun assignment => ?_
      cases assignment with
      | some action => exact .pure rfl
      | none =>
          have hkind : token.unlined.kind = token.kind := rfl
          simp only [Option.map_none, hkind]
          split
          case h_1 word hword => exact erases_keywordStatement token.line word fuel
          case h_2 =>
            refine .ite ?_ ?_
            · exact .bind (blind_expression fuel) fun _ => .pure rfl
            · refine .bind blind_next fun _ => ?_
              exact .bind (erases_note token.line token.text) fun _ => .pure rfl

theorem erases_keywordStatement (line : Nat) (word : Keyword) : ∀ fuel,
    Erases Unlined.stmt (keywordStatement line word fuel) (keywordStatement 0 word fuel)
  | 0 => blind_tooDeep
  | fuel + 1 => by
      cases word with
      | ifWord => exact erases_branch line fuel
      | whileWord =>
          refine .bind blind_next fun _ => ?_
          refine .bind (blind_expression fuel) fun condition => ?_
          exact .bind (blind_block fuel) fun _ => .pure rfl
      | forWord =>
          refine .bind blind_next fun _ => ?_
          refine .bind (blind_rawText .loopHeader) fun header => ?_
          exact .bind (blind_block fuel) fun _ => .pure rfl
      | schedule =>
          refine .bind blind_next fun _ => ?_
          refine .bind (blind_expression fuel) fun priority => ?_
          exact .bind (blind_block fuel) fun _ => .pure rfl
      | pureWord =>
          refine .bind blind_next fun _ => ?_
          exact .bind (blind_block fuel) fun _ => .pure rfl
      | switchWord =>
          refine .bind blind_next fun _ => ?_
          refine .bind (blind_expression fuel) fun scrutinee => ?_
          refine .bind (blind_expectSymbol .openBrace) fun _ => ?_
          exact .bind (erases_switchClauses none fuel) fun _ => .pure rfl
      | matchWord =>
          refine .bind blind_next fun _ => ?_
          refine .bind (blind_expression fuel) fun scrutinee => ?_
          refine .bind (blind_expectSymbol .openBrace) fun _ => ?_
          exact .bind (erases_matchClauses none fuel) fun _ => .pure rfl
      | tryWord =>
          refine .bind blind_next fun _ => ?_
          refine .bind (blind_block fuel) fun body => ?_
          refine .bind (blind_expectKeyword .catchWord .handler) fun _ => ?_
          refine .bind blind_peek fun binding => ?_
          refine .ite ?_ ?_
          · refine .bind blind_next fun _ => ?_
            exact .bind (blind_block fuel) fun _ => .pure rfl
          · exact .bind (blind_block fuel) fun _ => .pure rfl
      | overlay =>
          refine .bind (blind_overlays fuel) fun run => ?_
          refine .bind blind_peek fun token => ?_
          refine .ite ?_ (.pure rfl)
          exact .bind (erases_function run fuel) fun _ => .pure rfl
      | fnWord | method | routine =>
          exact .bind (erases_function [] fuel) fun _ => .pure rfl
      | classWord | structWord =>
          exact .bind (blind_classDeclaration fuel) fun _ => .pure rfl
      | _ => exact .bind (blind_keywordAction _ fuel) fun _ => .pure rfl

theorem erases_branch (line : Nat) : ∀ fuel,
    Erases Unlined.stmt (branch line fuel) (branch 0 fuel)
  | 0 => blind_tooDeep
  | fuel + 1 => by
      rw [branch, branch]
      refine .bind blind_next fun _ => ?_
      refine .bind (blind_expression fuel) fun condition => ?_
      refine .bind (blind_block fuel) fun positive => ?_
      refine .bind (blind_tryWord .elseWord) fun otherwise => ?_
      refine .ite ?_ (.pure rfl)
      refine .bind blind_peek fun token => ?_
      refine .ite ?_ ?_
      · exact .bind (erases_branch token.line fuel) fun _ => .pure rfl
      · exact .bind (blind_block fuel) fun _ => .pure rfl

theorem erases_switchClauses (fallback : Option Block) : ∀ fuel,
    Erases (Prod.map Unlined.cases Unlined.fallback) (switchClauses fallback fuel)
      (switchClauses (Unlined.fallback fallback) fuel)
  | 0 => blind_tooDeep
  | fuel + 1 => by
      rw [switchClauses, switchClauses]
      refine .bind blind_skipSeparators fun _ => ?_
      refine .bind (blind_tryPunctuation .closeBrace) fun closed => ?_
      refine .ite (.pure rfl) ?_
      refine .bind (blind_tryWord .caseWord) fun case => ?_
      refine .ite ?_ ?_
      · refine .bind blind_literal fun label => ?_
        refine .bind (blind_block fuel) fun body => ?_
        exact .bind (erases_switchClauses fallback fuel) fun _ => .pure rfl
      · refine .bind (blind_tryWord .defaultWord) fun default => ?_
        refine .ite ?_ (blind_expected .switchClause)
        refine .bind (blind_block fuel) fun body => ?_
        exact erases_switchClauses (some body) fuel

theorem erases_matchClauses (fallback : Option Block) : ∀ fuel,
    Erases (Prod.map Unlined.arms Unlined.fallback) (matchClauses fallback fuel)
      (matchClauses (Unlined.fallback fallback) fuel)
  | 0 => blind_tooDeep
  | fuel + 1 => by
      rw [matchClauses, matchClauses]
      refine .bind blind_skipSeparators fun _ => ?_
      refine .bind (blind_tryPunctuation .closeBrace) fun closed => ?_
      refine .ite (.pure rfl) ?_
      refine .bind (blind_tryWord .caseWord) fun case => ?_
      refine .ite ?_ ?_
      · refine .bind blind_pattern fun first => ?_
        refine .bind (blind_morePatterns fuel) fun rest => ?_
        refine .bind (blind_block fuel) fun body => ?_
        exact .bind (erases_matchClauses fallback fuel) fun _ => .pure rfl
      · refine .bind (blind_tryWord .defaultWord) fun default => ?_
        refine .ite ?_ (blind_expected .matchClause)
        refine .bind (blind_block fuel) fun body => ?_
        exact erases_matchClauses (some body) fuel

theorem erases_function (run : List Overlay) : ∀ fuel,
    Erases Unlined.function (function run fuel) (function (run.map Overlay.unlined) fuel)
  | 0 => blind_tooDeep
  | fuel + 1 => by
      rw [function, function]
      refine .bind blind_next fun keyword => ?_
      refine .bind (blind_identifier .functionName) fun name => ?_
      refine .bind (blind_parameterList name fuel) fun parameters => ?_
      refine .bind (blind_optionalType .arrow fuel) fun result => ?_
      exact .bind (blind_block fuel) fun _ => .pure rfl

theorem blind_classDeclaration : ∀ fuel, Blind Unlined.classDecl (classDeclaration fuel)
  | 0 => blind_tooDeep
  | fuel + 1 => by
      rw [classDeclaration]
      refine .bind blind_next fun keyword => ?_
      refine .bind (blind_identifier .className) fun name => ?_
      refine .bind (blind_baseClasses fuel) fun bases => ?_
      refine .bind (blind_expectSymbol .openBrace) fun _ => ?_
      exact .bind (erases_members name _ [] fuel) fun _ => .pure rfl

theorem erases_members (name : String) (access : Access) (pending : List Overlay) : ∀ fuel,
    Erases Unlined.members (members name access pending fuel)
      (members name access (pending.map Overlay.unlined) fuel)
  | 0 => blind_tooDeep
  | fuel + 1 => by
      rw [members, members]
      refine .bind blind_skipSeparators fun _ => ?_
      refine .bind (blind_tryPunctuation .closeBrace) fun closed => ?_
      refine .ite (.pure rfl) ?_
      refine .bind blind_peek fun token => ?_
      have haccess : token.unlined.access? = token.access? := rfl
      rw [haccess]
      cases token.access? with
      | some access =>
          refine .bind blind_next fun _ => ?_
          refine .bind (blind_expectSymbol .colon) fun _ => ?_
          exact erases_members name access pending fuel
      | none =>
          refine .ite ?_ (.ite ?_ (.ite ?_ (blind_expected (.classMember name))))
          · refine .bind (blind_declaration fuel) fun binding => ?_
            exact .bind (erases_members name access pending fuel) fun _ => .pure rfl
          · refine .bind (blind_overlay fuel) fun overlay => ?_
            refine .bind blind_skipSeparators fun _ => ?_
            refine .bind blind_peek fun following => ?_
            refine .ite ?_ blind_strayOverlay
            have hpending : (pending ++ [overlay]).map Overlay.unlined =
                pending.map Overlay.unlined ++ [overlay.unlined] := List.map_append
            rw [← hpending]
            exact erases_members name access (pending ++ [overlay]) fuel
          · refine .bind (erases_function pending fuel) fun method => ?_
            exact .bind (erases_members name access [] fuel) fun _ => .pure rfl

end

/-- A whole program is read the same on other lines. -/
theorem blind_topLevel (fuel : Nat) : Blind Unlined.stmts (topLevel fuel) := by
  induction fuel with
  | zero => exact blind_tooDeep
  | succ fuel ih =>
      rw [topLevel]
      refine .bind blind_skipSeparators fun _ => ?_
      refine .bind blind_peek fun token => ?_
      refine .ite (.pure rfl) ?_
      refine .bind (blind_statement fuel) fun first => ?_
      exact .bind ih fun _ => .pure rfl

end Parser

/-! ## Programs -/

/-- Where the tokens end is decided by their kinds. -/
theorem Cursor.unlined_ofTokens (tokens : List Token) :
    (ofTokens tokens).unlined =
      ⟨(tokens.map Token.unlined).takeWhile (·.kind != .finish),
        ((tokens.map Token.unlined).find? (·.kind == .finish)).getD (Token.finish 0), []⟩ := by
  have htokens : ((fun token : Token => token.kind != .finish) ∘ Token.unlined) =
      fun token => token.kind != .finish := rfl
  have hfinish : ((fun token : Token => token.kind == .finish) ∘ Token.unlined) =
      fun token => token.kind == .finish := rfl
  rw [List.takeWhile_map, List.find?_map, htokens, hfinish, ofTokens]
  cases tokens.find? (·.kind == .finish) <;> rfl

theorem Cursor.nesting_unlined (cursor : Cursor) : cursor.unlined.nesting = cursor.nesting := by
  rw [nesting, unlined, List.length_map, nesting]

/-- Tokens that are the same up to lines make up the same program up to lines, or none for the same
cause. -/
theorem Program.ofTokens_alike {left right : List Token}
    (htokens : left.map Token.unlined = right.map Token.unlined) :
    ((ofTokens left).result.map unlined).mapError ParseError.unlined =
      ((ofTokens right).result.map unlined).mapError ParseError.unlined := by
  have hcursor : (Cursor.ofTokens left).unlined = (Cursor.ofTokens right).unlined := by
    rw [Cursor.unlined_ofTokens, htokens, Cursor.unlined_ofTokens]
  have hnesting : (Cursor.ofTokens left).nesting = (Cursor.ofTokens right).nesting := by
    rw [← Cursor.nesting_unlined, hcursor, Cursor.nesting_unlined]
  have hread :
      Parser.unlinedResult Unlined.stmts
          (Parser.topLevel (Cursor.ofTokens left).nesting (Cursor.ofTokens left)) =
        Parser.unlinedResult Unlined.stmts
          (Parser.topLevel (Cursor.ofTokens right).nesting (Cursor.ofTokens right)) := by
    rw [← Parser.blind_topLevel, ← Parser.blind_topLevel, hcursor, hnesting]
  simp only [ofTokens]
  cases hleft : Parser.topLevel (Cursor.ofTokens left).nesting (Cursor.ofTokens left) with
  | ok program after =>
      cases hright : Parser.topLevel (Cursor.ofTokens right).nesting (Cursor.ofTokens right) with
      | ok other otherAfter =>
          simp only [hleft, hright, Parser.unlinedResult, EStateM.Result.ok.injEq] at hread
          exact congrArg Except.ok hread.1
      | error error otherAfter => simp [hleft, hright, Parser.unlinedResult] at hread
  | error error after =>
      cases hright : Parser.topLevel (Cursor.ofTokens right).nesting (Cursor.ofTokens right) with
      | ok other otherAfter => simp [hleft, hright, Parser.unlinedResult] at hread
      | error other otherAfter =>
          simp only [hleft, hright, Parser.unlinedResult, EStateM.Result.error.injEq] at hread
          exact congrArg Except.error hread.1

end Tide
