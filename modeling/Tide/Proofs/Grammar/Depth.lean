import Tide.Proofs.Grammar.Progress

/-!
# Readers with different bounds

Two readers agree from some cursors when they do the same there and do not fail for want of depth.
There is one rule for each way to put readers together.  A rule says how many tokens can be ahead of
what follows: no more than before, or fewer when a token was passed.

Readers that take no bound agree with themselves.  A reader with a bound has a level below sixteen.
It goes down to lower levels, and goes up again only behind a token.  So it agrees with itself under
any two bounds that leave sixteen steps for each token ahead, and one for each level.  There is one
theorem for each reader that reads no block.
-/

namespace Tide

/-- At most this many tokens are ahead, and a finishing token ends them. -/
structure Cursor.Within (length : Nat) (cursor : Cursor) : Prop where
  finish : cursor.finish.kind = .finish
  length_le : cursor.tokens.length ≤ length

/-- At most this many tokens are ahead, and this is the first. -/
structure Cursor.Facing (length : Nat) (token : Token) (cursor : Cursor) : Prop
    extends cursor.Within length where
  head : cursor.head = token

theorem Cursor.Within.onward {length : Nat} {cursor after : Cursor}
    (hwithin : cursor.Within length) (honward : cursor.Onward after) : after.Within length where
  finish := honward.finish ▸ hwithin.finish
  length_le := honward.tokens.length_le.trans hwithin.length_le

/-- Behind a token there are fewer tokens ahead. -/
theorem Cursor.Facing.past {length : Nat} {token : Token} {cursor after : Cursor}
    (hfacing : cursor.Facing length token) (htoken : token.kind ≠ .finish)
    (hpast : cursor.Past after) :
    after.tokens.length < length ∧ after.Within after.tokens.length := by
  have htokens := tokens_ne_nil hfacing.finish (hfacing.head ▸ htoken)
  refine ⟨(hpast.shorter htokens).trans_le hfacing.length_le, ?_, le_refl _⟩
  exact hpast.onward.finish ▸ hfacing.finish

namespace Parser

variable {α β : Type}

theorem bind_of_error {first : Parser α} {next : α → Parser β} {cursor stopped : Cursor}
    {error : ParseError} (hfirst : first cursor = .error error stopped) :
    (first >>= next) cursor = .error error stopped := by
  simp only [bind, EStateM.bind, hfirst]

/-- Reading from the cursor moved it onward, or failed for another reason than want of depth. -/
inductive Proceeds (cursor : Cursor) : EStateM.Result ParseError Cursor α → Prop
  | ok {value : α} {after : Cursor} (honward : cursor.Onward after) :
      Proceeds cursor (.ok value after)
  | error {error : ParseError} {stopped : Cursor} (hcause : error.cause ≠ .tooDeep) :
      Proceeds cursor (.error error stopped)

theorem Proceeds.of_onward {cursor between : Cursor} {result : EStateM.Result ParseError Cursor α}
    (hresult : Proceeds between result) (honward : cursor.Onward between) :
    Proceeds cursor result := by
  cases hresult with
  | ok hafter => exact .ok (honward.trans hafter)
  | error hcause => exact .error hcause

/-- From such cursors both readers do the same, and neither fails for want of depth. -/
def Agree (start : Cursor → Prop) (reader other : Parser α) : Prop :=
  ∀ cursor, start cursor → reader cursor = other cursor ∧ Proceeds cursor (reader cursor)

namespace Agree

variable {start : Cursor → Prop} {length : Nat} {token : Token}

theorem pure (value : α) : Agree start (Pure.pure value) (Pure.pure value) :=
  fun cursor _ => ⟨rfl, .ok (.refl cursor)⟩

theorem weaken {narrower : Cursor → Prop} {reader other : Parser α}
    (hagree : Agree start reader other) (hstart : ∀ cursor, narrower cursor → start cursor) :
    Agree narrower reader other :=
  fun cursor hnarrower => hagree cursor (hstart cursor hnarrower)

/-- What follows starts where the first reader can leave the cursor. -/
theorem bind {first firstOther : Parser α} {next nextOther : α → Parser β}
    (hfirst : Agree start first firstOther)
    (hnext : ∀ value, Agree (fun after => ∃ cursor, start cursor ∧ first cursor = .ok value after)
      (next value) (nextOther value)) :
    Agree start (first >>= next) (firstOther >>= nextOther) := by
  intro cursor hstart
  obtain ⟨heq, hproceeds⟩ := hfirst cursor hstart
  cases hresult : first cursor with
  | ok value between =>
      rw [hresult] at hproceeds
      rw [bind_of_ok hresult, bind_of_ok (heq ▸ hresult)]
      obtain ⟨heqNext, hnextProceeds⟩ := hnext value between ⟨cursor, hstart, hresult⟩
      refine ⟨heqNext, ?_⟩
      cases hproceeds with
      | ok hbetween => exact hnextProceeds.of_onward hbetween
  | error error stopped =>
      rw [bind_of_error hresult, bind_of_error (heq ▸ hresult)]
      rw [hresult] at hproceeds
      cases hproceeds with
      | error hcause => exact ⟨rfl, .error hcause⟩

theorem ite {condition : Prop} [Decidable condition] {yes yesOther no noOther : Parser α}
    (hyes : condition → Agree start yes yesOther) (hno : ¬condition → Agree start no noOther) :
    Agree start (if condition then yes else no) (if condition then yesOther else noOther) := by
  by_cases hcondition : condition
  · rw [if_pos hcondition, if_pos hcondition]
    exact hyes hcondition
  · rw [if_neg hcondition, if_neg hcondition]
    exact hno hcondition

end Agree

/-! ## Readers without a bound -/

/-- The reader has no bound to run out of. -/
def Shallow (reader : Parser α) : Prop :=
  ∀ start, Agree start reader reader

namespace Shallow

/-- A reader that moves onward and never fails for want of depth. -/
theorem of_movesOn {reader : Parser α} (hmoves : MovesOn reader)
    (herror : ∀ cursor error stopped, reader cursor = .error error stopped →
      error.cause ≠ .tooDeep) : Shallow reader := by
  intro start cursor _
  refine ⟨rfl, ?_⟩
  cases hread : reader cursor with
  | ok value after => exact .ok (hmoves cursor value after hread)
  | error error stopped => exact .error (herror cursor error stopped hread)

theorem pure (value : α) : Shallow (Pure.pure value) := fun _ => .pure value

theorem bind {first : Parser α} {next : α → Parser β} (hfirst : Shallow first)
    (hnext : ∀ value, Shallow (next value)) : Shallow (first >>= next) :=
  fun start => (hfirst start).bind fun value => hnext value _

theorem ite {condition : Prop} [Decidable condition] {yes no : Parser α} (hyes : Shallow yes)
    (hno : Shallow no) : Shallow (if condition then yes else no) :=
  fun start => .ite (fun _ => hyes start) (fun _ => hno start)

end Shallow

theorem shallow_failAt (line : Nat) (cause : ParseCause) (hcause : cause ≠ .tooDeep) :
    Shallow (failAt line cause : Parser α) :=
  fun _ _ _ => ⟨rfl, .error hcause⟩

theorem shallow_peek : Shallow peek := fun _ cursor _ => ⟨rfl, .ok (.refl cursor)⟩

theorem shallow_next : Shallow next := by
  apply Shallow.of_movesOn movesOn_next
  intro cursor error stopped hread
  rw [next_apply] at hread
  cases hread

theorem shallow_failHere (cause : ParseCause) (hcause : cause ≠ .tooDeep) :
    Shallow (failHere cause : Parser α) :=
  .bind shallow_peek fun _ => shallow_failAt _ cause hcause

theorem shallow_expected (what : Expectation) : Shallow (expected what : Parser α) :=
  .bind shallow_peek fun _ => shallow_failAt _ _ (by simp)

theorem shallow_expectSymbol (sign : Symbol) : Shallow (expectSymbol sign) :=
  .bind shallow_peek fun _ => .ite shallow_next (shallow_expected _)

theorem shallow_expectKeyword (word : Keyword) (what : Expectation) :
    Shallow (expectKeyword word what) :=
  .bind shallow_peek fun _ => .ite shallow_next (shallow_expected _)

theorem shallow_identifier (what : Expectation) : Shallow (identifier what) := by
  apply Shallow.bind shallow_peek
  intro token
  exact .ite (.bind shallow_next fun _ => .pure _) (shallow_expected what)

theorem shallow_tryPunctuation (sign : Symbol) : Shallow (tryPunctuation sign) := by
  apply Shallow.bind shallow_peek
  intro token
  exact .ite (.bind shallow_next fun _ => .pure _) (.pure _)

theorem shallow_skipSeparators : Shallow skipSeparators := by
  apply Shallow.of_movesOn movesOn_skipSeparators
  intro cursor error stopped hread
  cases hread

theorem shallow_note (entry : Note) : Shallow (note entry) := by
  apply Shallow.of_movesOn (movesOn_note entry)
  intro cursor error stopped hread
  cases hread

theorem shallow_numberValue (token : Token) : Shallow (numberValue token) := by
  rw [numberValue]
  cases Number.ofText? token.text.toList with
  | none => exact shallow_failAt _ _ (by simp)
  | some value => exact .pure _

/-- A literal has no parts to go down to. -/
theorem shallow_literal : Shallow literal := by
  apply Shallow.bind (shallow_tryPunctuation .minus)
  intro negative
  apply Shallow.bind shallow_peek
  intro token
  split
  · apply Shallow.bind (shallow_numberValue token)
    intro value
    exact .bind shallow_next fun _ => .pure _
  · exact .bind shallow_next fun _ => .pure _
  · exact .bind shallow_next fun _ => .pure _
  · exact .bind shallow_next fun _ => .pure _
  · exact shallow_expected .literal

theorem shallow_rawText (what : RawText) : Shallow (rawText what) := by
  apply Shallow.bind (shallow_expectSymbol .openParen)
  intro opening start cursor _
  refine ⟨rfl, ?_⟩
  dsimp only
  cases hclosed : untilClosed 0 cursor.tokens with
  | none => exact .error (by simp)
  | some parts => exact .ok ⟨untilClosed_suffix hclosed, rfl⟩

theorem shallow_qualifiedName (first : String) : Shallow (qualifiedName first) := by
  apply Shallow.of_movesOn (movesOn_qualifiedName first)
  intro cursor error stopped hread
  cases hread

theorem shallow_pattern : Shallow pattern := by
  apply Shallow.bind shallow_peek
  intro token
  exact .ite (.bind shallow_next fun _ => .pure _) (.bind shallow_literal fun _ => .pure _)

theorem shallow_timeUnit : Shallow timeUnit := by
  apply Shallow.bind shallow_next
  intro token
  cases TimeUnit.ofText? token.text with
  | none => exact shallow_failAt _ _ (by simp)
  | some unit => exact .pure _

/-! ## Readers with different bounds -/

namespace Agree

variable {length : Nat} {token : Token}

/-- What follows has no more tokens ahead. -/
theorem onward {first firstOther : Parser α} {next nextOther : α → Parser β}
    (hfirst : Agree (Cursor.Within length) first firstOther)
    (hnext : ∀ value, Agree (Cursor.Within length) (next value) (nextOther value)) :
    Agree (Cursor.Within length) (first >>= next) (firstOther >>= nextOther) := by
  apply hfirst.bind
  intro value
  apply (hnext value).weaken
  rintro after ⟨cursor, hwithin, hread⟩
  have hproceeds := (hfirst cursor hwithin).2
  rw [hread] at hproceeds
  cases hproceeds with
  | ok honward => exact hwithin.onward honward

/-- A reader without a bound agrees with itself, so only what follows counts. -/
theorem leaf {first : Parser α} {next nextOther : α → Parser β} (hfirst : Shallow first)
    (hnext : ∀ value, Agree (Cursor.Within length) (next value) (nextOther value)) :
    Agree (Cursor.Within length) (first >>= next) (first >>= nextOther) :=
  onward (hfirst _) hnext

theorem facing {reader other : Parser α} (hagree : Agree (Cursor.Within length) reader other) :
    Agree (Cursor.Facing length token) reader other :=
  hagree.weaken fun _ hfacing => hfacing.toWithin

/-- What follows a look ahead faces the token that was seen. -/
theorem peek {next nextOther : Token → Parser α}
    (hnext : ∀ token, Agree (Cursor.Facing length token) (next token) (nextOther token)) :
    Agree (Cursor.Within length) (peek >>= next) (peek >>= nextOther) := by
  apply (shallow_peek _).bind
  intro token
  apply (hnext token).weaken
  rintro after ⟨cursor, hwithin, hread⟩
  cases hread
  exact ⟨hwithin, rfl⟩

/-- What follows a reader that passes a token has fewer tokens ahead. -/
theorem passing {first firstOther : Parser α} {next nextOther : α → Parser β}
    (htoken : token.kind ≠ .finish) (hpasses : Passes first)
    (hfirst : Agree (Cursor.Facing length token) first firstOther)
    (hnext : ∀ value shorter, shorter < length →
      Agree (Cursor.Within shorter) (next value) (nextOther value)) :
    Agree (Cursor.Facing length token) (first >>= next) (firstOther >>= nextOther) := by
  apply hfirst.bind
  rintro value after ⟨cursor, hfacing, hread⟩
  obtain ⟨hless, hwithin⟩ := hfacing.past htoken (hpasses cursor value after hread)
  exact hnext value after.tokens.length hless after hwithin

theorem next {next nextOther : Token → Parser α} (htoken : token.kind ≠ .finish)
    (hnext : ∀ value shorter, shorter < length →
      Agree (Cursor.Within shorter) (next value) (nextOther value)) :
    Agree (Cursor.Facing length token) (Parser.next >>= next) (Parser.next >>= nextOther) :=
  passing htoken passes_next (shallow_next _) hnext

/-- An attempt that succeeds passes a token, so there are fewer ahead. -/
theorem attempt {attempt : Parser Bool} {yes yesOther no noOther : Parser α}
    (hattempt : Attempts attempt)
    (hyes : ∀ shorter, shorter < length → Agree (Cursor.Within shorter) yes yesOther)
    (hno : Agree (Cursor.Within length) no noOther) :
    Agree (Cursor.Within length) (attempt >>= fun found => if found = true then yes else no)
      (attempt >>= fun found => if found = true then yesOther else noOther) := by
  intro cursor hwithin
  rcases hattempt cursor with ⟨hhead, hfound⟩ | hfound
  · rw [bind_of_ok hfound, bind_of_ok hfound, if_pos rfl, if_pos rfl]
    have hpast := passes_next cursor _ _ (next_apply cursor)
    have hfacing : cursor.Facing length cursor.head := ⟨hwithin, rfl⟩
    obtain ⟨hless, hafter⟩ := hfacing.past hhead hpast
    obtain ⟨heq, hproceeds⟩ := hyes _ hless _ hafter
    exact ⟨heq, hproceeds.of_onward hpast.onward⟩
  · rw [bind_of_ok hfound, bind_of_ok hfound, if_neg Bool.false_ne_true,
      if_neg Bool.false_ne_true]
    exact hno cursor hwithin

end Agree

/-- Under any two bounds that leave sixteen steps for each token ahead, and one for each level, the
reader does the same. -/
def HasLevel (level : Nat) (reader : Nat → Parser α) : Prop :=
  ∀ {fuel more length : Nat}, 16 * length + level ≤ fuel → 16 * length + level ≤ more →
    Agree (Cursor.Within length) (reader fuel) (reader more)

/-- The same of a reader that starts at a token. -/
def HasLevelFacing (level : Nat) (reader : Nat → Parser α) : Prop :=
  ∀ {fuel more length : Nat} {token : Token}, token.kind ≠ .finish →
    16 * length + level ≤ fuel → 16 * length + level ≤ more →
      Agree (Cursor.Facing length token) (reader fuel) (reader more)

/-! ## Expressions -/

mutual

/-- An operand is one level below what joins operands, and the loops behind operands have the lowest
level, so an expression goes down four levels before it reads a token. -/
theorem agree_expression : HasLevel 4 expression
  | fuel + 1, more + 1, length, hfuel, hmore => by
      rw [expression, expression]
      apply Agree.onward (agree_binary 1 (by omega) (by omega))
      intro condition
      apply Agree.peek
      intro question
      apply Agree.ite
      · intro hquestion
        apply Agree.next (Token.kind_ne_finish_of_isSymbol hquestion)
        intro _ shorter hless
        apply Agree.onward (agree_expression (by omega) (by omega))
        intro positive
        apply Agree.leaf (shallow_expectSymbol .colon)
        intro _
        apply Agree.onward (agree_expression (by omega) (by omega))
        exact fun negative => .pure _
      · exact fun _ => .pure _
termination_by structural fuel => fuel

theorem agree_binary (least : Nat) : HasLevel 3 (binary least)
  | fuel + 1, more + 1, length, hfuel, hmore => by
      rw [binary, binary]
      apply Agree.onward (agree_unary (by omega) (by omega))
      exact fun left => agree_binaryAfter least left (by omega) (by omega)
termination_by structural fuel => fuel

theorem agree_binaryAfter (least : Nat) (left : Expr) : HasLevel 1 (binaryAfter least left)
  | fuel + 1, more + 1, length, hfuel, hmore => by
      rw [binaryAfter, binaryAfter]
      apply Agree.peek
      intro token
      cases hoperator : token.binaryOp? with
      | none => exact .pure _
      | some operator =>
          apply Agree.ite
          · exact fun _ => .pure _
          · intro _
            apply Agree.next (fun hkind => by simp [Token.binaryOp?, hkind] at hoperator)
            intro _ shorter hless
            apply Agree.onward (agree_binary _ (by omega) (by omega))
            exact fun right => agree_binaryAfter least _ (by omega) (by omega)
termination_by structural fuel => fuel

theorem agree_unary : HasLevel 2 unary
  | fuel + 1, more + 1, length, hfuel, hmore => by
      rw [unary, unary]
      apply Agree.peek
      intro token
      cases hoperator : token.unaryOp? with
      | none =>
          apply Agree.facing
          apply Agree.onward (agree_primary (by omega) (by omega))
          exact fun target => agree_suffixes target (by omega) (by omega)
      | some operator =>
          apply Agree.next (fun hkind => by simp [Token.unaryOp?, hkind] at hoperator)
          intro _ shorter hless
          apply Agree.onward (agree_unary (by omega) (by omega))
          exact fun operand => .pure _
termination_by structural fuel => fuel

theorem agree_suffixes (target : Expr) : HasLevel 1 (suffixes target)
  | fuel + 1, more + 1, length, hfuel, hmore => by
      rw [suffixes, suffixes]
      apply Agree.peek
      intro token
      split
      case h_1 hkind =>
        apply Agree.next (by simp [hkind])
        intro _ shorter hless
        apply Agree.onward (agree_arguments (by omega) (by omega))
        intro arguments
        apply Agree.leaf (shallow_expectSymbol .closeParen)
        exact fun _ => agree_suffixes _ (by omega) (by omega)
      case h_2 hkind =>
        apply Agree.next (by simp [hkind])
        intro _ shorter hless
        apply Agree.onward (agree_expression (by omega) (by omega))
        intro index
        apply Agree.leaf (shallow_expectSymbol .closeBracket)
        exact fun _ => agree_suffixes _ (by omega) (by omega)
      case h_3 hkind =>
        apply Agree.next (by simp [hkind])
        intro _ shorter hless
        apply Agree.leaf (shallow_identifier .memberName)
        exact fun name => agree_suffixes _ (by omega) (by omega)
      case h_4 => exact .pure _
termination_by structural fuel => fuel

theorem agree_arguments : HasLevel 5 arguments
  | fuel + 1, more + 1, length, hfuel, hmore => by
      rw [arguments, arguments]
      apply Agree.peek
      intro token
      apply Agree.facing
      apply Agree.ite
      · exact fun _ => .pure _
      · intro _
        apply Agree.onward (agree_expression (by omega) (by omega))
        intro first
        apply Agree.onward (agree_moreArguments (by omega) (by omega))
        exact fun rest => .pure _
termination_by structural fuel => fuel

theorem agree_moreArguments : HasLevel 1 moreArguments
  | fuel + 1, more + 1, length, hfuel, hmore => by
      rw [moreArguments, moreArguments]
      apply Agree.attempt (attempts_tryPunctuation .comma)
      · intro shorter hless
        apply Agree.onward (agree_expression (by omega) (by omega))
        intro argument
        apply Agree.onward (agree_moreArguments (by omega) (by omega))
        exact fun rest => .pure _
      · exact .pure _
termination_by structural fuel => fuel

/-- An operand in parentheses goes up again, behind the parenthesis. -/
theorem agree_primary : HasLevel 1 primary
  | fuel + 1, more + 1, length, hfuel, hmore => by
      rw [primary, primary]
      apply Agree.peek
      intro token
      split
      case h_1 hkind =>
        apply Agree.next (by simp [hkind])
        intro _ shorter hless
        apply Agree.leaf (shallow_numberValue token)
        exact fun value => .pure _
      case h_2 hkind => exact .next (by simp [hkind]) fun _ _ _ => .pure _
      case h_3 hkind => exact .next (by simp [hkind]) fun _ _ _ => .pure _
      case h_4 hkind => exact .next (by simp [hkind]) fun _ _ _ => .pure _
      case h_5 hkind =>
        apply Agree.next (by simp [hkind])
        intro _ shorter hless
        apply Agree.leaf (shallow_qualifiedName token.text)
        exact fun name => .pure _
      case h_6 hkind =>
        apply Agree.next (by simp [hkind])
        intro _ shorter hless
        apply Agree.onward (agree_expression (by omega) (by omega))
        intro inner
        apply Agree.leaf (shallow_expectSymbol .closeParen)
        exact fun _ => .pure _
      case h_7 => exact shallow_expected .expression _
termination_by structural fuel => fuel

end

theorem agree_targetSuffixes (line : Nat) (target : Expr) : HasLevel 1 (targetSuffixes line target)
  | fuel + 1, more + 1, length, hfuel, hmore => by
      rw [targetSuffixes, targetSuffixes]
      apply Agree.attempt (attempts_tryPunctuation .openBracket)
      · intro shorter hless
        apply Agree.onward (agree_expression (by omega) (by omega))
        intro index
        apply Agree.leaf (shallow_expectSymbol .closeBracket)
        exact fun _ => agree_targetSuffixes line _ (by omega) (by omega)
      · apply Agree.attempt (attempts_tryPunctuation .dot)
        · intro shorter hless
          apply Agree.leaf (shallow_identifier .memberName)
          exact fun name => agree_targetSuffixes line _ (by omega) (by omega)
        · exact .pure _
termination_by structural fuel => fuel

section

variable {fuel more length : Nat} {token : Token}

/-- A target starts with a name and goes up only behind a bracket. -/
theorem agree_assignmentTarget : HasLevel 1 assignmentTarget := by
  intro fuel more length hfuel hmore
  apply Agree.leaf shallow_peek
  intro token
  apply Agree.leaf (shallow_identifier .assignmentTarget)
  exact fun name => agree_targetSuffixes _ _ hfuel hmore

theorem agree_pair : HasLevel 4 pair := by
  intro fuel more length hfuel hmore
  apply Agree.leaf (shallow_expectSymbol .openParen)
  intro _
  apply Agree.onward (agree_expression hfuel hmore)
  intro first
  apply Agree.leaf (shallow_expectSymbol .comma)
  intro _
  apply Agree.onward (agree_expression hfuel hmore)
  intro second
  apply Agree.leaf (shallow_expectSymbol .closeParen)
  exact fun _ => .pure _

/-! ## Statements without blocks -/

theorem agree_typeNameAfter : HasLevel 1 typeNameAfter
  | fuel + 1, more + 1, length, hfuel, hmore => by
      rw [typeNameAfter, typeNameAfter]
      apply Agree.attempt (attempts_tryPunctuation .doubleColon)
      · intro shorter hless
        apply Agree.leaf (shallow_identifier .typeName)
        intro segment
        apply Agree.onward (agree_typeNameAfter (by omega) (by omega))
        exact fun rest => .pure _
      · exact .pure _
termination_by structural fuel => fuel

theorem agree_typeName : HasLevel 1 typeName := by
  intro fuel more length hfuel hmore
  apply Agree.leaf (shallow_identifier .typeName)
  intro first
  apply Agree.onward (agree_typeNameAfter hfuel hmore)
  exact fun rest => .pure _

theorem agree_optionalType (sign : Symbol) : HasLevel 1 (optionalType sign) := by
  intro fuel more length hfuel hmore
  apply Agree.leaf (shallow_tryPunctuation sign)
  intro announced
  apply Agree.ite
  · intro _
    apply Agree.onward (agree_typeName hfuel hmore)
    exact fun type => .pure _
  · exact fun _ => .pure _

theorem agree_optionalExpression : HasLevel 4 optionalExpression := by
  intro fuel more length hfuel hmore
  apply Agree.leaf shallow_peek
  intro token
  apply Agree.ite
  · intro _
    apply Agree.onward (agree_expression hfuel hmore)
    exact fun value => .pure _
  · exact fun _ => .pure _

/-- A declaration goes up behind its keyword. -/
theorem agree_declaration : HasLevelFacing 0 declaration := by
  intro fuel more length token htoken hfuel hmore
  apply Agree.next htoken
  intro keyword shorter hless
  apply Agree.leaf (shallow_identifier .variableName)
  intro name
  apply Agree.onward (agree_optionalType .colon (by omega) (by omega))
  intro type
  apply Agree.leaf (shallow_tryPunctuation .equals)
  intro assigned
  apply Agree.ite
  · intro _
    apply Agree.onward (agree_expression (by omega) (by omega))
    exact fun value => .pure _
  · exact fun _ => .pure _

/-- An assignment is tried with the same result, although an error in its target is passed over. -/
theorem agree_assignment? : HasLevel 4 assignment? := by
  intro fuel more length hfuel hmore cursor hwithin
  have heq : assignmentTarget fuel cursor = assignmentTarget more cursor :=
    (agree_assignmentTarget (by omega) (by omega) cursor hwithin).1
  rw [assignment?, assignment?, ← heq]
  by_cases hidentifier : cursor.head.isIdentifier = true
  · rw [if_pos hidentifier, if_pos hidentifier]
    cases htarget : assignmentTarget fuel cursor with
    | error error stopped => exact Agree.pure none cursor hwithin
    | ok target after =>
        have honward := (passes_assignmentTarget fuel cursor target after htarget).onward
        have hafter := hwithin.onward honward
        dsimp only
        cases after.head.assignOp? with
        | some operator =>
            have hassign : Agree (Cursor.Within length)
                (next >>= fun _ => expression fuel >>= fun value =>
                  pure (some (Action.assign target operator value)))
                (next >>= fun _ => expression more >>= fun value =>
                  pure (some (Action.assign target operator value))) := by
              apply Agree.leaf shallow_next
              intro _
              apply Agree.onward (agree_expression hfuel hmore)
              exact fun value => .pure _
            obtain ⟨hsame, hproceeds⟩ := hassign after hafter
            exact ⟨hsame, hproceeds.of_onward honward⟩
        | none =>
            cases after.head.stepOp? with
            | some operator =>
                have hstep : Shallow (next >>= fun _ =>
                    pure (some (Action.step target operator))) :=
                  .bind shallow_next fun _ => .pure _
                exact ⟨rfl, (hstep _ after hafter).2.of_onward honward⟩
            | none => exact Agree.pure none cursor hwithin
  · rw [if_neg hidentifier, if_neg hidentifier]
    exact Agree.pure none cursor hwithin

/-- Where no assignment is found, what follows still faces the same token. -/
theorem Agree.assignment {next nextOther : Option Action → Parser α}
    (hfuel : 16 * length + 4 ≤ fuel) (hmore : 16 * length + 4 ≤ more)
    (hsome : ∀ action, Agree (Cursor.Within length) (next (some action)) (nextOther (some action)))
    (hnone : Agree (Cursor.Facing length token) (next none) (nextOther none)) :
    Agree (Cursor.Facing length token) (assignment? fuel >>= next)
      (assignment? more >>= nextOther) := by
  apply (agree_assignment? hfuel hmore).facing.bind
  rintro result after ⟨cursor, hfacing, hread⟩
  rcases assignment?_cases hread with
    ⟨rfl, rfl⟩ | ⟨hpast, ⟨_, _, _, rfl⟩ | ⟨_, _, rfl⟩⟩
  · exact hnone after hfacing
  · exact hsome _ after (hfacing.toWithin.onward hpast.onward)
  · exact hsome _ after (hfacing.toWithin.onward hpast.onward)

theorem agree_overlayArguments : HasLevel 1 overlayArguments
  | fuel + 1, more + 1, length, hfuel, hmore => by
      rw [overlayArguments, overlayArguments]
      apply Agree.peek
      intro token
      apply Agree.ite
      · intro hstarts
        have htoken : token.kind ≠ .finish := fun hkind => by
          simp [Token.startsLiteral, hkind] at hstarts
        -- The literal itself is the token that the loop reads in each round.
        apply Agree.passing htoken passes_literal (shallow_literal _)
        intro argument shorter hless
        apply Agree.onward (agree_overlayArguments (by omega) (by omega))
        exact fun rest => .pure _
      · exact fun _ => .pure _
termination_by structural fuel => fuel

theorem agree_overlay : HasLevelFacing 0 overlay := by
  intro fuel more length token htoken hfuel hmore
  apply Agree.next htoken
  intro keyword shorter hless
  apply Agree.leaf shallow_peek
  intro name
  have harguments : Agree (Cursor.Within shorter)
      (next >>= fun _ => overlayArguments fuel >>= fun arguments =>
        pure (⟨keyword.line, name.text, arguments⟩ : Overlay))
      (next >>= fun _ => overlayArguments more >>= fun arguments =>
        pure ⟨keyword.line, name.text, arguments⟩) := by
    apply Agree.leaf shallow_next
    intro _
    apply Agree.onward (agree_overlayArguments (by omega) (by omega))
    exact fun arguments => .pure _
  split
  · exact harguments
  · exact harguments
  · exact shallow_expected .overlayName _

/-- Each overlay of a run passes its keyword. -/
theorem agree_overlays : HasLevelFacing 1 overlays
  | fuel + 1, more + 1, length, token, htoken, hfuel, hmore => by
      rw [overlays, overlays]
      apply Agree.passing htoken (passes_overlay fuel)
        (agree_overlay htoken (by omega) (by omega))
      intro first shorter hless
      apply Agree.leaf shallow_skipSeparators
      intro _
      apply Agree.peek
      intro following
      apply Agree.ite
      · intro hword
        have hfollowing := Token.kind_ne_finish_of_isKeyword hword
        apply Agree.passing hfollowing (passes_overlays fuel)
          (agree_overlays hfollowing (by omega) (by omega))
        exact fun rest _ _ => .pure _
      · exact fun _ => .pure _
termination_by structural fuel => fuel

theorem agree_listedParameters (name : String) : HasLevel 1 (listedParameters name)
  | fuel + 1, more + 1, length, hfuel, hmore => by
      rw [listedParameters, listedParameters]
      apply Agree.peek
      intro fragment
      apply Agree.ite
      · intro hstring
        apply Agree.next (by simp [hstring])
        intro _ shorter hless
        cases Parameter.ofFragment? fragment.text.toList with
        | none => exact shallow_failAt fragment.line (.emptyParameter name) (by simp) _
        | some parameter =>
            apply Agree.attempt (attempts_tryPunctuation .comma)
            · intro fewer hfewer
              apply Agree.onward (agree_listedParameters name (by omega) (by omega))
              exact fun rest => .pure _
            · exact .pure _
      · exact fun _ => .pure _
termination_by structural fuel => fuel

theorem agree_parameterList (name : String) : HasLevel 1 (parameterList name) := by
  intro fuel more length hfuel hmore
  apply Agree.leaf shallow_peek
  intro token
  apply Agree.ite
  · intro _
    apply Agree.leaf (shallow_rawText .parameterList)
    exact fun text => .pure _
  · intro _
    apply Agree.onward (agree_listedParameters name hfuel hmore)
    exact fun parameters => .pure _

theorem agree_moreBases : HasLevel 1 moreBases
  | fuel + 1, more + 1, length, hfuel, hmore => by
      rw [moreBases, moreBases]
      apply Agree.attempt (attempts_tryPunctuation .comma)
      · intro shorter hless
        apply Agree.leaf (shallow_identifier .baseClass)
        intro base
        apply Agree.onward (agree_moreBases (by omega) (by omega))
        exact fun rest => .pure _
      · exact .pure _
termination_by structural fuel => fuel

theorem agree_baseClasses : HasLevel 1 baseClasses := by
  intro fuel more length hfuel hmore
  apply Agree.leaf (shallow_tryPunctuation .colon)
  intro colon
  apply Agree.ite
  · intro _
    apply Agree.leaf (shallow_identifier .baseClass)
    intro base
    apply Agree.onward (agree_moreBases hfuel hmore)
    exact fun rest => .pure _
  · exact fun _ => .pure _

theorem agree_morePatterns : HasLevel 1 morePatterns
  | fuel + 1, more + 1, length, hfuel, hmore => by
      rw [morePatterns, morePatterns]
      apply Agree.peek
      intro token
      apply Agree.ite
      · intro hsign
        have htoken : token.kind ≠ .finish := fun hkind => by
          simp [Token.isSymbol, hkind] at hsign
        apply Agree.next htoken
        intro _ shorter hless
        apply Agree.leaf shallow_pattern
        intro first
        apply Agree.onward (agree_morePatterns (by omega) (by omega))
        exact fun rest => .pure _
      · exact fun _ => .pure _
termination_by structural fuel => fuel

/-- Only an expression can start an action without a keyword passed before it. -/
theorem agree_keywordAction (word : Keyword) : HasLevelFacing 4 (keywordAction word) := by
  intro fuel more length token htoken hfuel hmore
  have hexpression : ∀ shorter, shorter < length →
      Agree (Cursor.Within shorter) (expression fuel) (expression more) := by
    intro shorter hless
    exact agree_expression (by omega) (by omega)
  cases word with
  | letWord | constWord =>
      apply Agree.passing htoken (passes_declaration fuel)
        (agree_declaration htoken (by omega) (by omega))
      exact fun binding _ _ => .pure _
  | trueWord | falseWord =>
      apply Agree.facing
      apply Agree.onward (agree_expression hfuel hmore)
      exact fun value => .pure _
  | print | returnWord =>
      apply Agree.next htoken
      intro _ shorter hless
      apply Agree.onward (agree_optionalExpression (by omega) (by omega))
      exact fun value => .pure _
  | input =>
      apply Agree.next htoken
      intro _ shorter hless
      apply Agree.leaf (shallow_identifier .inputVariable)
      exact fun name => .pure _
  | read =>
      apply Agree.next htoken
      intro _ shorter hless
      apply Agree.onward (hexpression shorter hless)
      intro path
      apply Agree.leaf (shallow_expectSymbol .arrow)
      intro _
      apply Agree.leaf (shallow_identifier .readVariable)
      exact fun name => .pure _
  | write | append =>
      apply Agree.next htoken
      intro _ shorter hless
      apply Agree.onward (hexpression shorter hless)
      intro path
      apply Agree.leaf (shallow_expectSymbol .comma)
      intro _
      apply Agree.onward (hexpression shorter hless)
      exact fun value => .pure _
  | channel =>
      apply Agree.next htoken
      intro _ shorter hless
      apply Agree.leaf (shallow_identifier .channelName)
      intro name
      apply Agree.onward (agree_optionalType .colon (by omega) (by omega))
      exact fun element => .pure _
  | send =>
      apply Agree.next htoken
      intro _ shorter hless
      apply Agree.leaf (shallow_identifier .channelName)
      intro channel
      apply Agree.onward (hexpression shorter hless)
      exact fun value => .pure _
  | recv =>
      apply Agree.next htoken
      intro _ shorter hless
      apply Agree.leaf (shallow_identifier .channelName)
      intro channel
      apply Agree.leaf (shallow_expectSymbol .arrow)
      intro _
      apply Agree.leaf (shallow_identifier .receiveVariable)
      exact fun name => .pure _
  | mutate =>
      apply Agree.next htoken
      intro _ shorter hless
      apply Agree.onward (agree_assignmentTarget (by omega) (by omega))
      intro target
      apply Agree.leaf (shallow_expectSymbol .equals)
      intro _
      apply Agree.onward (hexpression shorter hless)
      exact fun value => .pure _
  | scale =>
      apply Agree.next htoken
      intro _ shorter hless
      apply Agree.leaf (shallow_identifier .scaledVariable)
      intro name
      apply Agree.onward (agree_pair (by omega) (by omega))
      intro source
      apply Agree.leaf (shallow_expectSymbol .arrow)
      intro _
      apply Agree.onward (agree_pair (by omega) (by omega))
      exact fun image => .pure _
  | bounds =>
      apply Agree.next htoken
      intro _ shorter hless
      apply Agree.leaf (shallow_identifier .clampedVariable)
      intro name
      apply Agree.onward (agree_pair (by omega) (by omega))
      exact fun range => .pure _
  | checkpoint =>
      apply Agree.next htoken
      intro _ shorter hless
      apply Agree.leaf shallow_peek
      intro label
      apply Agree.ite
      · exact fun _ => .leaf shallow_next fun _ => .pure _
      · exact fun _ => .pure _
  | duration =>
      apply Agree.next htoken
      intro _ shorter hless
      apply Agree.leaf (shallow_identifier .durationName)
      intro name
      apply Agree.leaf (shallow_expectSymbol .equals)
      intro _
      apply Agree.onward (hexpression shorter hless)
      intro amount
      exact .leaf shallow_timeUnit fun _ => .pure _
  | derivative =>
      apply Agree.next htoken
      intro _ shorter hless
      apply Agree.leaf (shallow_identifier .derivativeName)
      intro name
      apply Agree.leaf (shallow_expectSymbol .equals)
      intro _
      apply Agree.onward (hexpression shorter hless)
      intro body
      apply Agree.leaf (shallow_expectKeyword .wrt .wrt)
      intro _
      apply Agree.leaf (shallow_identifier .derivativeVariable)
      exact fun argument => .pure _
  | splice =>
      apply Agree.next htoken
      intro _ shorter hless
      apply Agree.leaf shallow_peek
      intro payload
      apply Agree.ite
      · exact fun _ => .leaf shallow_next fun _ => .pure _
      · exact fun _ => shallow_expected .splicePayload _
  | throwWord =>
      apply Agree.next htoken
      intro _ shorter hless
      apply Agree.onward (hexpression shorter hless)
      exact fun value => .pure _
  | _ => exact .next htoken fun _ _ _ => .pure _

end

end Parser

end Tide
