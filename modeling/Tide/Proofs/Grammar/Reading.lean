import Tide.Grammar.Expression
import Tide.Proofs.Grammar.Cursor

/-!
# Which tokens are read as an expression

Expressions have levels: ternaries stand at 0, binary operators at their precedence, unary ones at 7
and everything else at 8.  Some tokens are read at a level if they are read whole where an
expression of that level may stand, whatever follows them, as long as it does not go on with the
expression.  There is one rule for each form, and a higher level may stand for a lower one.

The bound on nesting is part of this: sixteen steps for each token are enough.
-/

namespace Tide

namespace Token

/-- What stands before the token goes on with it: as a longer name, a call or an access. -/
def extendsPrimary (token : Token) : Bool :=
  token.isSymbol .doubleColon || token.isSymbol .openParen || token.isSymbol .openBracket ||
    token.isSymbol .dot

/-- The expression before the token goes on with it. -/
def extendsExpression (token : Token) : Bool :=
  token.extendsPrimary || token.binaryOp?.isSome || token.isSymbol .question

end Token

/-- The place in front of some more tokens. -/
def Cursor.before (cursor : Cursor) (tokens : List Token) : Cursor :=
  { cursor with tokens := tokens ++ cursor.tokens }

namespace Parser

section

variable {token : Token} {tokens left right : List Token} {cursor : Cursor} {sign : Symbol}

theorem before_append : cursor.before (left ++ right) = (cursor.before right).before left := by
  simp [Cursor.before]

theorem before_nil : cursor.before [] = cursor := rfl

@[simp]
theorem head_before_cons : (cursor.before (token :: tokens)).head = token := rfl

theorem next_before :
    next (cursor.before (token :: tokens)) = .ok token (cursor.before tokens) := rfl

theorem expectSymbol_before (hsign : token.kind = .symbol sign) :
    expectSymbol sign (cursor.before (token :: tokens)) = .ok token (cursor.before tokens) :=
  expectSymbol_cons (by simp [Token.isSymbol, hsign])

theorem tryPunctuation_before (hsign : token.kind = .symbol sign) :
    tryPunctuation sign (cursor.before (token :: tokens)) = .ok true (cursor.before tokens) :=
  tryPunctuation_cons (by simp [Token.isSymbol, hsign])

end

/-! ## Single steps -/

section

variable {token : Token} {tokens : List Token} {cursor : Cursor} {fuel : Nat} {target : Expr}

theorem unary_operator {operator : UnaryOp} (hoperator : token.unaryOp? = some operator)
    {operand : Expr} (hoperand : unary fuel (cursor.before tokens) = .ok operand cursor) :
    unary (fuel + 1) (cursor.before (token :: tokens)) =
      .ok (.unary token.line operator operand) cursor := by
  rw [unary, bind_of_ok (peek_apply _), head_before_cons, hoperator]
  dsimp only
  rw [bind_of_ok next_before, bind_of_ok hoperand]
  rfl

theorem unary_primary (hoperator : token.unaryOp? = none) {after : Cursor}
    (hprimary : primary fuel (cursor.before (token :: tokens)) = .ok target after) :
    unary (fuel + 1) (cursor.before (token :: tokens)) = suffixes target fuel after := by
  rw [unary, bind_of_ok (peek_apply _), head_before_cons, hoperator]
  exact bind_of_ok hprimary

theorem suffixes_of_not (hhead : cursor.head.extendsPrimary = false) :
    suffixes target (fuel + 1) cursor = .ok target cursor := by
  rw [suffixes, bind_of_ok (peek_apply _)]
  simp only [Token.extendsPrimary, Token.isSymbol] at hhead
  generalize cursor.head.kind = kind at hhead ⊢
  cases kind with
  | symbol sign =>
      -- The signs that start a suffix are refused by `hhead`, and the others are passed over.
      cases sign <;> first | rfl | exact absurd hhead (by decide)
  | _ => rfl

theorem binaryAfter_of_lt {least : Nat}
    (hhead : ∀ operator ∈ cursor.head.binaryOp?, operator.precedence < least) :
    binaryAfter least target (fuel + 1) cursor = .ok target cursor := by
  rw [binaryAfter, bind_of_ok (peek_apply _)]
  cases hoperator : cursor.head.binaryOp? with
  | none => rfl
  | some operator => exact congrFun (if_pos (hhead operator hoperator)) _

end

/-! ## Levels -/

/-- The first token is one that can start an expression. -/
def StartsExpression (tokens : List Token) : Prop :=
  ∃ first more, tokens = first :: more ∧ first.startsExpression = true

/-- The tokens are read as the expression, up to the suffixes that follow them. -/
def ReadsPrimary (tree : Expr) (tokens : List Token) : Prop :=
  ∀ (fuel : Nat) (cursor : Cursor), cursor.head.isSymbol .doubleColon = false →
    16 * tokens.length ≤ fuel + 2 → ∃ left, fuel ≤ left + 4 * tokens.length ∧
      unary fuel (cursor.before tokens) = suffixes tree left cursor

/-- The tokens are read as the expression where a unary one may stand. -/
def ReadsUnary (tree : Expr) (tokens : List Token) : Prop :=
  ∀ (fuel : Nat) (cursor : Cursor), cursor.head.extendsPrimary = false →
    16 * tokens.length ≤ fuel + 2 → unary fuel (cursor.before tokens) = .ok tree cursor

/-- The tokens are read as the expression where an operand for operators of the precedence `level`
may stand, up to the operators that follow them.  These bind no tighter than `level`. -/
def ReadsBinary (level : Nat) (tree : Expr) (tokens : List Token) : Prop :=
  ∀ (least fuel : Nat) (cursor : Cursor), least ≤ level → cursor.head.extendsPrimary = false →
    (∀ operator ∈ cursor.head.binaryOp?, operator.precedence ≤ level) →
    16 * tokens.length ≤ fuel + 1 → ∃ left, fuel ≤ left + 4 * tokens.length ∧
      binary least fuel (cursor.before tokens) = binaryAfter least tree left cursor

/-- The tokens are read as the expression where any may stand. -/
def ReadsExpression (tree : Expr) (tokens : List Token) : Prop :=
  ∀ (fuel : Nat) (cursor : Cursor), cursor.head.extendsExpression = false →
    16 * tokens.length ≤ fuel → expression fuel (cursor.before tokens) = .ok tree cursor

/-- The tokens are read as the expression wherever one of the level may stand. -/
structure ReadsAt (level : Nat) (tree : Expr) (tokens : List Token) : Prop where
  starts : StartsExpression tokens
  primary : 8 ≤ level → ReadsPrimary tree tokens
  unary : 7 ≤ level → ReadsUnary tree tokens
  binary : ∀ least ≤ level, 0 < least → ReadsBinary least tree tokens
  expression : ReadsExpression tree tokens

theorem StartsExpression.length_pos {tokens : List Token} (hstarts : StartsExpression tokens) :
    0 < tokens.length := by
  obtain ⟨first, more, rfl, -⟩ := hstarts
  simp

section

variable {level : Nat} {tree : Expr} {tokens : List Token}

theorem ReadsAt.mono (hreads : ReadsAt level tree tokens) {lower : Nat}
    (hlower : lower ≤ level) : ReadsAt lower tree tokens where
  starts := hreads.starts
  primary hlevel := hreads.primary (hlevel.trans hlower)
  unary hlevel := hreads.unary (hlevel.trans hlower)
  binary least hleast := hreads.binary least (hleast.trans hlower)
  expression := hreads.expression

theorem ReadsPrimary.unary (hprimary : ReadsPrimary tree tokens)
    (hstarts : StartsExpression tokens) : ReadsUnary tree tokens := by
  intro fuel cursor hhead hfuel
  have hpos := hstarts.length_pos
  have hcolons : cursor.head.isSymbol .doubleColon = false := by
    simp only [Token.extendsPrimary, Bool.or_eq_false_iff] at hhead
    exact hhead.1.1.1
  obtain ⟨left, hleft, hunary⟩ := hprimary fuel cursor hcolons hfuel
  obtain ⟨left, rfl⟩ : ∃ more, left = more + 1 := ⟨left - 1, by omega⟩
  rw [hunary, suffixes_of_not hhead]

theorem ReadsUnary.binary (hunary : ReadsUnary tree tokens)
    (hstarts : StartsExpression tokens) (level : Nat) : ReadsBinary level tree tokens := by
  intro least fuel cursor _ hhead _ hfuel
  have hpos := hstarts.length_pos
  obtain ⟨fuel, rfl⟩ : ∃ more, fuel = more + 1 := ⟨fuel - 1, by omega⟩
  refine ⟨fuel, by omega, ?_⟩
  rw [Parser.binary, bind_of_ok (hunary fuel cursor hhead (by omega))]

theorem ReadsBinary.mono (hbinary : ReadsBinary level tree tokens) {lower : Nat}
    (hlower : lower ≤ level) : ReadsBinary lower tree tokens := by
  intro least fuel cursor hleast hhead hoperator hfuel
  exact hbinary least fuel cursor (hleast.trans hlower) hhead
    (fun operator hsome => (hoperator operator hsome).trans hlower) hfuel

/-- An operand is read whole when what follows binds less tightly. -/
theorem ReadsBinary.eq_ok (hbinary : ReadsBinary level tree tokens)
    (hstarts : StartsExpression tokens) (fuel : Nat) (cursor : Cursor)
    (hhead : cursor.head.extendsPrimary = false)
    (hoperator : ∀ operator ∈ cursor.head.binaryOp?, operator.precedence < level)
    (hfuel : 16 * tokens.length ≤ fuel + 1) :
    Parser.binary level fuel (cursor.before tokens) = .ok tree cursor := by
  have hpos := hstarts.length_pos
  obtain ⟨left, hleft, hread⟩ := hbinary level fuel cursor le_rfl hhead
    (fun operator hsome => (hoperator operator hsome).le) hfuel
  obtain ⟨left, rfl⟩ : ∃ more, left = more + 1 := ⟨left - 1, by omega⟩
  rw [hread, binaryAfter_of_lt hoperator]

theorem extendsExpression_eq_false_iff {token : Token} :
    token.extendsExpression = false ↔
      token.extendsPrimary = false ∧ token.binaryOp? = none ∧ token.isSymbol .question = false := by
  simp [Token.extendsExpression, and_assoc]

theorem ReadsBinary.expression (hbinary : ReadsBinary 1 tree tokens)
    (hstarts : StartsExpression tokens) : ReadsExpression tree tokens := by
  intro fuel cursor hhead hfuel
  have hpos := hstarts.length_pos
  obtain ⟨hprimary, hoperator, hquestion⟩ := extendsExpression_eq_false_iff.mp hhead
  obtain ⟨fuel, rfl⟩ : ∃ more, fuel = more + 1 := ⟨fuel - 1, by omega⟩
  have hread := hbinary.eq_ok hstarts fuel cursor hprimary (by simp [hoperator]) (by omega)
  rw [Parser.expression, bind_of_ok hread, bind_of_ok (peek_apply _)]
  exact congrFun (if_neg (by simp [hquestion])) _

theorem ReadsExpression.readsAt (hexpression : ReadsExpression tree tokens)
    (hstarts : StartsExpression tokens) : ReadsAt 0 tree tokens where
  starts := hstarts
  primary := by omega
  unary := by omega
  binary := by omega
  expression := hexpression

theorem ReadsBinary.readsAt (hbinary : ReadsBinary level tree tokens)
    (hstarts : StartsExpression tokens) (hpos : 0 < level) (hlevel : level < 7) :
    ReadsAt level tree tokens where
  starts := hstarts
  primary := by omega
  unary := by omega
  binary least hleast _ := hbinary.mono hleast
  expression := (hbinary.mono hpos).expression hstarts

theorem ReadsUnary.readsAt (hunary : ReadsUnary tree tokens)
    (hstarts : StartsExpression tokens) : ReadsAt 7 tree tokens where
  starts := hstarts
  primary := by omega
  unary _ := hunary
  binary least _ _ := hunary.binary hstarts least
  expression := (hunary.binary hstarts 1).expression hstarts

theorem ReadsPrimary.readsAt (hprimary : ReadsPrimary tree tokens)
    (hstarts : StartsExpression tokens) : ReadsAt 8 tree tokens where
  starts := hstarts
  primary _ := hprimary
  unary _ := hprimary.unary hstarts
  binary least _ _ := (hprimary.unary hstarts).binary hstarts least
  expression := ((hprimary.unary hstarts).binary hstarts 1).expression hstarts

end

/-! ## Rules -/

/-- No expression goes on with these signs. -/
theorem extendsExpression_of_kind {token : Token} {sign : Symbol}
    (hkind : token.kind = .symbol sign)
    (hsign : sign ∈ [.closeParen, .closeBracket, .comma, .colon]) :
    token.extendsExpression = false := by
  simp only [List.mem_cons, List.not_mem_nil, or_false] at hsign
  rcases hsign with rfl | rfl | rfl | rfl
  all_goals
    simp [Token.extendsExpression, Token.extendsPrimary, Token.isSymbol, Token.binaryOp?, hkind]

section

variable {token opening closing : Token} {tree : Expr} {tokens : List Token}

/-- A token that is a primary expression by itself, or starts one. -/
theorem readsAt_of_primary (hstarts : token.startsExpression = true)
    (hoperator : token.unaryOp? = none)
    (hprimary : ∀ (fuel : Nat) (cursor : Cursor), cursor.head.isSymbol .doubleColon = false →
      16 * tokens.length + 11 ≤ fuel →
        primary (fuel + 1) (cursor.before (token :: tokens)) = .ok tree cursor) :
    ReadsAt 8 tree (token :: tokens) := by
  refine ReadsPrimary.readsAt ?_ ⟨token, tokens, rfl, hstarts⟩
  intro fuel cursor hhead hfuel
  rw [List.length_cons] at hfuel ⊢
  obtain ⟨fuel, rfl⟩ : ∃ more, fuel = more + 2 := ⟨fuel - 2, by omega⟩
  refine ⟨fuel + 1, by omega, ?_⟩
  exact unary_primary hoperator (hprimary fuel cursor hhead (by omega))

theorem readsAt_number {value : Number} (hkind : token.kind = .number)
    (hvalue : Number.ofText? token.text.toList = some value) :
    ReadsAt 8 (.literal token.line (.number value)) [token] := by
  refine readsAt_of_primary (by simp [Token.startsExpression, hkind])
    (by simp [Token.unaryOp?, hkind]) ?_
  intro fuel cursor _ _
  rw [primary, bind_of_ok (peek_apply _), head_before_cons, hkind]
  dsimp only
  rw [bind_of_ok next_before, numberValue, hvalue]
  rfl

theorem readsAt_string (hkind : token.kind = .string) :
    ReadsAt 8 (.literal token.line (.string token.text)) [token] := by
  refine readsAt_of_primary (by simp [Token.startsExpression, hkind])
    (by simp [Token.unaryOp?, hkind]) ?_
  intro fuel cursor _ _
  rw [primary, bind_of_ok (peek_apply _), head_before_cons, hkind]
  rfl

theorem readsAt_boolean (value : Bool)
    (hkind : token.kind = .keyword (if value then .trueWord else .falseWord)) :
    ReadsAt 8 (.literal token.line (.boolean value)) [token] := by
  cases value
  all_goals
    refine readsAt_of_primary (by simp [Token.startsExpression, hkind])
      (by simp [Token.unaryOp?, hkind]) ?_
    intro fuel cursor _ _
    rw [primary, bind_of_ok (peek_apply _), head_before_cons, hkind]
    rfl

/-- Parentheses make a primary expression of any. -/
theorem readsAt_group (hopening : opening.kind = .symbol .openParen)
    (htree : ReadsAt 0 tree tokens) (hclosing : closing.kind = .symbol .closeParen) :
    ReadsAt 8 tree (opening :: (tokens ++ [closing])) := by
  refine readsAt_of_primary (by simp [Token.startsExpression, hopening])
    (by simp [Token.unaryOp?, hopening]) ?_
  intro fuel cursor _ hfuel
  rw [List.length_append] at hfuel
  have hinner := htree.expression fuel (cursor.before [closing])
    (extendsExpression_of_kind hclosing (by decide)) (by omega)
  rw [primary, bind_of_ok (peek_apply _), head_before_cons, hopening]
  dsimp only
  rw [bind_of_ok next_before, before_append, bind_of_ok hinner,
    bind_of_ok (expectSymbol_before hclosing)]
  rfl

theorem readsAt_unary {operator : UnaryOp} (hoperator : token.unaryOp? = some operator)
    (htree : ReadsAt 7 tree tokens) :
    ReadsAt 7 (.unary token.line operator tree) (token :: tokens) := by
  have hstarts : token.startsExpression = true := by
    unfold Token.unaryOp? at hoperator
    split at hoperator <;> simp_all [Token.startsExpression]
  refine ReadsUnary.readsAt ?_ ⟨token, tokens, rfl, hstarts⟩
  intro fuel cursor hhead hfuel
  rw [List.length_cons] at hfuel
  obtain ⟨fuel, rfl⟩ : ∃ more, fuel = more + 1 := ⟨fuel - 1, by omega⟩
  exact unary_operator hoperator (htree.unary le_rfl fuel cursor hhead (by omega))

end

theorem StartsExpression.append {tokens : List Token} (hstarts : StartsExpression tokens)
    (more : List Token) : StartsExpression (tokens ++ more) := by
  obtain ⟨first, rest, rfl, hfirst⟩ := hstarts
  exact ⟨first, rest ++ more, rfl, hfirst⟩

theorem precedence_pos (operator : BinaryOp) : 0 < operator.precedence := by
  cases operator <;> decide

theorem precedence_lt (operator : BinaryOp) : operator.precedence < 7 := by
  cases operator <;> decide

theorem extendsPrimary_of_binaryOp? {token : Token} {operator : BinaryOp}
    (hoperator : token.binaryOp? = some operator) : token.extendsPrimary = false := by
  unfold Token.binaryOp? at hoperator
  split at hoperator <;> simp_all [Token.extendsPrimary, Token.isSymbol]

/-- An operator takes a left operand of its own level and a right one above it. -/
theorem readsAt_binary {token : Token} {operator : BinaryOp} {left right : Expr}
    {leftTokens rightTokens : List Token} (hoperator : token.binaryOp? = some operator)
    (hleft : ReadsAt operator.precedence left leftTokens)
    (hright : ReadsAt (operator.precedence + 1) right rightTokens) :
    ReadsAt operator.precedence (.binary token.line operator left right)
      (leftTokens ++ token :: rightTokens) := by
  refine ReadsBinary.readsAt ?_ (hleft.starts.append _) (precedence_pos operator)
    (precedence_lt operator)
  intro least fuel cursor hleast hhead hnext hfuel
  simp only [List.length_append, List.length_cons] at hfuel ⊢
  have hpos := hleft.starts.length_pos
  obtain ⟨rest, hrest, hread⟩ :=
    hleft.binary _ le_rfl (precedence_pos operator) least fuel
      (cursor.before (token :: rightTokens)) hleast (extendsPrimary_of_binaryOp? hoperator)
      (by simp [hoperator]) (by omega)
  obtain ⟨rest, rfl⟩ : ∃ more, rest = more + 1 := ⟨rest - 1, by omega⟩
  refine ⟨rest, by omega, ?_⟩
  -- The operator is taken, and its right operand ends before the next one.
  have hoperand := (hright.binary _ le_rfl (by omega)).eq_ok hright.starts rest cursor hhead
    (fun next hsome => Nat.lt_succ_of_le (hnext next hsome)) (by omega)
  rw [before_append, hread, binaryAfter, bind_of_ok (peek_apply _), head_before_cons, hoperator]
  dsimp only
  rw [if_neg (by omega), bind_of_ok next_before, bind_of_ok hoperand]

/-- A ternary takes a condition without a ternary in it, and any branches. -/
theorem readsAt_ternary {question colon : Token} {condition positive negative : Expr}
    {conditionTokens positiveTokens negativeTokens : List Token}
    (hquestion : question.kind = .symbol .question) (hcolon : colon.kind = .symbol .colon)
    (hcondition : ReadsAt 1 condition conditionTokens)
    (hpositive : ReadsAt 0 positive positiveTokens)
    (hnegative : ReadsAt 0 negative negativeTokens) :
    ReadsAt 0 (.ternary question.line condition positive negative)
      (conditionTokens ++ question :: (positiveTokens ++ colon :: negativeTokens)) := by
  refine ReadsExpression.readsAt ?_ (hcondition.starts.append _)
  intro fuel cursor hhead hfuel
  simp only [List.length_append, List.length_cons] at hfuel
  obtain ⟨fuel, rfl⟩ : ∃ more, fuel = more + 1 := ⟨fuel - 1, by omega⟩
  have hbinary := (hcondition.binary 1 le_rfl one_pos).eq_ok hcondition.starts fuel
    (cursor.before (question :: (positiveTokens ++ colon :: negativeTokens)))
    (by simp [Token.extendsPrimary, Token.isSymbol, hquestion])
    (by simp [Token.binaryOp?, hquestion]) (by omega)
  have hfirst := hpositive.expression fuel (cursor.before (colon :: negativeTokens))
    (extendsExpression_of_kind hcolon (by decide)) (by omega)
  have hsecond := hnegative.expression fuel cursor hhead (by omega)
  rw [before_append, expression, bind_of_ok hbinary, bind_of_ok (peek_apply _), head_before_cons,
    if_pos (by simp [Token.isSymbol, hquestion]), bind_of_ok next_before, before_append,
    bind_of_ok hfirst, bind_of_ok (expectSymbol_before hcolon), bind_of_ok hsecond]
  rfl

/-! ## Names -/

/-- The tokens spell identifiers with `::` before each. -/
inductive Qualifies : List String → List Token → Prop
  | nil : Qualifies [] []
  | cons {separator name : Token} {names : List String} {tokens : List Token}
      (hseparator : separator.kind = .symbol .doubleColon) (hname : name.kind = .identifier)
      (hnames : Qualifies names tokens) :
      Qualifies (name.text :: names) (separator :: name :: tokens)

theorem qualifiers_of_not {tokens : List Token} {finish : Token}
    (hhead : (tokens.headD finish).isSymbol .doubleColon = false) :
    Token.qualifiers tokens = ([], tokens) := by
  unfold Token.qualifiers
  split
  case h_1 separator name rest =>
      rw [List.headD_cons] at hhead
      rw [hhead]
      rfl
  case h_2 => rfl

theorem Qualifies.qualifiers_append {names : List String} {tokens : List Token}
    (hnames : Qualifies names tokens) {rest : List Token}
    (hrest : Token.qualifiers rest = ([], rest)) :
    Token.qualifiers (tokens ++ rest) = (names, rest) := by
  induction hnames with
  | nil => exact hrest
  | cons hseparator hname hnames ih =>
      simp [Token.qualifiers, Token.isSymbol, Token.isIdentifier, hseparator, hname, ih]

theorem readsAt_name {first : Token} {names : List String} {tokens : List Token}
    (hfirst : first.kind = .identifier) (hnames : Qualifies names tokens) :
    ReadsAt 8 (.name first.line ("::".intercalate (first.text :: names))) (first :: tokens) := by
  refine readsAt_of_primary (by simp [Token.startsExpression, hfirst])
    (by simp [Token.unaryOp?, hfirst]) ?_
  intro fuel cursor hhead _
  have hname : qualifiedName first.text (cursor.before tokens) =
      .ok ("::".intercalate (first.text :: names)) cursor := by
    rw [qualifiedName, Cursor.before, hnames.qualifiers_append (qualifiers_of_not hhead)]
  rw [primary, bind_of_ok (peek_apply _), head_before_cons, hfirst]
  dsimp only
  rw [bind_of_ok next_before, bind_of_ok hname]
  rfl

/-! ## Calls and accesses -/

/-- What is read after a primary expression makes a longer one. -/
theorem readsAt_suffix {target tree : Expr} {token : Token} {tokens more : List Token}
    (htarget : ReadsAt 8 target tokens) (hcolons : token.isSymbol .doubleColon = false)
    (hsuffix : ∀ (fuel : Nat) (cursor : Cursor), 16 * (more.length + 1) ≤ fuel →
      suffixes target (fuel + 1) (cursor.before (token :: more)) = suffixes tree fuel cursor) :
    ReadsAt 8 tree (tokens ++ token :: more) := by
  refine ReadsPrimary.readsAt ?_ (htarget.starts.append _)
  intro fuel cursor _ hfuel
  simp only [List.length_append, List.length_cons] at hfuel ⊢
  have hpos := htarget.starts.length_pos
  obtain ⟨left, hleft, hread⟩ :=
    htarget.primary le_rfl fuel (cursor.before (token :: more)) hcolons (by omega)
  obtain ⟨left, rfl⟩ : ∃ more, left = more + 1 := ⟨left - 1, by omega⟩
  refine ⟨left, by omega, ?_⟩
  rw [before_append, hread, hsuffix left cursor (by omega)]

theorem readsAt_member {target : Expr} {dot name : Token} {tokens : List Token}
    (htarget : ReadsAt 8 target tokens) (hdot : dot.kind = .symbol .dot)
    (hname : name.kind = .identifier) :
    ReadsAt 8 (.member dot.line target name.text) (tokens ++ [dot, name]) := by
  refine readsAt_suffix htarget (by simp [Token.isSymbol, hdot]) ?_
  intro fuel cursor _
  rw [suffixes, bind_of_ok (peek_apply _), head_before_cons, hdot]
  dsimp only
  rw [bind_of_ok next_before]
  exact bind_of_ok (identifier_cons (by simp [Token.isIdentifier, hname]))

theorem readsAt_index {target place : Expr} {opening closing : Token}
    {tokens placeTokens : List Token} (htarget : ReadsAt 8 target tokens)
    (hopening : opening.kind = .symbol .openBracket) (hplace : ReadsAt 0 place placeTokens)
    (hclosing : closing.kind = .symbol .closeBracket) :
    ReadsAt 8 (.index opening.line target place)
      (tokens ++ opening :: (placeTokens ++ [closing])) := by
  refine readsAt_suffix htarget (by simp [Token.isSymbol, hopening]) ?_
  intro fuel cursor hfuel
  rw [List.length_append] at hfuel
  have hinner := hplace.expression fuel (cursor.before [closing])
    (extendsExpression_of_kind hclosing (by decide)) (by omega)
  rw [suffixes, bind_of_ok (peek_apply _), head_before_cons, hopening]
  dsimp only
  rw [bind_of_ok next_before, before_append, bind_of_ok hinner,
    bind_of_ok (expectSymbol_before hclosing), before_nil]

/-- The tokens are read as arguments that follow another one, up to a closing parenthesis. -/
structure ReadsMoreArguments (trees : List Expr) (tokens : List Token) : Prop where
  stops : ∀ cursor : Cursor, cursor.head.kind = .symbol .closeParen →
    (cursor.before tokens).head.extendsExpression = false
  reads : ∀ (fuel : Nat) (cursor : Cursor), cursor.head.kind = .symbol .closeParen →
    16 * tokens.length < fuel → moreArguments fuel (cursor.before tokens) = .ok trees cursor

/-- The tokens are read as the arguments of a call, up to its closing parenthesis. -/
def ReadsArguments (trees : List Expr) (tokens : List Token) : Prop :=
  ∀ (fuel : Nat) (cursor : Cursor), cursor.head.kind = .symbol .closeParen →
    16 * tokens.length < fuel → arguments fuel (cursor.before tokens) = .ok trees cursor

theorem readsMoreArguments_nil : ReadsMoreArguments [] [] where
  stops cursor hclosing := extendsExpression_of_kind hclosing (by decide)
  reads fuel cursor hclosing hfuel := by
    obtain ⟨fuel, rfl⟩ : ∃ more, fuel = more + 1 := ⟨fuel - 1, by omega⟩
    have hcomma : cursor.head.isSymbol .comma = false := by simp [Token.isSymbol, hclosing]
    rw [before_nil, moreArguments, bind_of_ok (tryPunctuation_of_not hcomma)]
    rfl

theorem readsMoreArguments_cons {comma : Token} {tree : Expr} {trees : List Expr}
    {tokens more : List Token} (hcomma : comma.kind = .symbol .comma)
    (htree : ReadsAt 0 tree tokens) (htrees : ReadsMoreArguments trees more) :
    ReadsMoreArguments (tree :: trees) (comma :: (tokens ++ more)) where
  stops cursor hclosing := extendsExpression_of_kind hcomma (by decide)
  reads fuel cursor hclosing hfuel := by
    simp only [List.length_append, List.length_cons] at hfuel
    obtain ⟨fuel, rfl⟩ : ∃ more, fuel = more + 1 := ⟨fuel - 1, by omega⟩
    have hfirst := htree.expression fuel _ (htrees.stops cursor hclosing) (by omega)
    have hrest := htrees.reads fuel cursor hclosing (by omega)
    rw [moreArguments, bind_of_ok (tryPunctuation_before hcomma), if_pos rfl, before_append,
      bind_of_ok hfirst, bind_of_ok hrest]
    rfl

theorem readsArguments_nil : ReadsArguments [] [] := by
  intro fuel cursor hclosing hfuel
  obtain ⟨fuel, rfl⟩ : ∃ more, fuel = more + 1 := ⟨fuel - 1, by omega⟩
  rw [before_nil, arguments, bind_of_ok (peek_apply _), if_pos (by simp [Token.isSymbol, hclosing])]
  rfl

theorem readsArguments_cons {tree : Expr} {trees : List Expr} {tokens more : List Token}
    (htree : ReadsAt 0 tree tokens) (htrees : ReadsMoreArguments trees more) :
    ReadsArguments (tree :: trees) (tokens ++ more) := by
  intro fuel cursor hclosing hfuel
  rw [List.length_append] at hfuel
  obtain ⟨fuel, rfl⟩ : ∃ more, fuel = more + 1 := ⟨fuel - 1, by omega⟩
  have hpos := htree.starts.length_pos
  have hfirst := htree.expression fuel _ (htrees.stops cursor hclosing) (by omega)
  have hrest := htrees.reads fuel cursor hclosing (by omega)
  have hhead : ((cursor.before more).before tokens).head.isSymbol .closeParen = false := by
    obtain ⟨first, rest, rfl, hstarts⟩ := htree.starts
    rw [head_before_cons, Token.isSymbol, decide_eq_false_iff_not]
    intro hkind
    simp [Token.startsExpression, hkind] at hstarts
  rw [before_append, arguments, bind_of_ok (peek_apply _), if_neg (by simp [hhead]),
    bind_of_ok hfirst, bind_of_ok hrest]
  rfl

theorem readsAt_call {callee : Expr} {arguments : List Expr} {opening closing : Token}
    {tokens argumentTokens : List Token} (hcallee : ReadsAt 8 callee tokens)
    (hopening : opening.kind = .symbol .openParen)
    (harguments : ReadsArguments arguments argumentTokens)
    (hclosing : closing.kind = .symbol .closeParen) :
    ReadsAt 8 (.call opening.line callee arguments)
      (tokens ++ opening :: (argumentTokens ++ [closing])) := by
  refine readsAt_suffix hcallee (by simp [Token.isSymbol, hopening]) ?_
  intro fuel cursor hfuel
  rw [List.length_append] at hfuel
  have hinner := harguments fuel (cursor.before [closing]) hclosing (by omega)
  rw [suffixes, bind_of_ok (peek_apply _), head_before_cons, hopening]
  dsimp only
  rw [bind_of_ok next_before, before_append, bind_of_ok hinner,
    bind_of_ok (expectSymbol_before hclosing), before_nil]

end Parser

end Tide
