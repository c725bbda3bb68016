import Tide.Proofs.Grammar.Reading
import Tide.Proofs.Text.Words
import Tide.Proofs.Token.Lexeme
import Tide.Proofs.Tree.Occurrence

/-!
# Expressions with the fewest parentheses

An expression is written with parentheses around those operands only whose level is too low for
their place.  Reading the tokens gives the expression back and stops behind them.

The tokens are given by their spellings, so that nothing depends on how they are spread over lines;
the lines of the tree that is read are those of the tokens.
-/

namespace Tide

namespace Expr

/-! ## Trees without their lines -/

mutual

/-- The tree with every node on the same line. -/
def onLine (line : Nat) : Expr → Expr
  | literal _ value => literal line value
  | name _ text => name line text
  | unary _ operator operand => unary line operator (operand.onLine line)
  | binary _ operator left right => binary line operator (left.onLine line) (right.onLine line)
  | ternary _ condition positive negative =>
    ternary line (condition.onLine line) (positive.onLine line) (negative.onLine line)
  | call _ callee arguments => call line (callee.onLine line) (onLineAll line arguments)
  | index _ target place => index line (target.onLine line) (place.onLine line)
  | member _ target field => member line (target.onLine line) field

def onLineAll (line : Nat) : List Expr → List Expr
  | [] => []
  | tree :: trees => tree.onLine line :: onLineAll line trees

end

/-- The trees differ at most in the lines of their nodes. -/
def SameUpToLines (left right : Expr) : Prop := left.onLine 0 = right.onLine 0

end Expr

/-! ## Spellings -/

namespace Spelling

def sign (symbol : Symbol) : Spelling := ⟨.symbol symbol, symbol.text⟩

def identifier (text : String) : Spelling := ⟨.identifier, text⟩

/-- Identifiers with `::` between two. -/
def qualified (names : List String) : List Spelling :=
  [sign .doubleColon].intercalate (names.map ([identifier ·]))

/-- What stands in parentheses. -/
def parenthesized (spellings : List Spelling) : List Spelling :=
  sign .openParen :: (spellings ++ [sign .closeParen])

/-- An operand of some level in a place that requires one. -/
def grouped (required level : Nat) (spellings : List Spelling) : List Spelling :=
  if level < required then parenthesized spellings else spellings

end Spelling

def UnaryOp.sign : UnaryOp → Symbol
  | negate => .minus
  | complement => .bang

def BinaryOp.sign : BinaryOp → Symbol
  | logicalOr => .logicalOr
  | logicalAnd => .logicalAnd
  | equals => .doubleEquals
  | notEquals => .notEquals
  | lessThan => .lessThan
  | greaterThan => .greaterThan
  | lessOrEqual => .lessOrEqual
  | greaterOrEqual => .greaterOrEqual
  | add => .plus
  | subtract => .minus
  | multiply => .asterisk
  | divide => .divide
  | modulus => .modulus

namespace Expr

def level : Expr → Nat
  | ternary _ _ _ _ => 0
  | binary _ operator _ _ => operator.precedence
  | unary _ _ _ => 7
  | _ => 8

/-- The identifiers in a name. -/
def nameParts (name : String) : List String :=
  ((Text.split (· == ':') name.toList).filter (!·.isEmpty)).map String.ofList

mutual

/-- The expression with the fewest parentheses, where `numeral` says how numbers are written. -/
def spellings (numeral : Number → String) : Expr → List Spelling
  | literal _ (.number value) => [⟨.number, numeral value⟩]
  | literal _ (.string text) => [⟨.string, text⟩]
  | literal _ (.boolean true) => [⟨.keyword .trueWord, "true"⟩]
  | literal _ (.boolean false) => [⟨.keyword .falseWord, "false"⟩]
  | name _ text => Spelling.qualified (nameParts text)
  | unary _ operator operand =>
    .sign operator.sign :: Spelling.grouped 7 operand.level (operand.spellings numeral)
  | binary _ operator left right =>
    Spelling.grouped operator.precedence left.level (left.spellings numeral) ++
      .sign operator.sign ::
        Spelling.grouped (operator.precedence + 1) right.level (right.spellings numeral)
  | ternary _ condition positive negative =>
    Spelling.grouped 1 condition.level (condition.spellings numeral) ++
      .sign .question :: (positive.spellings numeral ++
        .sign .colon :: negative.spellings numeral)
  | call _ callee arguments =>
    Spelling.grouped 8 callee.level (callee.spellings numeral) ++
      Spelling.parenthesized ([.sign .comma].intercalate (spellingsAll numeral arguments))
  | index _ target place =>
    Spelling.grouped 8 target.level (target.spellings numeral) ++
      .sign .openBracket :: (place.spellings numeral ++ [.sign .closeBracket])
  | member _ target field =>
    Spelling.grouped 8 target.level (target.spellings numeral) ++
      [.sign .dot, .identifier field]

def spellingsAll (numeral : Number → String) : List Expr → List (List Spelling)
  | [] => []
  | tree :: trees => tree.spellings numeral :: spellingsAll numeral trees

end

end Expr

namespace Parser

/-! ## Rules for spellings -/

/-- On whatever lines the tokens stand, they are read as the tree up to its lines. -/
def SpelledAt (level : Nat) (tree : Expr) (spellings : List Spelling) : Prop :=
  ∀ tokens : List Token, tokens.map Token.spelling = spellings →
    ∃ read : Expr, read.SameUpToLines tree ∧ ReadsAt level read tokens

theorem kind_of_spelling {token : Token} {spelling : Spelling}
    (hspelling : token.spelling = spelling) : token.kind = spelling.kind :=
  congrArg Spelling.kind hspelling

theorem text_of_spelling {token : Token} {spelling : Spelling}
    (hspelling : token.spelling = spelling) : token.text = spelling.text :=
  congrArg Spelling.text hspelling

theorem binaryOp?_of_spelling {token : Token} {operator : BinaryOp}
    (hspelling : token.spelling = .sign operator.sign) : token.binaryOp? = some operator := by
  have hkind := kind_of_spelling hspelling
  cases operator <;> simp [Token.binaryOp?, hkind, BinaryOp.sign, Spelling.sign]

theorem unaryOp?_of_spelling {token : Token} {operator : UnaryOp}
    (hspelling : token.spelling = .sign operator.sign) : token.unaryOp? = some operator := by
  have hkind := kind_of_spelling hspelling
  cases operator <;> simp [Token.unaryOp?, hkind, UnaryOp.sign, Spelling.sign]

section

variable {line level : Nat} {tree left right : Expr}
  {spellings leftSpellings rightSpellings : List Spelling}

theorem SpelledAt.mono (hspelled : SpelledAt level tree spellings) {lower : Nat}
    (hlower : lower ≤ level) : SpelledAt lower tree spellings := by
  intro tokens htokens
  obtain ⟨read, hread, hreads⟩ := hspelled tokens htokens
  exact ⟨read, hread, hreads.mono hlower⟩

theorem spelledAt_number {value : Number} {text : String}
    (hvalue : Number.ofText? text.toList = some value) :
    SpelledAt 8 (.literal line (.number value)) [⟨.number, text⟩] := by
  intro tokens htokens
  obtain ⟨token, rfl, htoken⟩ := List.map_eq_singleton_iff.mp htokens
  cases text_of_spelling htoken
  refine ⟨_, ?_, readsAt_number (kind_of_spelling htoken) hvalue⟩
  rfl

theorem spelledAt_string {text : String} :
    SpelledAt 8 (.literal line (.string text)) [⟨.string, text⟩] := by
  intro tokens htokens
  obtain ⟨token, rfl, htoken⟩ := List.map_eq_singleton_iff.mp htokens
  cases text_of_spelling htoken
  refine ⟨_, ?_, readsAt_string (kind_of_spelling htoken)⟩
  rfl

theorem spelledAt_boolean (value : Bool) {text : String} :
    SpelledAt 8 (.literal line (.boolean value))
      [⟨.keyword (if value then .trueWord else .falseWord), text⟩] := by
  intro tokens htokens
  obtain ⟨token, rfl, htoken⟩ := List.map_eq_singleton_iff.mp htokens
  refine ⟨_, ?_, readsAt_boolean value (kind_of_spelling htoken)⟩
  rfl

theorem spelledAt_parenthesized (htree : SpelledAt 0 tree spellings) :
    SpelledAt 8 tree (Spelling.parenthesized spellings) := by
  intro tokens htokens
  obtain ⟨opening, rest, rfl, hopening, hrest⟩ := List.map_eq_cons_iff.mp htokens
  obtain ⟨inside, last, rfl, hinside, hlast⟩ := List.map_eq_append_iff.mp hrest
  obtain ⟨closing, rfl, hclosing⟩ := List.map_eq_singleton_iff.mp hlast
  obtain ⟨read, hread, hreads⟩ := htree inside hinside
  exact ⟨read, hread,
    readsAt_group (kind_of_spelling hopening) hreads (kind_of_spelling hclosing)⟩

/-- An operand of too low a level is fit for its place in parentheses. -/
theorem SpelledAt.grouped (htree : SpelledAt level tree spellings) {required : Nat}
    (hrequired : required ≤ 8) :
    SpelledAt required tree (Spelling.grouped required level spellings) := by
  unfold Spelling.grouped
  split
  case isTrue => exact (spelledAt_parenthesized (htree.mono (Nat.zero_le _))).mono hrequired
  case isFalse hlevel => exact htree.mono (Nat.le_of_not_lt hlevel)

theorem spelledAt_unary {operator : UnaryOp} (htree : SpelledAt 7 tree spellings) :
    SpelledAt 7 (.unary line operator tree) (.sign operator.sign :: spellings) := by
  intro tokens htokens
  obtain ⟨token, tokens, rfl, htoken, htokens⟩ := List.map_eq_cons_iff.mp htokens
  obtain ⟨read, hread, hreads⟩ := htree tokens htokens
  refine ⟨_, ?_, readsAt_unary (unaryOp?_of_spelling htoken) hreads⟩
  exact congrArg (Expr.unary 0 operator) hread

/-- Operators group to the left, so the right operand binds tighter. -/
theorem spelledAt_binary {operator : BinaryOp}
    (hleft : SpelledAt operator.precedence left leftSpellings)
    (hright : SpelledAt (operator.precedence + 1) right rightSpellings) :
    SpelledAt operator.precedence (.binary line operator left right)
      (leftSpellings ++ .sign operator.sign :: rightSpellings) := by
  intro tokens htokens
  obtain ⟨leftTokens, tokens, rfl, hleftTokens, htokens⟩ := List.map_eq_append_iff.mp htokens
  obtain ⟨token, rightTokens, rfl, htoken, hrightTokens⟩ := List.map_eq_cons_iff.mp htokens
  obtain ⟨readLeft, hreadLeft, hreadsLeft⟩ := hleft leftTokens hleftTokens
  obtain ⟨readRight, hreadRight, hreadsRight⟩ := hright rightTokens hrightTokens
  refine ⟨_, ?_, readsAt_binary (binaryOp?_of_spelling htoken) hreadsLeft hreadsRight⟩
  exact congrArg₂ (Expr.binary 0 operator) hreadLeft hreadRight

theorem spelledAt_ternary {condition positive negative : Expr}
    {conditionSpellings positiveSpellings negativeSpellings : List Spelling}
    (hcondition : SpelledAt 1 condition conditionSpellings)
    (hpositive : SpelledAt 0 positive positiveSpellings)
    (hnegative : SpelledAt 0 negative negativeSpellings) :
    SpelledAt 0 (.ternary line condition positive negative)
      (conditionSpellings ++ .sign .question ::
        (positiveSpellings ++ .sign .colon :: negativeSpellings)) := by
  intro tokens htokens
  obtain ⟨conditionTokens, rest, rfl, hconditionTokens, hrest⟩ :=
    List.map_eq_append_iff.mp htokens
  obtain ⟨question, rest, rfl, hquestion, hbranches⟩ := List.map_eq_cons_iff.mp hrest
  obtain ⟨positiveTokens, rest, rfl, hpositiveTokens, hrest⟩ :=
    List.map_eq_append_iff.mp hbranches
  obtain ⟨colon, negativeTokens, rfl, hcolon, hnegativeTokens⟩ := List.map_eq_cons_iff.mp hrest
  obtain ⟨readCondition, hreadCondition, hreadsCondition⟩ := hcondition _ hconditionTokens
  obtain ⟨readPositive, hreadPositive, hreadsPositive⟩ := hpositive _ hpositiveTokens
  obtain ⟨readNegative, hreadNegative, hreadsNegative⟩ := hnegative _ hnegativeTokens
  refine ⟨_, ?_, readsAt_ternary (kind_of_spelling hquestion) (kind_of_spelling hcolon)
    hreadsCondition hreadsPositive hreadsNegative⟩
  simp only [Expr.SameUpToLines] at hreadCondition hreadPositive hreadNegative
  simp only [Expr.SameUpToLines, Expr.onLine, hreadCondition, hreadPositive, hreadNegative]

theorem qualifies_of_spellings {names : List String} {tokens : List Token}
    (htokens : tokens.map Token.spelling =
      names.flatMap fun name => [.sign .doubleColon, .identifier name]) :
    Qualifies names tokens := by
  induction names generalizing tokens with
  | nil =>
      rw [List.flatMap_nil, List.map_eq_nil_iff] at htokens
      rw [htokens]
      exact .nil
  | cons name names ih =>
      obtain ⟨separator, rest, rfl, hseparator, hrest⟩ := List.map_eq_cons_iff.mp htokens
      obtain ⟨token, rest, rfl, htoken, hnames⟩ := List.map_eq_cons_iff.mp hrest
      cases text_of_spelling htoken
      exact .cons (kind_of_spelling hseparator) (kind_of_spelling htoken) (ih hnames)

theorem intercalate_cons {α : Type} (separator piece : List α) (pieces : List (List α)) :
    separator.intercalate (piece :: pieces) = piece ++ pieces.flatMap (separator ++ ·) := by
  induction pieces generalizing piece with
  | nil => simp
  | cons next pieces ih =>
      simp only [List.intercalate_cons_cons, ih, List.flatMap_cons, List.append_assoc]

theorem spelledAt_name {first : String} {names : List String} :
    SpelledAt 8 (.name line ("::".intercalate (first :: names)))
      (Spelling.qualified (first :: names)) := by
  intro tokens htokens
  rw [Spelling.qualified, List.map_cons, intercalate_cons, List.flatMap_map] at htokens
  obtain ⟨token, rest, rfl, htoken, hrest⟩ := List.map_eq_cons_iff.mp htokens
  cases text_of_spelling htoken
  refine ⟨_, ?_, readsAt_name (kind_of_spelling htoken) (qualifies_of_spellings hrest)⟩
  rfl

theorem spelledAt_member {field : String} (htree : SpelledAt 8 tree spellings) :
    SpelledAt 8 (.member line tree field) (spellings ++ [.sign .dot, .identifier field]) := by
  intro tokens htokens
  obtain ⟨targetTokens, rest, rfl, htarget, hrest⟩ := List.map_eq_append_iff.mp htokens
  obtain ⟨dot, rest, rfl, hdot, hrest⟩ := List.map_eq_cons_iff.mp hrest
  obtain ⟨name, rfl, hname⟩ := List.map_eq_singleton_iff.mp hrest
  cases text_of_spelling hname
  obtain ⟨read, hread, hreads⟩ := htree targetTokens htarget
  refine ⟨_, ?_, readsAt_member hreads (kind_of_spelling hdot) (kind_of_spelling hname)⟩
  exact congrArg (Expr.member 0 · name.text) hread

theorem spelledAt_index {place : Expr} {placeSpellings : List Spelling}
    (htree : SpelledAt 8 tree spellings) (hplace : SpelledAt 0 place placeSpellings) :
    SpelledAt 8 (.index line tree place)
      (spellings ++ .sign .openBracket :: (placeSpellings ++ [.sign .closeBracket])) := by
  intro tokens htokens
  obtain ⟨targetTokens, rest, rfl, htarget, hrest⟩ := List.map_eq_append_iff.mp htokens
  obtain ⟨opening, rest, rfl, hopening, hrest⟩ := List.map_eq_cons_iff.mp hrest
  obtain ⟨placeTokens, last, rfl, hplaceTokens, hlast⟩ := List.map_eq_append_iff.mp hrest
  obtain ⟨closing, rfl, hclosing⟩ := List.map_eq_singleton_iff.mp hlast
  obtain ⟨read, hread, hreads⟩ := htree targetTokens htarget
  obtain ⟨readPlace, hreadPlace, hreadsPlace⟩ := hplace placeTokens hplaceTokens
  refine ⟨_, ?_, readsAt_index hreads (kind_of_spelling hopening) hreadsPlace
    (kind_of_spelling hclosing)⟩
  exact congrArg₂ (Expr.index 0) hread hreadPlace

theorem exists_readsMoreArguments {trees : List Expr} {pieces : List (List Spelling)}
    (htrees : List.Forall₂ (SpelledAt 0) trees pieces) {tokens : List Token}
    (htokens : tokens.map Token.spelling = pieces.flatMap ([.sign .comma] ++ ·)) :
    ∃ reads, List.Forall₂ Expr.SameUpToLines reads trees ∧ ReadsMoreArguments reads tokens := by
  induction htrees generalizing tokens with
  | nil =>
      rw [List.flatMap_nil, List.map_eq_nil_iff] at htokens
      rw [htokens]
      exact ⟨[], .nil, readsMoreArguments_nil⟩
  | cons htree htrees ih =>
      obtain ⟨comma, rest, rfl, hcomma, hrest⟩ := List.map_eq_cons_iff.mp htokens
      obtain ⟨treeTokens, rest, rfl, htreeTokens, hrest⟩ := List.map_eq_append_iff.mp hrest
      obtain ⟨read, hread, hreads⟩ := htree treeTokens htreeTokens
      obtain ⟨reads, hsame, hmore⟩ := ih hrest
      exact ⟨read :: reads, .cons hread hsame,
        readsMoreArguments_cons (kind_of_spelling hcomma) hreads hmore⟩

theorem exists_readsArguments {trees : List Expr} {pieces : List (List Spelling)}
    (htrees : List.Forall₂ (SpelledAt 0) trees pieces) {tokens : List Token}
    (htokens : tokens.map Token.spelling = [Spelling.sign .comma].intercalate pieces) :
    ∃ reads, List.Forall₂ Expr.SameUpToLines reads trees ∧ ReadsArguments reads tokens := by
  cases htrees with
  | nil =>
      rw [List.intercalate_nil, List.map_eq_nil_iff] at htokens
      rw [htokens]
      exact ⟨[], .nil, readsArguments_nil⟩
  | cons htree htrees =>
      rw [intercalate_cons] at htokens
      obtain ⟨treeTokens, rest, rfl, htreeTokens, hrest⟩ := List.map_eq_append_iff.mp htokens
      obtain ⟨read, hread, hreads⟩ := htree treeTokens htreeTokens
      obtain ⟨reads, hsame, hmore⟩ := exists_readsMoreArguments htrees hrest
      exact ⟨read :: reads, .cons hread hsame, readsArguments_cons hreads hmore⟩

theorem onLineAll_eq_of_forall₂ {reads trees : List Expr}
    (hsame : List.Forall₂ Expr.SameUpToLines reads trees) :
    Expr.onLineAll 0 reads = Expr.onLineAll 0 trees := by
  induction hsame with
  | nil => rfl
  | cons hhead htail ih => exact congrArg₂ List.cons hhead ih

theorem spelledAt_call {arguments : List Expr} {pieces : List (List Spelling)}
    (htree : SpelledAt 8 tree spellings)
    (harguments : List.Forall₂ (SpelledAt 0) arguments pieces) :
    SpelledAt 8 (.call line tree arguments)
      (spellings ++ Spelling.parenthesized ([Spelling.sign .comma].intercalate pieces)) := by
  intro tokens htokens
  obtain ⟨calleeTokens, rest, rfl, hcallee, hrest⟩ := List.map_eq_append_iff.mp htokens
  obtain ⟨opening, rest, rfl, hopening, hrest⟩ := List.map_eq_cons_iff.mp hrest
  obtain ⟨argumentTokens, last, rfl, hargumentTokens, hlast⟩ := List.map_eq_append_iff.mp hrest
  obtain ⟨closing, rfl, hclosing⟩ := List.map_eq_singleton_iff.mp hlast
  obtain ⟨read, hread, hreads⟩ := htree calleeTokens hcallee
  obtain ⟨reads, hsame, hreadsArguments⟩ := exists_readsArguments harguments hargumentTokens
  refine ⟨_, ?_, readsAt_call hreads (kind_of_spelling hopening) hreadsArguments
    (kind_of_spelling hclosing)⟩
  exact congrArg₂ (Expr.call 0) hread (onLineAll_eq_of_forall₂ hsame)

end

end Parser

/-! ## Names -/

namespace Lexeme

/-- A word that is not reserved. -/
def isIdentifier (text : String) : Bool :=
  isWord text.toList && (Keyword.ofText? text).isNone

/-- Identifiers joined by `::`. -/
def IsName (text : String) : Prop :=
  ∃ first names, (∀ name ∈ first :: names, isIdentifier name = true) ∧
    text = "::".intercalate (first :: names)

end Lexeme

namespace Text

variable {isCut : Char → Bool}

theorem filter_split_intercalate {cut : Char} (hcut : isCut cut = true) {pieces : List (List Char)}
    (hpieces : ∀ piece ∈ pieces, piece ≠ [] ∧ ∀ char ∈ piece, isCut char = false) :
    (split isCut ([cut, cut].intercalate pieces)).filter (!·.isEmpty) = pieces := by
  induction pieces with
  | nil => rfl
  | cons piece pieces ih =>
      obtain ⟨hne, hpiece⟩ := hpieces piece (by simp)
      cases pieces with
      | nil =>
          rw [List.intercalate_singleton, split_eq_splitOnP, List.splitOnP_eq_singleton hpiece]
          simp [hne]
      | cons next pieces =>
          have hrest := ih fun other hother => hpieces other (by simp [hother])
          rw [List.intercalate_cons_cons, List.append_assoc, List.cons_append, List.cons_append,
            List.nil_append, split_append hcut, split, if_pos hcut, split_eq_splitOnP isCut piece,
            List.splitOnP_eq_singleton hpiece]
          simp [hne, hrest]

end Text

namespace Expr

theorem nameParts_intercalate {names : List String}
    (hnames : ∀ name ∈ names, Lexeme.isIdentifier name = true) :
    nameParts ("::".intercalate names) = names := by
  have hpieces : ∀ piece ∈ names.map String.toList,
      piece ≠ [] ∧ ∀ char ∈ piece, (char == ':') = false := by
    intro piece hpiece
    obtain ⟨name, hname, rfl⟩ := List.mem_map.mp hpiece
    have hword := (Bool.and_eq_true_iff.mp (hnames name hname)).1
    refine ⟨?_, fun char hchar => ?_⟩
    · obtain ⟨char, more, hcons, -⟩ := Lexeme.exists_cons_of_isWord hword
      rw [hcons]
      exact List.cons_ne_nil char more
    · rw [beq_eq_false_iff_ne]
      rintro rfl
      exact Lexeme.not_mem_of_isWord hword (by decide) hchar
  rw [nameParts, String.toList_intercalate]
  have hsplit : (Text.split (· == ':') ("::".toList.intercalate (names.map String.toList))).filter
      (!·.isEmpty) = names.map String.toList :=
    Text.filter_split_intercalate rfl hpieces
  rw [hsplit, List.map_map]
  exact List.map_id'' (fun name => String.ofList_toList) names

/-! ## Reading what is written -/

/-- The number or name in this node can be written. -/
def IsWritable (numeral : Number → String) : Expr → Prop
  | literal _ (.number value) => Number.ofText? (numeral value).toList = some value
  | name _ text => Lexeme.IsName text
  | _ => True

theorem mem_subterms_of_mem_argument {line : Nat} {callee argument node : Expr}
    {arguments : List Expr} (hargument : argument ∈ arguments) (hnode : node ∈ argument.subterms) :
    node ∈ (call line callee arguments).subterms := by
  simp only [subterms, subtermsAll_eq_flatMap, List.mem_cons, List.mem_append, List.mem_flatMap]
  exact .inr (.inr ⟨argument, hargument, hnode⟩)

theorem forall₂_spellingsAll {numeral : Number → String} {trees : List Expr}
    (htrees : ∀ tree ∈ trees, Parser.SpelledAt 0 tree (tree.spellings numeral)) :
    List.Forall₂ (Parser.SpelledAt 0) trees (spellingsAll numeral trees) := by
  induction trees with
  | nil => exact .nil
  | cons tree trees ih =>
      exact .cons (htrees tree (by simp)) (ih fun other hother => htrees other (by simp [hother]))

/-- By induction on the tree: each operand is spelt for its place. -/
theorem spelledAt_spellings {numeral : Number → String} (tree : Expr)
    (htree : ∀ node ∈ tree.subterms, node.IsWritable numeral) :
    Parser.SpelledAt tree.level tree (tree.spellings numeral) := by
  -- A child below the level required stands in parentheses, and these reach every level.
  induction tree with
  | literal line value =>
      have hvalue := htree _ (mem_subterms_self _)
      match value with
      | .number value => exact Parser.spelledAt_number hvalue
      | .string text => exact Parser.spelledAt_string
      | .boolean true => exact Parser.spelledAt_boolean true
      | .boolean false => exact Parser.spelledAt_boolean false
  | name line text =>
      obtain ⟨first, names, hnames, rfl⟩ : Lexeme.IsName text := htree _ (mem_subterms_self _)
      rw [spellings, nameParts_intercalate hnames]
      exact Parser.spelledAt_name
  | unary line operator operand ih =>
      have hoperand := ih fun node hnode => htree node (by simp [subterms, hnode])
      exact Parser.spelledAt_unary (hoperand.grouped (by omega))
  | binary line operator left right ihLeft ihRight =>
      have hleft := ihLeft fun node hnode => htree node (by simp [subterms, hnode])
      have hright := ihRight fun node hnode => htree node (by simp [subterms, hnode])
      have hprecedence := Parser.precedence_lt operator
      exact Parser.spelledAt_binary (hleft.grouped (by omega)) (hright.grouped (by omega))
  | ternary line condition positive negative ihCondition ihPositive ihNegative =>
      have hcondition := ihCondition fun node hnode => htree node (by simp [subterms, hnode])
      have hpositive := ihPositive fun node hnode => htree node (by simp [subterms, hnode])
      have hnegative := ihNegative fun node hnode => htree node (by simp [subterms, hnode])
      exact Parser.spelledAt_ternary (hcondition.grouped (by omega))
        (hpositive.mono (Nat.zero_le _)) (hnegative.mono (Nat.zero_le _))
  | call line callee arguments ihCallee ihArguments =>
      have hcallee := ihCallee fun node hnode => htree node (by simp [subterms, hnode])
      have harguments : ∀ argument ∈ arguments,
          Parser.SpelledAt 0 argument (argument.spellings numeral) := by
        intro argument hargument
        refine (ihArguments argument hargument fun node hnode => htree node ?_).mono (Nat.zero_le _)
        exact mem_subterms_of_mem_argument hargument hnode
      exact Parser.spelledAt_call (hcallee.grouped le_rfl) (forall₂_spellingsAll harguments)
  | index line target place ihTarget ihPlace =>
      have htarget := ihTarget fun node hnode => htree node (by simp [subterms, hnode])
      have hplace := ihPlace fun node hnode => htree node (by simp [subterms, hnode])
      exact Parser.spelledAt_index (htarget.grouped le_rfl) (hplace.mono (Nat.zero_le _))
  | member line target field ih =>
      have htarget := ih fun node hnode => htree node (by simp [subterms, hnode])
      exact Parser.spelledAt_member (htarget.grouped le_rfl)

/-- Reading an expression that is written with the fewest parentheses gives it back, up to the lines
of its nodes, and stops before the first token that is not part of it.  Any bound on nesting will do
that allows sixteen steps for each token, as the one a cursor starts with does. -/
theorem expression_reads_spellings (numeral : Number → String) (tree : Expr)
    (htree : ∀ node ∈ tree.subterms, node.IsWritable numeral) {tokens rest : List Token}
    {finish : Token} {notes : List Note}
    (htokens : tokens.map Token.spelling = tree.spellings numeral)
    (hrest : (rest.headD finish).extendsExpression = false) :
    ∃ read : Expr, read.SameUpToLines tree ∧
      ∀ fuel, 16 * tokens.length ≤ fuel →
        Parser.expression fuel ⟨tokens ++ rest, finish, notes⟩ =
          .ok read ⟨rest, finish, notes⟩ := by
  obtain ⟨read, hread, hreads⟩ := spelledAt_spellings tree htree tokens htokens
  exact ⟨read, hread, fun fuel hfuel => hreads.expression fuel ⟨rest, finish, notes⟩ hrest hfuel⟩

theorem expression_reads_spellings_difference :
    let tokens : List Token :=
      [⟨.symbol .minus, "-", 1⟩, ⟨.identifier, "a", 1⟩, ⟨.symbol .question, "?", 1⟩,
        ⟨.identifier, "a", 1⟩, ⟨.symbol .minus, "-", 2⟩, ⟨.symbol .openParen, "(", 2⟩,
        ⟨.identifier, "b", 2⟩, ⟨.symbol .minus, "-", 2⟩, ⟨.number, "1", 2⟩,
        ⟨.symbol .closeParen, ")", 2⟩, ⟨.symbol .colon, ":", 3⟩, ⟨.identifier, "std", 3⟩,
        ⟨.symbol .doubleColon, "::", 3⟩, ⟨.identifier, "f", 3⟩, ⟨.symbol .openParen, "(", 3⟩,
        ⟨.identifier, "b", 3⟩, ⟨.symbol .closeParen, ")", 3⟩]
    ∃ read : Expr,
      read.SameUpToLines (.ternary 0 (.unary 0 .negate (.name 0 "a"))
        (.binary 0 .subtract (.name 0 "a")
          (.binary 0 .subtract (.name 0 "b") (.literal 0 (.number .one))))
        (.call 0 (.name 0 "std::f") [.name 0 "b"])) ∧
      ∀ fuel, 16 * tokens.length ≤ fuel →
        Parser.expression fuel ⟨tokens ++ [⟨.symbol .semicolon, ";", 3⟩], .finish 4, []⟩ =
          .ok read ⟨[⟨.symbol .semicolon, ";", 3⟩], .finish 4, []⟩ := by
  intro tokens
  refine expression_reads_spellings (fun _ => "1") _ ?_ rfl rfl
  have hone : Number.ofText? "1".toList = some .one := by decide +kernel
  have ha : Lexeme.IsName "a" := ⟨"a", [], by decide, by decide⟩
  have hb : Lexeme.IsName "b" := ⟨"b", [], by decide, by decide⟩
  have hf : Lexeme.IsName "std::f" := ⟨"std", ["f"], by decide, by decide⟩
  simpa [subterms, subtermsAll, IsWritable, ha, hb, hf] using hone

end Expr

end Tide
