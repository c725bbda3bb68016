import Tide.Proofs.Emit.Number
import Tide.Proofs.Grammar.Printing
import Tide.Proofs.Token.RawText

/-!
# Emitted expressions read back

The C++ text of an expression groups as its tree does: reading it with the rules of the language
itself gives the tree back, up to the few forms that C++ spells in another way.  Every operator is
in parentheses, so what is emitted is always a primary expression, and no piece of the text goes on
with the piece before it.
-/

namespace Tide

/-! ## Text read piece by piece -/

def Spelling.onLine (line : Nat) (spelling : Spelling) : Token :=
  ⟨spelling.kind, spelling.text, line⟩

namespace Token

/-- In front of `rest`, the text is read as tokens with these spellings, all on the line it starts
on. -/
def ScansBefore (rest text : List Char) (spellings : List Spelling) : Prop :=
  ∀ line, scanFrom line (text ++ rest) =
    (scanFrom line rest).map (spellings.map (·.onLine line) ++ ·)

section

variable {rest left right : List Char} {leftSpellings rightSpellings : List Spelling}

theorem ScansBefore.append (hleft : ScansBefore (right ++ rest) left leftSpellings)
    (hright : ScansBefore rest right rightSpellings) :
    ScansBefore rest (left ++ right) (leftSpellings ++ rightSpellings) := by
  intro line
  rw [List.append_assoc, hleft line, hright line]
  cases scanFrom line rest <;> simp [Except.map]

theorem scansBefore_lexeme {spelling : Spelling} {written : List Char}
    (hwritten : spelling.WrittenAs written) (hline : '\n' ∉ written)
    (hends : spelling.kind.endsBefore rest = true) : ScansBefore rest written [spelling] := by
  intro line
  rw [scanFrom_append line hwritten hends, List.count_eq_zero.mpr hline]
  rfl

theorem scansBefore_space : ScansBefore rest [' '] [] := by
  intro line
  rw [List.singleton_append, scanFrom_blank line (by decide)]
  cases hscan : scanFrom line rest <;> simp [Lexeme.lineFeed, hscan, Except.map]

theorem scansBefore_sign (sign : Symbol) (hends : rest.head?.all (!sign.joins ·) = true) :
    ScansBefore rest sign.text.toList [.sign sign] :=
  scansBefore_lexeme (.symbol sign) (by cases sign <;> decide) hends

/-- A sign that no other goes on with. -/
theorem scansBefore_alone (sign : Symbol)
    (hsign : sign ∈ [.openParen, .closeParen, .openBracket, .closeBracket, .comma, .dot, .question,
      .doubleColon]) : ScansBefore rest sign.text.toList [.sign sign] := by
  apply scansBefore_sign
  cases rest <;> simp [Symbol.joins_alone hsign]

/-- A sign with a space on either side. -/
theorem scansBefore_spaced (sign : Symbol) :
    ScansBefore rest (' ' :: (sign.text.toList ++ [' '])) [.sign sign] := by
  have hsign : ScansBefore ([' '] ++ rest) sign.text.toList [.sign sign] :=
    scansBefore_sign sign (by simp [Symbol.joins_space])
  exact scansBefore_space.append (hsign.append scansBefore_space)

/-- Pieces with a separator between two are read one after the other. -/
theorem scansBefore_intercalate {separator : List Char} {mark : List Spelling}
    (hseparator : ∀ more, ScansBefore more separator mark) {texts : List (List Char)}
    {pieces : List (List Spelling)}
    (hpieces : List.Forall₂ (fun text piece => ScansBefore rest text piece ∧
      ∀ more, ScansBefore (separator ++ more) text piece) texts pieces) :
    ScansBefore rest (separator.intercalate texts) (mark.intercalate pieces) := by
  induction hpieces with
  | nil =>
      intro line
      cases hscan : scanFrom line rest <;> simp [hscan, Except.map]
  | @cons text piece texts pieces hpiece hpieces ih =>
      cases hpieces with
      | nil => simpa using hpiece.1
      | @cons next nextPiece texts pieces =>
          have hlater := (hseparator _).append ih
          have hfirst := hpiece.2 (separator.intercalate (next :: texts) ++ rest)
          rw [← List.append_assoc] at hfirst
          simpa [List.intercalate_cons_cons] using hfirst.append hlater

end

end Token

/-- A list of tokens that was read has one finishing token, the last. -/
theorem Cursor.ofTokens_of_scan {source : String} {tokens : List Token} {line : Nat}
    (hscan : Token.scan source = .ok (tokens ++ [.finish line])) :
    ofTokens (tokens ++ [.finish line]) = ⟨tokens, .finish line, []⟩ := by
  have hkinds : ∀ token ∈ tokens, token.kind ≠ .finish := by
    intro token htoken
    have hlexemes := (Token.exists_writtenAs_of_scan hscan).2
    rw [List.dropLast_concat] at hlexemes
    obtain ⟨lexeme, hlexeme⟩ := hlexemes token htoken
    exact Token.kind_ne_finish hlexeme
  have htokens : (tokens ++ [Token.finish line]).takeWhile (·.kind != .finish) = tokens := by
    rw [List.takeWhile_append_of_pos fun token htoken => bne_iff_ne.mpr (hkinds token htoken)]
    exact List.append_nil tokens
  have hfinish : (tokens ++ [Token.finish line]).find? (·.kind == .finish) =
      some (.finish line) := by
    rw [List.find?_append, List.find?_eq_none.mpr fun token htoken => by simp [hkinds token htoken]]
    rfl
  rw [ofTokens, htokens, hfinish]

namespace Emit

/-- What may follow an emitted expression, or the first part of a name. -/
inductive Boundary : List Char → Prop
  | nil : Boundary []
  | sign (char : Char) (hchar : char ∈ [')', ']', '(', '[', ',', ' ', ':']) (rest : List Char) :
      Boundary (char :: rest)
  | member {first : Char} (hfirst : Lexeme.startsWord first = true) (rest : List Char) :
      Boundary ('.' :: first :: rest)

theorem Boundary.endsBefore {rest : List Char} (hrest : Boundary rest) {kind : TokenKind}
    (hkind : ∀ sign, kind ≠ .symbol sign) : kind.endsBefore rest = true := by
  cases hrest with
  | nil => exact kind.endsBefore_nil
  | sign char hchar rest =>
      simp only [List.mem_cons, List.not_mem_nil, or_false] at hchar
      cases kind with
      | symbol sign => exact absurd rfl (hkind sign)
      | _ => rcases hchar with rfl | rfl | rfl | rfl | rfl | rfl | rfl <;> rfl
  | member hfirst rest =>
      cases kind with
      | symbol sign => exact absurd rfl (hkind sign)
      | number =>
          -- A point goes on with a numeral, but only before a digit.
          have hpoint : Lexeme.isDigit '.' = false := by decide
          have hdigit := Lexeme.isDigit_of_startsWord hfirst
          simp [TokenKind.endsBefore, Lexeme.endsNumeral, hpoint, hdigit]
      | _ => rfl

/-- In front of whatever may follow an expression, the text is read as the tree. -/
def Emits (text : List Char) (tree : Expr) : Prop :=
  ∃ spellings, Parser.SpelledAt 8 tree spellings ∧
    ∀ rest, Boundary rest → Token.ScansBefore rest text spellings

theorem emits_lexeme {spelling : Spelling} {written : List Char} {tree : Expr}
    (hwritten : spelling.WrittenAs written) (hline : '\n' ∉ written)
    (hkind : ∀ sign, spelling.kind ≠ .symbol sign)
    (htree : Parser.SpelledAt 8 tree [spelling]) : Emits written tree :=
  ⟨[spelling], htree, fun _ hrest =>
    Token.scansBefore_lexeme hwritten hline (hrest.endsBefore hkind)⟩

theorem scansBefore_parenthesized {text rest : List Char} {spellings : List Spelling}
    (hscans : Token.ScansBefore (')' :: rest) text spellings) :
    Token.ScansBefore rest ('(' :: (text ++ [')'])) (Spelling.parenthesized spellings) := by
  have hclosing : Token.ScansBefore rest [')'] [.sign .closeParen] :=
    Token.scansBefore_alone .closeParen (by decide)
  have hopening : Token.ScansBefore (text ++ [')'] ++ rest) ['('] [.sign .openParen] :=
    Token.scansBefore_alone .openParen (by decide)
  have hinside : Token.ScansBefore ([')'] ++ rest) text spellings := hscans
  exact hopening.append (hinside.append hclosing)

/-- What stands in parentheses may be an expression of any level. -/
theorem emits_parenthesized {text : List Char} {tree : Expr} {spellings : List Spelling}
    (htree : Parser.SpelledAt 0 tree spellings)
    (hscans : ∀ rest, Token.ScansBefore (')' :: rest) text spellings) :
    Emits ('(' :: (text ++ [')'])) tree :=
  ⟨_, Parser.spelledAt_parenthesized htree, fun rest _ => scansBefore_parenthesized (hscans rest)⟩

/-! ## Forms of expressions -/

/-- The text starts with what no sign goes on with. -/
def StartsOperand (text : List Char) : Prop :=
  ∃ first more, text = first :: more ∧ (first = '(' ∨ Lexeme.continuesWord first = true)

section

variable (line : Nat) {tree left right : Expr} {text leftText rightText : List Char}

theorem emits_unary (operator : UnaryOp) (htree : Emits text tree) (hstarts : StartsOperand text) :
    Emits ('(' :: (operator.sign.text.toList ++ text ++ [')'])) (.unary line operator tree) := by
  obtain ⟨spellings, hspelled, hscans⟩ := htree
  refine emits_parenthesized
    ((Parser.spelledAt_unary (hspelled.mono (by decide))).mono (Nat.zero_le _)) ?_
  intro rest
  obtain ⟨first, more, rfl, hfirst⟩ := hstarts
  have hsign : Token.ScansBefore (first :: more ++ ')' :: rest) operator.sign.text.toList
      [.sign operator.sign] :=
    Token.scansBefore_sign _ (by simp [Symbol.joins_operand hfirst])
  exact hsign.append (hscans _ (.sign ')' (by decide) rest))

theorem emits_binary (operator : BinaryOp) (hleft : Emits leftText left)
    (hright : Emits rightText right) :
    Emits ('(' :: (leftText ++ (' ' :: (operator.sign.text.toList ++ [' ']) ++ rightText) ++ [')']))
      (.binary line operator left right) := by
  obtain ⟨leftSpellings, hspelledLeft, hscansLeft⟩ := hleft
  obtain ⟨rightSpellings, hspelledRight, hscansRight⟩ := hright
  have hlevel := Parser.precedence_lt operator
  refine emits_parenthesized ((Parser.spelledAt_binary (hspelledLeft.mono (by omega))
    (hspelledRight.mono (by omega))).mono (Nat.zero_le _)) ?_
  intro rest
  have hoperator := (Token.scansBefore_spaced operator.sign).append
    (hscansRight _ (.sign ')' (by decide) rest))
  exact (hscansLeft _ (.sign ' ' (by decide) _)).append hoperator

theorem emits_ternary {condition positive negative : Expr}
    {conditionText positiveText negativeText : List Char}
    (hcondition : Emits conditionText condition)
    (hpositive : Emits positiveText positive) (hnegative : Emits negativeText negative) :
    Emits ('(' :: (conditionText ++ ([' ', '?', ' '] ++ (positiveText ++
        ([' ', ':', ' '] ++ negativeText))) ++ [')']))
      (.ternary line condition positive negative) := by
  obtain ⟨conditionSpellings, hspelledCondition, hscansCondition⟩ := hcondition
  obtain ⟨positiveSpellings, hspelledPositive, hscansPositive⟩ := hpositive
  obtain ⟨negativeSpellings, hspelledNegative, hscansNegative⟩ := hnegative
  refine emits_parenthesized (Parser.spelledAt_ternary (hspelledCondition.mono (by decide))
    (hspelledPositive.mono (Nat.zero_le _)) (hspelledNegative.mono (Nat.zero_le _))) ?_
  intro rest
  have hcolon := (Token.scansBefore_spaced .colon).append
    (hscansNegative _ (.sign ')' (by decide) rest))
  have hbranches := (hscansPositive _ (.sign ' ' (by decide) _)).append hcolon
  have hquestion := (Token.scansBefore_spaced .question).append hbranches
  exact (hscansCondition _ (.sign ' ' (by decide) _)).append hquestion

theorem emits_index (hleft : Emits leftText left) (hright : Emits rightText right) :
    Emits (leftText ++ '[' :: (rightText ++ [']'])) (.index line left right) := by
  obtain ⟨leftSpellings, hspelledLeft, hscansLeft⟩ := hleft
  obtain ⟨rightSpellings, hspelledRight, hscansRight⟩ := hright
  refine ⟨_, Parser.spelledAt_index hspelledLeft (hspelledRight.mono (Nat.zero_le _)), ?_⟩
  intro rest _
  have hclosing : Token.ScansBefore rest [']'] [.sign .closeBracket] :=
    Token.scansBefore_alone .closeBracket (by decide)
  have hinside := (hscansRight _ (.sign ']' (by decide) rest)).append hclosing
  have hopening : Token.ScansBefore (rightText ++ [']'] ++ rest) ['['] [.sign .openBracket] :=
    Token.scansBefore_alone .openBracket (by decide)
  exact (hscansLeft _ (.sign '[' (by decide) _)).append (hopening.append hinside)

theorem scansBefore_identifier {name : String} (hname : Lexeme.isIdentifier name = true)
    {rest : List Char} (hrest : Boundary rest) :
    Token.ScansBefore rest name.toList [.identifier name] := by
  obtain ⟨hword, hfree⟩ := Bool.and_eq_true_iff.mp hname
  rw [Option.isNone_iff_eq_none] at hfree
  exact Token.scansBefore_lexeme (.identifier hword hfree)
    (Lexeme.not_mem_of_isWord hword (by decide)) (hrest.endsBefore nofun)

theorem emits_member {field : String} (htree : Emits text tree)
    (hfield : Lexeme.isIdentifier field = true) :
    Emits (text ++ '.' :: field.toList) (.member line tree field) := by
  obtain ⟨spellings, hspelled, hscans⟩ := htree
  refine ⟨_, Parser.spelledAt_member hspelled, fun rest hrest => ?_⟩
  have hname := scansBefore_identifier hfield hrest
  have hdot : Token.ScansBefore (field.toList ++ rest) ['.'] [.sign .dot] :=
    Token.scansBefore_alone .dot (by decide)
  refine (hscans _ ?_).append (hdot.append hname)
  obtain ⟨first, more, hcons, hfirst⟩ :=
    Lexeme.exists_cons_of_isWord (Bool.and_eq_true_iff.mp hfield).1
  rw [hcons]
  exact .member hfirst _

theorem emits_name {name : String} (hname : Lexeme.IsName name) :
    Emits name.toList (.name line name) := by
  obtain ⟨first, names, hnames, rfl⟩ := hname
  refine ⟨_, Parser.spelledAt_name, fun rest hrest => ?_⟩
  rw [String.toList_intercalate, Spelling.qualified]
  refine Token.scansBefore_intercalate
    (fun more => Token.scansBefore_alone .doubleColon (by decide)) ?_
  rw [List.forall₂_map_left_iff, List.forall₂_map_right_iff, List.forall₂_same]
  intro name hname
  have hidentifier := hnames name hname
  exact ⟨scansBefore_identifier hidentifier hrest,
    fun more => scansBefore_identifier hidentifier (.sign ':' (by decide) _)⟩

/-- The arguments of a call, with a comma and a space between two. -/
theorem scansBefore_arguments {trees : List Expr} {texts : List (List Char)}
    (htrees : List.Forall₂ Emits texts trees) :
    ∃ pieces, List.Forall₂ (Parser.SpelledAt 0) trees pieces ∧
      ∀ rest, Token.ScansBefore (')' :: rest) ([',', ' '].intercalate texts)
        ([Spelling.sign .comma].intercalate pieces) := by
  have hpieces : ∃ pieces, List.Forall₂ (Parser.SpelledAt 0) trees pieces ∧
      List.Forall₂ (fun text piece => ∀ rest, Boundary rest → Token.ScansBefore rest text piece)
        texts pieces := by
    induction htrees with
    | nil => exact ⟨[], .nil, .nil⟩
    | cons htree htrees ih =>
        obtain ⟨spellings, hspelled, hscans⟩ := htree
        obtain ⟨pieces, hpieces, hscansPieces⟩ := ih
        exact ⟨spellings :: pieces, .cons (hspelled.mono (Nat.zero_le _)) hpieces,
          .cons hscans hscansPieces⟩
  obtain ⟨pieces, hspelled, hscans⟩ := hpieces
  refine ⟨pieces, hspelled, fun rest => Token.scansBefore_intercalate ?_ ?_⟩
  · intro more
    exact (Token.scansBefore_alone .comma (by decide)).append Token.scansBefore_space
  · refine hscans.imp fun text piece hpiece => ⟨?_, fun more => ?_⟩
    · exact hpiece _ (.sign ')' (by decide) rest)
    · exact hpiece _ (.sign ',' (by decide) _)

theorem emits_call {arguments : List Expr} {texts : List (List Char)} (htree : Emits text tree)
    (harguments : List.Forall₂ Emits texts arguments) :
    Emits (text ++ '(' :: ([',', ' '].intercalate texts ++ [')'])) (.call line tree arguments) := by
  obtain ⟨spellings, hspelled, hscans⟩ := htree
  obtain ⟨pieces, hpieces, hscansArguments⟩ := scansBefore_arguments harguments
  refine ⟨_, Parser.spelledAt_call hspelled hpieces, fun rest _ => ?_⟩
  exact (hscans _ (.sign '(' (by decide) _)).append
    (scansBefore_parenthesized (hscansArguments rest))

theorem emits_number {value : Number} (hfinite : value.isFinite = true)
    (hpositive : value.isNegative = false) :
    Emits value.cppText.toList (.literal line (.number value)) := by
  obtain ⟨hnumeral, hreads⟩ := Number.writes_cppText hfinite hpositive
  exact emits_lexeme (.number hnumeral) hnumeral.lineFeed_not_mem nofun
    (Parser.spelledAt_number hreads)

theorem emits_boolean (value : Bool) :
    Emits (booleanText value).toList (.literal line (.boolean value)) := by
  cases value
  · exact emits_lexeme (.keyword (by decide) (by decide)) (by decide) nofun
      (Parser.spelledAt_boolean false)
  · exact emits_lexeme (.keyword (by decide) (by decide)) (by decide) nofun
      (Parser.spelledAt_boolean true)

/-- The character is written in a string of either language in the same way. -/
def isPlain (char : Char) : Bool :=
  (0x20 ≤ char.toNat && char.toNat != 0x7f) || char == '\n' || char == '\t' || char == '\r'

theorem escapedChar_eq {char : Char} (hplain : isPlain char = true) :
    escapedChar char = Token.requotedChar char := by
  unfold escapedChar
  split
  case h_6 hslash hquote hfeed htab hreturn =>
    have hcode : ¬ ((char.toNat < 0x20 || char.toNat = 0x7f) = true) := by
      simp_all [isPlain]
    dsimp only
    rw [if_neg hcode]
    unfold Token.requotedChar
    split <;> first | rfl | contradiction
  all_goals rfl

theorem lineFeed_not_mem_requotedChar (char : Char) : '\n' ∉ Token.requotedChar char := by
  unfold Token.requotedChar
  split
  case h_6 hfeed _ _ => simpa using Ne.symm hfeed
  all_goals decide

theorem emits_string {value : String} (hvalue : value.toList.all isPlain = true) :
    Emits ('"' :: ((escape value).toList ++ ['"'])) (.literal line (.string value)) := by
  have hescape : (escape value).toList = value.toList.flatMap Token.requotedChar := by
    rw [escape, String.toList_ofList]
    exact List.flatMap_congr fun char hchar =>
      escapedChar_eq (List.all_eq_true.mp hvalue char hchar)
  rw [hescape]
  refine emits_lexeme (.string (Token.decodes_flatMap_requotedChar _)) ?_ nofun
    Parser.spelledAt_string
  simp [lineFeed_not_mem_requotedChar]

end

end Emit

theorem UnaryOp.text_sign (operator : UnaryOp) : operator.sign.text = operator.text := by
  cases operator <;> rfl

theorem BinaryOp.text_sign (operator : BinaryOp) : operator.sign.text = operator.text := by
  cases operator <;> rfl

namespace Expr

/-! ## The tree of the text -/

mutual

/-- The tree that the text of an expression groups as.  C++ makes texts and remainders by calls, and
a negative number is a negation. -/
def cppTree : Expr → Expr
  | literal line (.number value) =>
    if value.isNegative then unary line .negate (literal line (.number (-value)))
    else literal line (.number value)
  | literal line (.string text) =>
    call line (name line "std::string") [literal line (.string text)]
  | literal line (.boolean value) => literal line (.boolean value)
  | name line text => name line text
  | unary line operator operand => unary line operator operand.cppTree
  | binary line .modulus left right =>
    call line (name line "std::fmod") [left.cppTree, right.cppTree]
  | binary line operator left right => binary line operator left.cppTree right.cppTree
  | ternary line condition positive negative =>
    ternary line condition.cppTree positive.cppTree negative.cppTree
  | call line callee arguments => call line callee.cppTree (cppTrees arguments)
  | index line target place => index line target.cppTree place.cppTree
  | member line target field => member line target.cppTree field

def cppTrees : List Expr → List Expr
  | [] => []
  | tree :: trees => tree.cppTree :: cppTrees trees

end

/-- What this node holds can be emitted so that it is read back. -/
def IsEmittable : Expr → Prop
  | literal _ (.number value) => value.isFinite = true
  | literal _ (.string text) => text.toList.all Emit.isPlain = true
  | name _ text => Lexeme.IsName text
  | member _ _ field => Lexeme.isIdentifier field = true
  | _ => True

theorem cppText_binary {operator : BinaryOp} (hoperator : operator ≠ .modulus) (line : Nat)
    (left right : Expr) :
    (binary line operator left right).cppText =
      "(" ++ left.cppText ++ " " ++ operator.text ++ " " ++ right.cppText ++ ")" := by
  cases operator <;> first | rfl | contradiction

theorem cppTree_binary {operator : BinaryOp} (hoperator : operator ≠ .modulus) (line : Nat)
    (left right : Expr) :
    (binary line operator left right).cppTree =
      binary line operator left.cppTree right.cppTree := by
  cases operator <;> first | rfl | contradiction

theorem isName_string : Lexeme.IsName "std::string" := ⟨"std", ["string"], by decide, by decide⟩

theorem isName_remainder : Lexeme.IsName "std::fmod" := ⟨"std", ["fmod"], by decide, by decide⟩

/-! ## First characters -/

theorem startsOperand_numeral {text : List Char} (htext : Lexeme.IsNumeral text) :
    Emit.StartsOperand text := by
  obtain ⟨first, more, hcons, hdigit⟩ := htext.exists_cons
  exact ⟨first, more, hcons, .inr (by simp [Lexeme.continuesWord, hdigit])⟩

theorem startsOperand_append {text : String} (htext : Emit.StartsOperand text.toList)
    (more : String) : Emit.StartsOperand (text ++ more).toList := by
  obtain ⟨first, rest, hcons, hfirst⟩ := htext
  exact ⟨first, rest ++ more.toList, by rw [String.toList_append, hcons, List.cons_append], hfirst⟩

theorem startsOperand_name {name : String} (hname : Lexeme.IsName name) :
    Emit.StartsOperand name.toList := by
  obtain ⟨first, names, hnames, rfl⟩ := hname
  have hword := (Bool.and_eq_true_iff.mp (hnames first (by simp))).1
  obtain ⟨char, more, hcons, hchar⟩ := Lexeme.exists_cons_of_isWord hword
  rw [String.toList_intercalate, List.map_cons, Parser.intercalate_cons, hcons]
  exact ⟨char, _, rfl, .inr (by simp [Lexeme.continuesWord, hchar])⟩

theorem startsOperand_literal (line : Nat) {value : Literal}
    (hvalue : (literal line value).IsEmittable) : Emit.StartsOperand value.cppText.toList := by
  match value with
  | .boolean true => exact ⟨'t', _, rfl, .inr rfl⟩
  | .boolean false => exact ⟨'f', _, rfl, .inr rfl⟩
  | .string text =>
      simp only [Literal.cppText, String.append_assoc]
      exact startsOperand_append ⟨'s', _, rfl, .inr rfl⟩ _
  | .number value =>
      cases hsign : value.isNegative with
      | true =>
          rw [Literal.cppText, Number.toList_cppText_of_isNegative hvalue hsign]
          exact ⟨'(', _, rfl, .inl rfl⟩
      | false => exact startsOperand_numeral (Number.writes_cppText hvalue hsign).1

theorem startsOperand_cppText (tree : Expr) (htree : ∀ node ∈ tree.subterms, node.IsEmittable) :
    Emit.StartsOperand tree.cppText.toList := by
  have hparen : Emit.StartsOperand "(".toList := ⟨'(', _, rfl, .inl rfl⟩
  -- Suffixes stand after their target, so the induction goes down the targets only.
  induction tree with
  | literal line value => exact startsOperand_literal line (htree _ (mem_subterms_self _))
  | name line text => exact startsOperand_name (htree _ (mem_subterms_self _))
  | unary line operator operand =>
      simp only [cppText, String.append_assoc]
      exact startsOperand_append hparen _
  | binary line operator left right =>
      by_cases hoperator : operator = .modulus
      · simp only [hoperator, cppText, String.append_assoc]
        exact startsOperand_append ⟨'s', _, rfl, .inr rfl⟩ _
      · simp only [cppText_binary hoperator, String.append_assoc]
        exact startsOperand_append hparen _
  | ternary line condition positive negative =>
      simp only [cppText, String.append_assoc]
      exact startsOperand_append hparen _
  | call line callee arguments ih =>
      have hcallee := ih fun node hnode => htree node (by simp [subterms, hnode])
      simp only [cppText, String.append_assoc]
      exact startsOperand_append hcallee _
  | index line target place ih =>
      have htarget := ih fun node hnode => htree node (by simp [subterms, hnode])
      simp only [cppText, String.append_assoc]
      exact startsOperand_append htarget _
  | member line target field ih =>
      have htarget := ih fun node hnode => htree node (by simp [subterms, hnode])
      simp only [cppText, String.append_assoc]
      exact startsOperand_append htarget _

/-! ## Reading the text -/

theorem emits_literal (line : Nat) {value : Literal} (hvalue : (literal line value).IsEmittable) :
    Emit.Emits value.cppText.toList (literal line value).cppTree := by
  match value with
  | .boolean value => exact Emit.emits_boolean line value
  | .string text =>
      have hemits := Emit.emits_call line (Emit.emits_name line isName_string)
        (.cons (Emit.emits_string line hvalue) .nil)
      simpa [Literal.cppText, cppTree] using hemits
  | .number value =>
      rw [Literal.cppText, cppTree]
      split
      case isTrue hnegative =>
        have hfinite : (-value).isFinite = true := (Number.isFinite_neg value).trans hvalue
        have hpositive : (-value).isNegative = false := by
          rw [Number.isNegative_neg, hnegative, Bool.not_true]
        have hnumeral := (Number.writes_cppText hfinite hpositive).1
        rw [Number.toList_cppText_of_isNegative hvalue hnegative]
        exact Emit.emits_unary line .negate (Emit.emits_number line hfinite hpositive)
          (startsOperand_numeral hnumeral)
      case isFalse hpositive =>
        exact Emit.emits_number line hvalue (Bool.eq_false_iff.mpr hpositive)

theorem forall₂_cppTexts {trees : List Expr}
    (htrees : ∀ tree ∈ trees, Emit.Emits tree.cppText.toList tree.cppTree) :
    List.Forall₂ Emit.Emits ((cppTexts trees).map String.toList) (cppTrees trees) := by
  induction trees with
  | nil => exact .nil
  | cons tree trees ih =>
      exact .cons (htrees tree (by simp)) (ih fun other hother => htrees other (by simp [hother]))

theorem emits_cppText (tree : Expr) (htree : ∀ node ∈ tree.subterms, node.IsEmittable) :
    Emit.Emits tree.cppText.toList tree.cppTree := by
  induction tree with
  | literal line value => exact emits_literal line (htree _ (mem_subterms_self _))
  | name line text => exact Emit.emits_name line (htree _ (mem_subterms_self _))
  | unary line operator operand ih =>
      have hoperand : ∀ node ∈ operand.subterms, node.IsEmittable :=
        fun node hnode => htree node (by simp [subterms, hnode])
      have hemits := Emit.emits_unary line operator (ih hoperand)
        (startsOperand_cppText operand hoperand)
      simpa [cppText, cppTree, UnaryOp.text_sign] using hemits
  | binary line operator left right ihLeft ihRight =>
      have hleft := ihLeft fun node hnode => htree node (by simp [subterms, hnode])
      have hright := ihRight fun node hnode => htree node (by simp [subterms, hnode])
      -- A remainder is a call; every other operator stands between its operands.
      by_cases hoperator : operator = .modulus
      · have hemits := Emit.emits_call line (Emit.emits_name line isName_remainder)
          (.cons hleft (.cons hright .nil))
        simpa [hoperator, cppText, cppTree] using hemits
      · have hemits := Emit.emits_binary line operator hleft hright
        rw [cppText_binary hoperator, cppTree_binary hoperator]
        simpa [BinaryOp.text_sign] using hemits
  | ternary line condition positive negative ihCondition ihPositive ihNegative =>
      have hcondition := ihCondition fun node hnode => htree node (by simp [subterms, hnode])
      have hpositive := ihPositive fun node hnode => htree node (by simp [subterms, hnode])
      have hnegative := ihNegative fun node hnode => htree node (by simp [subterms, hnode])
      have hemits := Emit.emits_ternary line hcondition hpositive hnegative
      simpa [cppText, cppTree] using hemits
  | call line callee arguments ihCallee ihArguments =>
      have hcallee := ihCallee fun node hnode => htree node (by simp [subterms, hnode])
      have harguments : ∀ argument ∈ arguments,
          Emit.Emits argument.cppText.toList argument.cppTree := by
        intro argument hargument
        exact ihArguments argument hargument fun node hnode =>
          htree node (mem_subterms_of_mem_argument hargument hnode)
      have hemits := Emit.emits_call line hcallee (forall₂_cppTexts harguments)
      simpa [cppText, cppTree, String.toList_intercalate] using hemits
  | index line target place ihTarget ihPlace =>
      have htarget := ihTarget fun node hnode => htree node (by simp [subterms, hnode])
      have hplace := ihPlace fun node hnode => htree node (by simp [subterms, hnode])
      have hemits := Emit.emits_index line htarget hplace
      simpa [cppText, cppTree] using hemits
  | member line target field ih =>
      have htarget := ih fun node hnode => htree node (by simp [subterms, hnode])
      have hemits := Emit.emits_member line htarget (htree _ (mem_subterms_self _))
      simpa [cppText, cppTree] using hemits

/-- The text of an expression is read as its tree: the tokens of the text up to the finishing one
are one expression, which is the tree up to its lines. -/
theorem expression_reads_cppText (tree : Expr)
    (htree : ∀ node ∈ tree.subterms, node.IsEmittable) :
    ∃ tokens, Token.scan tree.cppText = .ok (tokens ++ [.finish 1]) ∧
      ∃ read : Expr, read.SameUpToLines tree.cppTree ∧
        Parser.expression (Cursor.ofTokens (tokens ++ [.finish 1])).nesting
            (Cursor.ofTokens (tokens ++ [.finish 1])) =
          .ok read ⟨[], .finish 1, []⟩ := by
  obtain ⟨spellings, hspelled, hscans⟩ := emits_cppText tree htree
  have hscan : Token.scan tree.cppText =
      .ok (spellings.map (Spelling.onLine 1) ++ [.finish 1]) := by
    have hline := hscans [] .nil 1
    rw [List.append_nil, Token.scanFrom_nil] at hline
    exact hline
  obtain ⟨read, hread, hreads⟩ := hspelled (spellings.map (Spelling.onLine 1)) (by
    rw [List.map_map]
    exact List.map_id'' (fun _ => rfl) spellings)
  refine ⟨_, hscan, read, hread, ?_⟩
  rw [Cursor.ofTokens_of_scan hscan]
  have hexpression := hreads.expression
    (Cursor.nesting ⟨spellings.map (Spelling.onLine 1), .finish 1, []⟩) ⟨[], .finish 1, []⟩ rfl
    (Nat.le_add_right _ _)
  rwa [Cursor.before, List.append_nil] at hexpression

/-- The text `((-1.0) + std::fmod(p.size(std::string("a\nb")), ((-p) ? 0.0 : t[p])))`, in which
each form that is spelled in another way occurs. -/
theorem expression_reads_cppText_remainder :
    let tree : Expr :=
      .binary 0 .add (.literal 0 (.number (-.one)))
        (.binary 0 .modulus
          (.call 0 (.member 0 (.name 0 "p") "size") [.literal 0 (.string "a\nb")])
          (.ternary 0 (.unary 0 .negate (.name 0 "p")) (.literal 0 (.number .zero))
            (.index 0 (.name 0 "t") (.name 0 "p"))))
    ∃ tokens, Token.scan tree.cppText = .ok (tokens ++ [.finish 1]) ∧
      ∃ read : Expr, read.SameUpToLines tree.cppTree ∧
        Parser.expression (Cursor.ofTokens (tokens ++ [.finish 1])).nesting
            (Cursor.ofTokens (tokens ++ [.finish 1])) =
          .ok read ⟨[], .finish 1, []⟩ := by
  intro tree
  apply expression_reads_cppText
  have hp : Lexeme.IsName "p" := ⟨"p", [], by decide, by decide⟩
  have ht : Lexeme.IsName "t" := ⟨"t", [], by decide, by decide⟩
  have hsize : Lexeme.isIdentifier "size" = true := by decide
  have hzero : Number.zero.isFinite = true := by decide +kernel
  have hone : Number.isFinite (-.one) = true := by decide +kernel
  have htext : "a\nb".toList.all Emit.isPlain = true := by decide
  simpa [tree, subterms, subtermsAll, IsEmittable, hp, ht, hsize, hzero, hone] using htext

end Expr

end Tide
