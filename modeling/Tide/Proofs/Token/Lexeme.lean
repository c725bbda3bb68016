import Mathlib
import Tide.Token.Scan

/-!
# What lexemes look like

Each kind of token has a form of its own: words, numerals, signs and quoted strings.  The forms are
given here without the reader.  Reading takes a lexeme of some form off the front of a text, and a
lexeme is read whole when what follows it cannot go on with it.
-/

namespace Tide

namespace Lexeme

/-! ## Forms -/

/-- A letter or an underscore, and then letters, digits and underscores. -/
def isWord : List Char → Bool
  | [] => false
  | first :: rest => startsWord first && rest.all continuesWord

/-- One digit or more. -/
def isDigits (text : List Char) : Bool :=
  !text.isEmpty && text.all isDigit

/-- Nothing, or a point and digits. -/
inductive IsFraction : List Char → Prop
  | none : IsFraction []
  | digits {digits : List Char} (hdigits : isDigits digits = true) : IsFraction ('.' :: digits)

/-- Nothing, or a mark, perhaps a sign, and digits. -/
inductive IsExponent : List Char → Prop
  | none : IsExponent []
  | power {mark : Char} {sign digits : List Char} (hmark : mark = 'e' ∨ mark = 'E')
      (hsign : sign = [] ∨ sign = ['+'] ∨ sign = ['-']) (hdigits : isDigits digits = true) :
      IsExponent (mark :: (sign ++ digits))

/-- Digits, perhaps a fraction, perhaps an exponent. -/
inductive IsNumeral : List Char → Prop
  | mk {whole fraction exponent : List Char} (hwhole : isDigits whole = true)
      (hfraction : IsFraction fraction) (hexponent : IsExponent exponent) :
      IsNumeral (whole ++ (fraction ++ exponent))

/-- What a character stands for after a backslash. -/
inductive Escape : Char → Char → Prop
  | lineFeed : Escape 'n' '\n'
  | tab : Escape 't' '\t'
  | carriageReturn : Escape 'r' '\r'
  | verbatim {char : Char} (hn : char ≠ 'n') (ht : char ≠ 't') (hr : char ≠ 'r') :
      Escape char char

/-- What the text between two quotes stands for. -/
inductive Decodes : List Char → List Char → Prop
  | nil : Decodes [] []
  | plain {char : Char} {body value : List Char} (hquote : char ≠ '"') (hslash : char ≠ '\\')
      (hbody : Decodes body value) : Decodes (char :: body) (char :: value)
  | escaped {written meant : Char} {body value : List Char} (hescape : Escape written meant)
      (hbody : Decodes body value) : Decodes ('\\' :: written :: body) (meant :: value)

end Lexeme

/-- A token without its line. -/
structure Spelling where
  kind : TokenKind
  text : String
  deriving DecidableEq

def Token.spelling (token : Token) : Spelling := ⟨token.kind, token.text⟩

/-- How a token can stand in a source.  Only a string has more than one way. -/
inductive Spelling.WrittenAs : Spelling → List Char → Prop
  | identifier {text : String} (hword : Lexeme.isWord text.toList = true)
      (hfree : Keyword.ofText? text = none) : WrittenAs ⟨.identifier, text⟩ text.toList
  | keyword {text : String} {word : Keyword} (hword : Lexeme.isWord text.toList = true)
      (hreserved : Keyword.ofText? text = some word) : WrittenAs ⟨.keyword word, text⟩ text.toList
  | number {text : String} (hnumeral : Lexeme.IsNumeral text.toList) :
      WrittenAs ⟨.number, text⟩ text.toList
  | symbol (sign : Symbol) : WrittenAs ⟨.symbol sign, sign.text⟩ sign.text.toList
  | string {body : List Char} {value : String} (hbody : Lexeme.Decodes body value.toList) :
      WrittenAs ⟨.string, value⟩ ('"' :: (body ++ ['"']))

/-! ## Signs -/

namespace Symbol

theorem ofText?_text (sign : Symbol) : ofText? sign.text = some sign := by
  cases sign <;> rfl

theorem text_of_ofText? {text : String} {sign : Symbol} (hsign : ofText? text = some sign) :
    sign.text = text := by
  simpa using List.find?_some hsign

/-- The first character of a sign is a sign itself. -/
theorem isSome_ofText?_first {sign : Symbol} {first : Char} {more : List Char}
    (htext : sign.text.toList = first :: more) :
    (ofText? (String.ofList [first])).isSome = true := by
  have hfirst : sign.text.toList.head? = some first := by rw [htext, List.head?_cons]
  cases sign <;> cases hfirst <;> rfl

theorem length_text (sign : Symbol) :
    (∃ first, sign.text.toList = [first]) ∨ ∃ first second, sign.text.toList = [first, second] := by
  cases sign <;> simp [text]

/-- A sign and a character after it make a longer sign, or start a comment. -/
def joins (sign : Symbol) (next : Char) : Bool :=
  (ofText? (String.ofList (sign.text.toList ++ [next]))).isSome || (sign == divide && next == '/')

theorem joins_eq_false {sign : Symbol} {next : Char}
    (hlonger : ∀ other : Symbol, other.text.toList ≠ sign.text.toList ++ [next])
    (hcomment : ¬ (sign = divide ∧ next = '/')) : sign.joins next = false := by
  rw [joins, Bool.or_eq_false_iff]
  constructor
  · rw [Option.isSome_eq_false_iff, Option.isNone_iff_eq_none]
    by_contra hsome
    obtain ⟨other, hother⟩ := Option.ne_none_iff_exists'.mp hsome
    apply hlonger other
    rw [text_of_ofText? hother, String.toList_ofList]
  · simpa using hcomment

theorem joins_space (sign : Symbol) : sign.joins ' ' = false := by
  apply joins_eq_false
  · intro other heq
    have hspace : ' ' ∉ other.text.toList := by cases other <;> decide
    exact hspace (by simp [heq])
  · rintro ⟨-, heq⟩
    exact absurd heq (by decide)

/-- No sign goes on with a parenthesis or with a character of a word. -/
theorem joins_operand {next : Char} (hnext : next = '(' ∨ Lexeme.continuesWord next = true)
    (sign : Symbol) : sign.joins next = false := by
  apply joins_eq_false
  · intro other heq
    have hsecond : other.text.toList.tail.all
        (fun char => !(char == '(' || Lexeme.continuesWord char)) = true := by
      cases other <;> rfl
    obtain ⟨first, more, hcons⟩ : ∃ first more, sign.text.toList = first :: more := by
      cases sign <;> exact ⟨_, _, rfl⟩
    have hmem : next ∈ other.text.toList.tail := by simp [heq, hcons]
    have hother := List.all_eq_true.mp hsecond next hmem
    rcases hnext with rfl | hword
    · exact absurd hother (by decide)
    · simp [hword] at hother
  · rintro ⟨-, rfl⟩
    rcases hnext with heq | hword
    · exact absurd heq (by decide)
    · exact absurd hword (by decide)

/-- Brackets, commas, points and question marks start no longer sign, and `::` is none either. -/
theorem joins_alone {sign : Symbol}
    (hsign : sign ∈ [openParen, closeParen, openBracket, closeBracket, comma, dot, question,
      doubleColon]) (next : Char) : sign.joins next = false := by
  apply joins_eq_false
  · intro other heq
    have hlength := congrArg List.length heq
    have hhead := congrArg List.head? heq
    simp only [List.mem_cons, List.not_mem_nil, or_false] at hsign
    rcases hsign with rfl | rfl | rfl | rfl | rfl | rfl | rfl | rfl <;>
      cases other <;> simp [text] at hlength hhead
  · rintro ⟨rfl, -⟩
    exact absurd hsign (by decide)

end Symbol

namespace Lexeme

/-! ## Strings -/

theorem escape_iff {written meant : Char} : Escape written meant ↔ unescape written = meant := by
  constructor
  · intro hescape
    cases hescape with
    | lineFeed | tab | carriageReturn => rfl
    | verbatim hn ht hr => simp [unescape]
  · rintro rfl
    by_cases hn : written = 'n'
    · exact hn ▸ Escape.lineFeed
    by_cases ht : written = 't'
    · exact ht ▸ Escape.tab
    by_cases hr : written = 'r'
    · exact hr ▸ Escape.carriageReturn
    have hsame : unescape written = written := by simp [unescape]
    rw [hsame]
    exact Escape.verbatim hn ht hr

theorem count_lineFeed_cons (char : Char) (text : List Char) :
    (char :: text).count '\n' = lineFeed char + text.count '\n' := by
  rw [List.count_cons, Nat.add_comm]
  simp only [lineFeed, beq_iff_eq]

theorem Decodes.stringBody_append {body value : List Char} (hbody : Decodes body value)
    (after : List Char) :
    stringBody (body ++ '"' :: after) = some (value, body.count '\n', after) := by
  induction hbody with
  | nil => rfl
  | plain hquote hslash hbody ih =>
      rw [count_lineFeed_cons, List.cons_append, stringBody.eq_def]
      split <;> simp_all
  | escaped hescape hbody ih =>
      rw [count_lineFeed_cons, count_lineFeed_cons, List.cons_append, List.cons_append, stringBody,
        ih, escape_iff.mp hescape]
      simp [lineFeed]

/-- The value of a string is what its body stands for, up to the first quote that is not escaped. -/
theorem exists_decodes_of_stringBody {text value after : List Char} {feeds : Nat}
    (hbody : stringBody text = some (value, feeds, after)) :
    ∃ body, text = body ++ '"' :: after ∧ Decodes body value ∧ feeds = body.count '\n' := by
  fun_induction stringBody text generalizing value feeds after with
  | case1 | case3 | case4 | case6 => simp at hbody
  | case2 rest =>
      cases hbody
      exact ⟨[], rfl, Decodes.nil, rfl⟩
  | case5 char rest value feeds after heq ih =>
      cases hbody
      obtain ⟨body, htext, hdecodes, hfeeds⟩ := ih heq
      refine ⟨'\\' :: char :: body, ?_, Decodes.escaped (escape_iff.mpr rfl) hdecodes, ?_⟩
      · rw [htext]
        rfl
      · rw [count_lineFeed_cons, count_lineFeed_cons, hfeeds]
        simp [lineFeed]
  | case7 char rest hquote hlast hescaped value feeds after heq ih =>
      cases hbody
      obtain ⟨body, htext, hdecodes, hfeeds⟩ := ih heq
      have hslash : char ≠ '\\' := by
        rintro rfl
        cases rest with
        | nil => exact hlast rfl rfl
        | cons first more => exact hescaped first more rfl rfl
      refine ⟨char :: body, ?_, Decodes.plain hquote hslash hdecodes, ?_⟩
      · rw [htext]
        rfl
      · rw [count_lineFeed_cons, hfeeds]

/-! ## Runs of characters -/

/-- A run of members of a class is taken whole when no member follows. -/
theorem takeWhile_append_of_stop {isMember : Char → Bool} {run rest : List Char}
    (hrun : run.all isMember = true) (hstop : rest.head?.all (!isMember ·) = true) :
    (run ++ rest).takeWhile isMember = run := by
  rw [List.takeWhile_append_of_pos (List.all_eq_true.mp hrun)]
  cases rest with
  | nil => simp
  | cons next rest => simp_all

theorem dropWhile_append_of_stop {isMember : Char → Bool} {run rest : List Char}
    (hrun : run.all isMember = true) (hstop : rest.head?.all (!isMember ·) = true) :
    (run ++ rest).dropWhile isMember = rest := by
  rw [List.dropWhile_append_of_pos (List.all_eq_true.mp hrun)]
  cases rest with
  | nil => simp
  | cons next rest => simp_all

/-! ## Numerals -/

/-- What follows cannot go on with a number. -/
def endsNumeral : List Char → Bool
  | [] => true
  | next :: rest =>
    !isDigit next && next != 'e' && next != 'E' && !(next == '.' && rest.head?.any isDigit)

theorem isDigits_takeWhile {text : List Char} (hsome : text.takeWhile isDigit ≠ []) :
    isDigits (text.takeWhile isDigit) = true := by
  simp [isDigits, hsome]

theorem all_of_isDigits {text : List Char} (hdigits : isDigits text = true) :
    text.all isDigit = true := by
  simp_all [isDigits]

theorem fractionPart_spec (text : List Char) :
    text = (fractionPart text).1 ++ (fractionPart text).2 ∧ IsFraction (fractionPart text).1 := by
  unfold fractionPart
  split
  case h_1 rest =>
    split
    case h_1 hnone => exact ⟨rfl, IsFraction.none⟩
    case h_2 hsome => exact ⟨by simp, IsFraction.digits (isDigits_takeWhile hsome)⟩
  case h_2 => exact ⟨rfl, IsFraction.none⟩

theorem signPart_spec (text : List Char) :
    text = (signPart text).1 ++ (signPart text).2 ∧
      ((signPart text).1 = [] ∨ (signPart text).1 = ['+'] ∨ (signPart text).1 = ['-']) := by
  unfold signPart
  split <;> simp

theorem exponentPart_spec (text : List Char) :
    text = (exponentPart text).1 ++ (exponentPart text).2 ∧ IsExponent (exponentPart text).1 := by
  unfold exponentPart
  split
  case h_1 mark rest =>
    have hsign := signPart_spec rest
    split
    case isTrue hmark =>
      split
      case h_1 hnone => exact ⟨rfl, IsExponent.none⟩
      case h_2 hsome =>
        refine ⟨?_, IsExponent.power hmark hsign.2 (isDigits_takeWhile hsome)⟩
        simpa using hsign.1
    case isFalse hmark => exact ⟨rfl, IsExponent.none⟩
  case h_2 => exact ⟨rfl, IsExponent.none⟩

/-- A number takes a numeral off the front of a text. -/
theorem number_spec {first : Char} (rest : List Char) (hdigit : isDigit first = true) :
    first :: rest = (number (first :: rest)).text ++ (number (first :: rest)).rest ∧
      IsNumeral (number (first :: rest)).text := by
  have hfraction := fractionPart_spec ((first :: rest).dropWhile isDigit)
  have hexponent := exponentPart_spec (fractionPart ((first :: rest).dropWhile isDigit)).2
  simp only [number, List.append_assoc]
  refine ⟨?_, IsNumeral.mk (isDigits_takeWhile ?_) hfraction.2 hexponent.2⟩
  · rw [← hexponent.1, ← hfraction.1, List.takeWhile_append_dropWhile]
  · simp [hdigit]

theorem exists_cons_of_isDigits {text : List Char} (hdigits : isDigits text = true) :
    ∃ first more, text = first :: more ∧ isDigit first = true := by
  cases text with
  | nil => simp [isDigits] at hdigits
  | cons first more => exact ⟨first, more, rfl, by simp_all [isDigits]⟩

theorem stop_of_endsNumeral {rest : List Char} (hends : endsNumeral rest = true) :
    rest.head?.all (!isDigit ·) = true := by
  cases rest with
  | nil => rfl
  | cons next rest => simp_all [endsNumeral]

theorem fractionPart_of_endsNumeral {rest : List Char} (hends : endsNumeral rest = true) :
    fractionPart rest = ([], rest) := by
  unfold fractionPart
  split
  case h_1 rest =>
    have hnone : rest.takeWhile isDigit = [] := by
      cases rest with
      | nil => rfl
      | cons next rest => simp_all [endsNumeral]
    rw [hnone]
  case h_2 => rfl

theorem exponentPart_of_endsNumeral {rest : List Char} (hends : endsNumeral rest = true) :
    exponentPart rest = ([], rest) := by
  cases rest with
  | nil => rfl
  | cons next rest => simp_all [endsNumeral, exponentPart]

theorem signPart_append {sign digits : List Char} (rest : List Char)
    (hsign : sign = [] ∨ sign = ['+'] ∨ sign = ['-']) (hdigits : isDigits digits = true) :
    signPart (sign ++ (digits ++ rest)) = (sign, digits ++ rest) := by
  obtain ⟨first, more, rfl, hfirst⟩ := exists_cons_of_isDigits hdigits
  rcases hsign with rfl | rfl | rfl
  · have hplus : first ≠ '+' := by
      rintro rfl
      exact absurd hfirst (by decide)
    have hminus : first ≠ '-' := by
      rintro rfl
      exact absurd hfirst (by decide)
    simp [signPart, hplus, hminus]
  · rfl
  · rfl

theorem IsExponent.exponentPart_append {exponent rest : List Char}
    (hexponent : IsExponent exponent) (hends : endsNumeral rest = true) :
    exponentPart (exponent ++ rest) = (exponent, rest) := by
  cases hexponent with
  | none => exact exponentPart_of_endsNumeral hends
  | @power mark sign digits hmark hsign hdigits =>
      have hstop := stop_of_endsNumeral hends
      have hall := all_of_isDigits hdigits
      simp only [exponentPart, List.cons_append, List.append_assoc, if_pos hmark,
        signPart_append rest hsign hdigits, takeWhile_append_of_stop hall hstop,
        dropWhile_append_of_stop hall hstop]
      obtain ⟨first, more, rfl, -⟩ := exists_cons_of_isDigits hdigits
      rfl

/-- An exponent, or what follows a number, starts no fraction. -/
theorem IsExponent.fractionPart_append {exponent rest : List Char}
    (hexponent : IsExponent exponent) (hends : endsNumeral rest = true) :
    (exponent ++ rest).head?.all (!isDigit ·) = true ∧
      fractionPart (exponent ++ rest) = ([], exponent ++ rest) := by
  cases hexponent with
  | none => exact ⟨stop_of_endsNumeral hends, fractionPart_of_endsNumeral hends⟩
  | power hmark => rcases hmark with rfl | rfl <;> exact ⟨rfl, rfl⟩

theorem IsFraction.fractionPart_append {fraction rest : List Char}
    (hfraction : IsFraction fraction) (hstop : rest.head?.all (!isDigit ·) = true)
    (hpoint : fractionPart rest = ([], rest)) :
    (fraction ++ rest).head?.all (!isDigit ·) = true ∧
      fractionPart (fraction ++ rest) = (fraction, rest) := by
  cases hfraction with
  | none => exact ⟨hstop, hpoint⟩
  | @digits digits hdigits =>
      have hall := all_of_isDigits hdigits
      simp only [fractionPart, List.cons_append, takeWhile_append_of_stop hall hstop,
        dropWhile_append_of_stop hall hstop]
      obtain ⟨first, more, rfl, -⟩ := exists_cons_of_isDigits hdigits
      exact ⟨rfl, rfl⟩

/-- A numeral is read whole before anything that cannot go on with it. -/
theorem IsNumeral.number_append {text : List Char} (hnumeral : IsNumeral text) {rest : List Char}
    (hends : endsNumeral rest = true) : number (text ++ rest) = ⟨.number, text, 0, rest⟩ := by
  obtain ⟨hwhole, hfraction, hexponent⟩ := hnumeral
  -- A part ends where the next one starts, so the facts come from the last part back.
  have hafter := hexponent.fractionPart_append hends
  have hpoint := hfraction.fractionPart_append hafter.1 hafter.2
  have hall := all_of_isDigits hwhole
  simp only [number, List.append_assoc, takeWhile_append_of_stop hall hpoint.1,
    dropWhile_append_of_stop hall hpoint.1, hpoint.2, hexponent.exponentPart_append hends]

theorem IsNumeral.exists_cons {text : List Char} (hnumeral : IsNumeral text) :
    ∃ first more, text = first :: more ∧ isDigit first = true := by
  obtain ⟨hwhole, hfraction, hexponent⟩ := hnumeral
  obtain ⟨first, more, rfl, hfirst⟩ := exists_cons_of_isDigits hwhole
  exact ⟨first, _, rfl, hfirst⟩

/-- Apart from the characters of words there are only points and signs. -/
theorem IsNumeral.continuesWord_or {text : List Char} (hnumeral : IsNumeral text) {char : Char}
    (hmem : char ∈ text) : continuesWord char = true ∨ char ∈ ['.', '+', '-'] := by
  have hdigits : ∀ {digits : List Char}, isDigits digits = true → char ∈ digits →
      continuesWord char = true := by
    intro digits hdigits hmem
    have hdigit := List.all_eq_true.mp (all_of_isDigits hdigits) char hmem
    rw [continuesWord, hdigit, Bool.or_true]
  obtain ⟨hwhole, hfraction, hexponent⟩ := hnumeral
  rcases List.mem_append.mp hmem with hmem | hmem
  · exact .inl (hdigits hwhole hmem)
  rcases List.mem_append.mp hmem with hmem | hmem
  · cases hfraction with
    | none => cases hmem
    | digits hfraction =>
        rcases List.mem_cons.mp hmem with rfl | hmem
        · exact .inr (by decide)
        · exact .inl (hdigits hfraction hmem)
  · cases hexponent with
    | none => cases hmem
    | power hmark hsign hexponent =>
        rcases List.mem_cons.mp hmem with rfl | hmem
        · rcases hmark with rfl | rfl <;> exact .inl (by decide)
        rcases List.mem_append.mp hmem with hmem | hmem
        · rcases hsign with rfl | rfl | rfl <;> simp_all
        · exact .inl (hdigits hexponent hmem)

theorem IsNumeral.lineFeed_not_mem {text : List Char} (hnumeral : IsNumeral text) :
    '\n' ∉ text := by
  intro hmem
  rcases hnumeral.continuesWord_or hmem with hword | hsign
  · exact absurd hword (by decide)
  · exact absurd hsign (by decide)

/-! ## Words -/

theorem word_spec {first : Char} (rest : List Char) (hfirst : startsWord first = true) :
    first :: rest = (word (first :: rest)).text ++ (word (first :: rest)).rest ∧
      isWord (word (first :: rest)).text = true := by
  simp only [word, List.takeWhile_append_dropWhile, true_and]
  have hcontinues : continuesWord first = true := by simp [continuesWord, hfirst]
  simp [hcontinues, isWord, hfirst]

theorem all_of_isWord {text : List Char} (hword : isWord text = true) :
    text.all continuesWord = true := by
  cases text with
  | nil => rfl
  | cons first rest => simp_all [isWord, continuesWord]

theorem exists_cons_of_isWord {text : List Char} (hword : isWord text = true) :
    ∃ first more, text = first :: more ∧ startsWord first = true := by
  cases text with
  | nil => cases hword
  | cons first more => exact ⟨first, more, rfl, (Bool.and_eq_true_iff.mp hword).1⟩

theorem not_mem_of_isWord {text : List Char} (hword : isWord text = true) {char : Char}
    (hchar : continuesWord char = false) : char ∉ text := by
  intro hmem
  have hcontinues := List.all_eq_true.mp (all_of_isWord hword) _ hmem
  exact absurd (hcontinues.symm.trans hchar) (by decide)

/-! ## Signs -/

theorem ofText?_ofList {sign : Symbol} {text : List Char} (htext : sign.text.toList = text) :
    Symbol.ofText? (String.ofList text) = some sign := by
  rw [← htext, String.ofList_toList, Symbol.ofText?_text]

theorem toList_text_of_ofText? {sign : Symbol} {text : List Char}
    (hsign : Symbol.ofText? (String.ofList text) = some sign) : sign.text.toList = text := by
  rw [Symbol.text_of_ofText? hsign, String.toList_ofList]

theorem symbol_of_pair {first second : Char} {sign : Symbol}
    (htext : sign.text.toList = [first, second]) (rest : List Char) :
    symbol first (second :: rest) = .ok ⟨.symbol sign, sign.text.toList, 0, rest⟩ := by
  simp only [symbol, ofText?_ofList htext, htext]

theorem symbol_of_no_pair {first : Char} {rest : List Char}
    (hpair : ∀ second ∈ rest.head?, Symbol.ofText? (String.ofList [first, second]) = none) :
    symbol first rest =
      match Symbol.ofText? (String.ofList [first]) with
      | some sign => .ok ⟨.symbol sign, [first], 0, rest⟩
      | none => .error (.unexpected first) := by
  cases rest with
  | nil => rfl
  | cons second rest =>
      have hnone := hpair second (by simp)
      cases hsign : Symbol.ofText? (String.ofList [first]) <;> simp only [symbol, hnone, hsign]

/-- A sign takes its own text off the front of a text, or no sign starts there. -/
theorem symbol_cases (first : Char) (rest : List Char) :
    (∃ (sign : Symbol) (after : List Char), first :: rest = sign.text.toList ++ after ∧
      symbol first rest = .ok ⟨.symbol sign, sign.text.toList, 0, after⟩) ∨
    (Symbol.ofText? (String.ofList [first]) = none ∧
      symbol first rest = .error (.unexpected first)) := by
  -- A sign of two characters wins over one of a single character.
  by_cases hpair : ∀ second ∈ rest.head?, Symbol.ofText? (String.ofList [first, second]) = none
  · rw [symbol_of_no_pair hpair]
    cases hsign : Symbol.ofText? (String.ofList [first]) with
    | none => exact .inr ⟨rfl, rfl⟩
    | some sign =>
        have htext := toList_text_of_ofText? hsign
        exact .inl ⟨sign, rest, htext ▸ rfl, by rw [htext]⟩
  · push Not at hpair
    obtain ⟨second, hsecond, hsign⟩ := hpair
    obtain ⟨sign, hsign⟩ := Option.ne_none_iff_exists'.mp hsign
    obtain ⟨rest, rfl⟩ := List.head?_eq_some_iff.mp hsecond
    have htext := toList_text_of_ofText? hsign
    exact .inl ⟨sign, rest, htext ▸ rfl, symbol_of_pair htext rest⟩

/-- A sign is read whole when no longer one goes on with it. -/
theorem symbol_append {sign : Symbol} {first : Char} {more rest : List Char}
    (htext : sign.text.toList = first :: more) (hjoins : rest.head?.all (!sign.joins ·) = true) :
    symbol first (more ++ rest) = .ok ⟨.symbol sign, sign.text.toList, 0, rest⟩ := by
  rcases sign.length_text with ⟨_, hlength⟩ | ⟨_, second, hlength⟩
  · obtain ⟨rfl, rfl⟩ := List.cons.inj (htext.symm.trans hlength)
    have hpair : ∀ second ∈ rest.head?, Symbol.ofText? (String.ofList [first, second]) = none := by
      intro second hsecond
      have hfree : sign.joins second = false := by simp_all
      simp_all [Symbol.joins]
    rw [List.nil_append, symbol_of_no_pair hpair, ofText?_ofList htext, htext]
  · obtain ⟨rfl, rfl⟩ := List.cons.inj (htext.symm.trans hlength)
    exact symbol_of_pair htext rest

end Lexeme

/-! ## Reading one lexeme -/

/-- A token of this kind does not go on with what follows it. -/
def TokenKind.endsBefore (kind : TokenKind) (rest : List Char) : Bool :=
  match kind with
  | .identifier | .keyword _ => rest.head?.all (!Lexeme.continuesWord ·)
  | .number => Lexeme.endsNumeral rest
  | .symbol sign => rest.head?.all (!sign.joins ·)
  | .string | .finish => true

/-- A space ends every lexeme. -/
theorem TokenKind.endsBefore_space (kind : TokenKind) (rest : List Char) :
    kind.endsBefore (' ' :: rest) = true := by
  cases kind with
  | symbol sign => simp [endsBefore, Symbol.joins_space]
  | _ => rfl

theorem TokenKind.endsBefore_nil (kind : TokenKind) : kind.endsBefore [] = true := by
  cases kind <;> rfl

namespace Lexeme

theorem kind_word (text : List Char) :
    (word text).kind =
      (Keyword.ofText? (String.ofList (word text).text)).elim .identifier .keyword := by
  simp only [word]
  cases Keyword.ofText? (String.ofList (text.takeWhile continuesWord)) <;> rfl

theorem word_writtenAs {text : List Char} (hword : isWord (word text).text = true) :
    Spelling.WrittenAs ⟨(word text).kind, String.ofList (word text).text⟩ (word text).text := by
  have hlist : (String.ofList (word text).text).toList = (word text).text := String.toList_ofList
  rw [← hlist] at hword
  rw [kind_word]
  nth_rewrite 3 [← hlist]
  cases hkind : Keyword.ofText? (String.ofList (word text).text) with
  | some keyword => exact .keyword hword hkind
  | none => exact .identifier hword hkind

/-- What is read off the front of a text is a lexeme. -/
theorem exists_writtenAs_of_read {first : Char} {rest : List Char} {lexeme : Lexeme}
    (hread : read first rest = .ok lexeme) :
    ∃ written, first :: rest = written ++ lexeme.rest ∧
      Spelling.WrittenAs ⟨lexeme.kind, String.ofList lexeme.text⟩ written ∧
      lexeme.lineFeeds = written.count '\n' := by
  unfold read at hread
  split at hread
  case isTrue hquote =>
    split at hread
    case h_1 value feeds after hbody =>
      cases hread
      obtain ⟨body, hrest, hdecodes, hfeeds⟩ := exists_decodes_of_stringBody hbody
      refine ⟨'"' :: (body ++ ['"']), ?_, ?_, ?_⟩
      · simp [hquote, hrest]
      · exact Spelling.WrittenAs.string (by rwa [String.toList_ofList])
      · simp [hfeeds]
    case h_2 => cases hread
  split at hread
  case isTrue hdigit =>
    cases hread
    obtain ⟨htext, hnumeral⟩ := number_spec rest hdigit
    refine ⟨_, htext, ?_, (List.count_eq_zero.mpr hnumeral.lineFeed_not_mem).symm⟩
    have hlist := @String.toList_ofList (number (first :: rest)).text
    rw [← hlist] at hnumeral
    nth_rewrite 2 [← hlist]
    exact .number hnumeral
  split at hread
  case isTrue hword =>
    cases hread
    obtain ⟨htext, hisWord⟩ := word_spec rest hword
    exact ⟨_, htext, word_writtenAs hisWord,
      (List.count_eq_zero.mpr (not_mem_of_isWord hisWord (by decide))).symm⟩
  case isFalse hword =>
    rcases symbol_cases first rest with ⟨sign, after, htext, hsymbol⟩ | ⟨-, hsymbol⟩
    · cases hread.symm.trans hsymbol
      refine ⟨_, htext, ?_, ?_⟩
      · simpa using Spelling.WrittenAs.symbol sign
      · cases sign <;> rfl
    · cases hread.symm.trans hsymbol

end Lexeme

/-- No lexeme starts with `first` and goes on with `rest`, for this cause. -/
def LexCause.Blames (cause : LexCause) (first : Char) (rest : List Char) : Prop :=
  match cause with
  | .unexpected char =>
    char = first ∧ ∀ spelling more, ¬ Spelling.WrittenAs spelling (first :: more)
  | .unterminated =>
    first = '"' ∧ ∀ body value after, Lexeme.Decodes body value → rest ≠ body ++ '"' :: after

namespace Lexeme

/-- A word, a numeral, a sign or a string starts in its own way. -/
theorem writtenAs_first {spelling : Spelling} {written : List Char}
    (hwritten : spelling.WrittenAs written) :
    ∃ first more, written = first :: more ∧
      (first = '"' ∨ isDigit first = true ∨ startsWord first = true ∨
        (Symbol.ofText? (String.ofList [first])).isSome = true) := by
  cases hwritten with
  | @identifier text hword | @keyword text _ hword =>
      obtain ⟨first, more, hcons, hfirst⟩ := exists_cons_of_isWord hword
      exact ⟨first, more, hcons, .inr (.inr (.inl hfirst))⟩
  | number hnumeral =>
      obtain ⟨first, more, hcons, hdigit⟩ := hnumeral.exists_cons
      exact ⟨first, more, hcons, .inr (.inl hdigit)⟩
  | symbol sign =>
      rcases sign.length_text with ⟨first, htext⟩ | ⟨first, second, htext⟩
      all_goals exact ⟨first, _, htext, .inr (.inr (.inr (Symbol.isSome_ofText?_first htext)))⟩
  | @string body => exact ⟨'"', body ++ ['"'], rfl, .inl rfl⟩

theorem blames_of_read {first : Char} {rest : List Char} {cause : LexCause}
    (hread : read first rest = .error cause) : cause.Blames first rest := by
  unfold read at hread
  split at hread
  case isTrue hquote =>
    split at hread
    case h_1 => cases hread
    case h_2 hbody =>
      cases hread
      refine ⟨hquote, ?_⟩
      rintro body value after hdecodes rfl
      cases hbody.symm.trans (hdecodes.stringBody_append after)
  case isFalse hquote =>
    split at hread
    case isTrue => cases hread
    case isFalse hdigit =>
      split at hread
      case isTrue => cases hread
      case isFalse hword =>
        rcases symbol_cases first rest with ⟨sign, after, -, hsymbol⟩ | ⟨hnone, hsymbol⟩
        · cases hread.symm.trans hsymbol
        · cases hread.symm.trans hsymbol
          refine ⟨rfl, ?_⟩
          intro spelling more hwritten
          obtain ⟨_, _, heq, hfirst⟩ := writtenAs_first hwritten
          cases heq
          simp_all

theorem toNat_of_continuesWord {char : Char} (hword : continuesWord char = true) :
    48 ≤ char.toNat ∧ char.toNat ≤ 122 := by
  simp only [continuesWord, startsWord, isDigit, Bool.or_eq_true, Bool.and_eq_true,
    decide_eq_true_eq, beq_iff_eq] at hword
  rcases hword with ((hlower | hupper) | rfl) | hdigit
  · exact ⟨le_trans (by decide) hlower.1, hlower.2⟩
  · exact ⟨le_trans (by decide) hupper.1, le_trans hupper.2 (by decide)⟩
  · decide
  · exact ⟨hdigit.1, le_trans hdigit.2 (by decide)⟩

theorem isBlank_of_continuesWord {char : Char} (hword : continuesWord char = true) :
    Text.isBlank char = false := by
  have hbounds := toNat_of_continuesWord hword
  simp only [Text.isBlank, Text.blankRanges, List.any_cons, List.any_nil, Bool.or_false,
    Bool.or_eq_false_iff, Bool.and_eq_false_iff, decide_eq_false_iff_not]
  omega

theorem isDigit_of_startsWord {char : Char} (hword : startsWord char = true) :
    isDigit char = false := by
  simp only [startsWord, isDigit, Bool.or_eq_true, Bool.and_eq_true, decide_eq_true_eq, beq_iff_eq,
    Bool.and_eq_false_iff, decide_eq_false_iff_not] at hword ⊢
  right
  rcases hword with (hlower | hupper) | rfl
  · exact not_le.mpr (lt_of_lt_of_le (by decide) hlower.1)
  · exact not_le.mpr (lt_of_lt_of_le (by decide) hupper.1)
  · decide

theorem ne_quote_of_continuesWord {char : Char} (hword : continuesWord char = true) :
    char ≠ '"' := by
  rintro rfl
  exact absurd hword (by decide)

theorem read_of_isDigit {first : Char} (hdigit : isDigit first = true) (rest : List Char) :
    read first rest = .ok (number (first :: rest)) := by
  have hquote : first ≠ '"' := ne_quote_of_continuesWord (by simp [continuesWord, hdigit])
  rw [read, if_neg hquote, if_pos hdigit]

theorem read_of_startsWord {first : Char} (hword : startsWord first = true) (rest : List Char) :
    read first rest = .ok (word (first :: rest)) := by
  have hquote : first ≠ '"' := ne_quote_of_continuesWord (by simp [continuesWord, hword])
  rw [read, if_neg hquote, isDigit_of_startsWord hword, if_neg Bool.false_ne_true, if_pos hword]

theorem read_of_sign {sign : Symbol} {first : Char} {more : List Char}
    (htext : sign.text.toList = first :: more) (rest : List Char) :
    read first rest = symbol first rest := by
  have hfirst : sign.text.toList.head? = some first := by rw [htext, List.head?_cons]
  cases sign <;> cases hfirst <;> rfl

theorem word_append {text : String} {rest : List Char} (hword : isWord text.toList = true)
    (hstop : rest.head?.all (!continuesWord ·) = true) :
    word (text.toList ++ rest) =
      ⟨(Keyword.ofText? text).elim .identifier .keyword, text.toList, 0, rest⟩ := by
  have hall := all_of_isWord hword
  simp only [word, takeWhile_append_of_stop hall hstop, dropWhile_append_of_stop hall hstop,
    String.ofList_toList]
  cases Keyword.ofText? text <;> rfl

/-- A lexeme is read whole before anything that does not go on with it. -/
theorem read_append {spelling : Spelling} {written : List Char}
    (hwritten : spelling.WrittenAs written) {first : Char} {more : List Char}
    (hcons : written = first :: more) {rest : List Char}
    (hends : spelling.kind.endsBefore rest = true) :
    read first (more ++ rest) =
      .ok ⟨spelling.kind, spelling.text.toList, written.count '\n', rest⟩ := by
  cases hwritten with
  | @identifier text hword hkind | @keyword text _ hword hkind =>
      have hfirst : startsWord first = true := by simp_all [isWord]
      rw [read_of_startsWord hfirst, ← List.cons_append, ← hcons, word_append hword hends, hkind,
        List.count_eq_zero.mpr (not_mem_of_isWord hword (by decide))]
      rfl
  | number hnumeral =>
      obtain ⟨_, _, hdigits, hdigit⟩ := hnumeral.exists_cons
      obtain ⟨rfl, rfl⟩ := List.cons.inj (hdigits.symm.trans hcons)
      rw [read_of_isDigit hdigit, ← List.cons_append, ← hcons, hnumeral.number_append hends,
        List.count_eq_zero.mpr hnumeral.lineFeed_not_mem]
  | symbol sign =>
      rw [read_of_sign hcons, symbol_append hcons hends]
      cases sign <;> rfl
  | @string body value hbody =>
      obtain ⟨rfl, rfl⟩ := List.cons.inj hcons
      simp [read, hbody.stringBody_append]

end Lexeme

end Tide
