import Tide.Text.Blank
import Tide.Text.Quoted
import Tide.Token.Basic

/-!
# Reading tokens

A source is a sequence of lexemes with gaps between them.  A gap is blank or a comment that starts
with `#` or `//` and ends before the next line feed.  Every lexeme leaves a shorter text, so reading
ends.
-/

namespace Tide

/-- Why a text is not a sequence of tokens. -/
inductive LexCause where
  /-- No token starts with this character. -/
  | unexpected (char : Char)
  /-- A string has no closing quote. -/
  | unterminated
  deriving DecidableEq

def LexCause.message : LexCause → String
  | unexpected char => "unexpected character in stream: `" ++ Text.escapedChar char ++ "`"
  | unterminated => "unterminated string literal"

structure LexError where
  line : Nat
  cause : LexCause
  deriving DecidableEq

/-- A lexeme at the front of a text, and what follows it. -/
structure Lexeme where
  kind : TokenKind
  text : List Char
  /-- How many lines the lexeme goes down. -/
  lineFeeds : Nat
  rest : List Char

namespace Lexeme

def isDigit (char : Char) : Bool := '0' ≤ char && char ≤ '9'

/-- Words start with an ASCII letter or an underscore. -/
def startsWord (char : Char) : Bool :=
  ('a' ≤ char && char ≤ 'z') || ('A' ≤ char && char ≤ 'Z') || char == '_'

def continuesWord (char : Char) : Bool := startsWord char || isDigit char

/-- The character that a backslash and `char` stand for. -/
def unescape (char : Char) : Char :=
  match char with
  | 'n' => '\n'
  | 't' => '\t'
  | 'r' => '\r'
  | char => char

/-- One when the character ends a line. -/
def lineFeed (char : Char) : Nat := if char = '\n' then 1 else 0

/-- The value of a string after its opening quote, the lines it goes down, and what follows it. -/
def stringBody : List Char → Option (List Char × Nat × List Char)
  | [] => none
  | '"' :: rest => some ([], 0, rest)
  | ['\\'] => none
  | '\\' :: char :: rest =>
    match stringBody rest with
    | none => none
    | some (value, feeds, after) => some (unescape char :: value, lineFeed char + feeds, after)
  | char :: rest =>
    match stringBody rest with
    | none => none
    | some (value, feeds, after) => some (char :: value, lineFeed char + feeds, after)

/-- A point and the digits after it, if there are any. -/
def fractionPart (text : List Char) : List Char × List Char :=
  match text with
  | '.' :: rest =>
    match rest.takeWhile isDigit with
    | [] => ([], text)
    | digits => ('.' :: digits, rest.dropWhile isDigit)
  | _ => ([], text)

/-- The sign of an exponent, if it has one. -/
def signPart (text : List Char) : List Char × List Char :=
  match text with
  | '+' :: rest => (['+'], rest)
  | '-' :: rest => (['-'], rest)
  | _ => ([], text)

/-- The mark of an exponent, its sign and its digits.  Without digits there is no exponent. -/
def exponentPart (text : List Char) : List Char × List Char :=
  match text with
  | mark :: rest =>
    if mark = 'e' ∨ mark = 'E' then
      match (signPart rest).2.takeWhile isDigit with
      | [] => ([], text)
      | digits => (mark :: (signPart rest).1 ++ digits, (signPart rest).2.dropWhile isDigit)
    else ([], text)
  | [] => ([], text)

/-- A number: digits, perhaps a fraction, perhaps an exponent. -/
def number (text : List Char) : Lexeme :=
  let fraction := fractionPart (text.dropWhile isDigit)
  let exponent := exponentPart fraction.2
  ⟨.number, text.takeWhile isDigit ++ fraction.1 ++ exponent.1, 0, exponent.2⟩

/-- A word, which is an identifier unless it is reserved. -/
def word (text : List Char) : Lexeme :=
  let spelling := text.takeWhile continuesWord
  let kind :=
    match Keyword.ofText? (String.ofList spelling) with
    | some keyword => .keyword keyword
    | none => .identifier
  ⟨kind, spelling, 0, text.dropWhile continuesWord⟩

/-- A sign of two characters, or else of one. -/
def symbol (first : Char) (rest : List Char) : Except LexCause Lexeme :=
  let single : Except LexCause Lexeme :=
    match Symbol.ofText? (String.ofList [first]) with
    | some sign => .ok ⟨.symbol sign, [first], 0, rest⟩
    | none => .error (.unexpected first)
  match rest with
  | second :: rest =>
    match Symbol.ofText? (String.ofList [first, second]) with
    | some sign => .ok ⟨.symbol sign, [first, second], 0, rest⟩
    | none => single
  | [] => single

/-- The lexeme that starts with `first`, which is neither blank nor starts a comment. -/
def read (first : Char) (rest : List Char) : Except LexCause Lexeme :=
  if first = '"' then
    match stringBody rest with
    | some (value, feeds, after) => .ok ⟨.string, value, feeds, after⟩
    | none => .error .unterminated
  else if isDigit first then .ok (number (first :: rest))
  else if startsWord first then .ok (word (first :: rest))
  else symbol first rest

theorem length_dropWhile_le (isMember : Char → Bool) (text : List Char) :
    (text.dropWhile isMember).length ≤ text.length :=
  (List.dropWhile_sublist isMember).length_le

theorem stringBody_shorter {text value after : List Char} {feeds : Nat}
    (hbody : stringBody text = some (value, feeds, after)) : after.length < text.length := by
  fun_induction stringBody text generalizing value feeds after with
  | case1 => simp at hbody
  | case2 rest => simp_all
  | case3 => simp at hbody
  | case4 => simp at hbody
  | case5 char rest _ _ _ heq ih => grind
  | case6 => simp at hbody
  | case7 => grind

theorem fractionPart_rest_le (text : List Char) :
    (fractionPart text).2.length ≤ text.length := by
  unfold fractionPart
  split
  · split
    · simp
    · exact Nat.le_succ_of_le (length_dropWhile_le _ _)
  · simp

theorem signPart_rest_le (text : List Char) : (signPart text).2.length ≤ text.length := by
  unfold signPart
  split <;> simp

theorem exponentPart_rest_le (text : List Char) :
    (exponentPart text).2.length ≤ text.length := by
  unfold exponentPart
  split
  · split
    · split
      · simp
      · exact Nat.le_succ_of_le
          (Nat.le_trans (length_dropWhile_le _ _) (signPart_rest_le _))
    · simp
  · simp

theorem number_rest_le {first : Char} (rest : List Char) (hdigit : isDigit first = true) :
    (number (first :: rest)).rest.length ≤ rest.length := by
  have hdrop : (first :: rest).dropWhile isDigit = rest.dropWhile isDigit := by
    simp [List.dropWhile, hdigit]
  simp only [number, hdrop]
  exact Nat.le_trans (exponentPart_rest_le _)
    (Nat.le_trans (fractionPart_rest_le _) (length_dropWhile_le _ _))

theorem word_rest_le {first : Char} (rest : List Char) (hword : startsWord first = true) :
    (word (first :: rest)).rest.length ≤ rest.length := by
  have hdrop : (first :: rest).dropWhile continuesWord = rest.dropWhile continuesWord := by
    simp [List.dropWhile, continuesWord, hword]
  simp only [word, hdrop]
  exact length_dropWhile_le _ _

theorem symbol_rest_le {first : Char} {rest : List Char} {lexeme : Lexeme}
    (hsymbol : symbol first rest = .ok lexeme) : lexeme.rest.length ≤ rest.length := by
  unfold symbol at hsymbol
  grind

/-- Reading a lexeme leaves no more than what followed its first character. -/
theorem read_rest_le {first : Char} {rest : List Char} {lexeme : Lexeme}
    (hread : read first rest = .ok lexeme) : lexeme.rest.length ≤ rest.length := by
  unfold read at hread
  split at hread
  · split at hread
    · rename_i hbody
      cases hread
      exact Nat.le_of_lt (stringBody_shorter hbody)
    · cases hread
  · split at hread
    · rename_i hdigit
      cases hread
      exact number_rest_le rest hdigit
    · split at hread
      · rename_i hword
        cases hread
        exact word_rest_le rest hword
      · exact symbol_rest_le hread

end Lexeme

namespace Token

/-- A comment starts with this character and these that follow it. -/
def startsComment (first : Char) (rest : List Char) : Bool :=
  first == '#' || (first == '/' && rest.head? == some '/')

/-- The tokens of a text whose first character stands on `line`. -/
def scanFrom (line : Nat) : List Char → Except LexError (List Token)
  | [] => .ok [finish line]
  | first :: rest =>
    if first = '\n' then scanFrom (line + 1) rest
    else if Text.isBlank first then scanFrom line rest
    else if startsComment first rest then scanFrom line (rest.dropWhile (· != '\n'))
    else
      match _hread : Lexeme.read first rest with
      | .error cause => .error ⟨line, cause⟩
      | .ok lexeme =>
        match scanFrom (line + lexeme.lineFeeds) lexeme.rest with
        | .error error => .error error
        | .ok tokens => .ok (⟨lexeme.kind, String.ofList lexeme.text, line⟩ :: tokens)
termination_by text => text.length
decreasing_by
  · simp
  · simp
  · exact Nat.lt_succ_of_le (Lexeme.length_dropWhile_le _ _)
  · exact Nat.lt_succ_of_le (Lexeme.read_rest_le _hread)

/-- The tokens of a source text, with the finishing token last. -/
def scan (source : String) : Except LexError (List Token) :=
  scanFrom 1 source.toList

end Token

end Tide
