import Tide.Grammar.Error
import Tide.Number.Reading
import Tide.Tree.Expr

/-!
# Reading along the tokens

A cursor stands before the tokens that are still to be read.  The finishing token stands behind the
last of them for ever: it can be looked at, and it is never passed.
-/

namespace Tide

/-- A token that started no statement, met on the way. -/
structure Note where
  line : Nat
  text : String
  deriving DecidableEq

/-- A place in a list of tokens. -/
structure Cursor where
  /-- The tokens ahead, none of them a finishing one. -/
  tokens : List Token
  finish : Token
  /-- What was noted so far, the latest first. -/
  notes : List Note

/-- Reads a value at the cursor and moves it, or fails. -/
abbrev Parser := EStateM ParseError Cursor

namespace Cursor

/-- A list may hold finishing tokens anywhere: the first one ends it.  A list without any is
finished on the line of its last token. -/
def ofTokens (tokens : List Token) : Cursor where
  tokens := tokens.takeWhile (·.kind != .finish)
  finish :=
    match tokens.find? (·.kind == .finish) with
    | some finish => finish
    | none => Token.finish ((tokens.getLast?.map (·.line)).getD 1)
  notes := []

/-- The token ahead. -/
def head (cursor : Cursor) : Token :=
  cursor.tokens.headD cursor.finish

/-- The bound on nesting for reading from here.  Every step down the grammar takes one off, and
between two tokens there are fewer than sixteen. -/
def nesting (cursor : Cursor) : Nat :=
  16 * (cursor.tokens.length + 1)

end Cursor

namespace Parser

/-- The token ahead. -/
def peek : Parser Token := fun cursor => .ok cursor.head cursor

/-- Reads the token ahead, whatever it is. -/
def next : Parser Token := fun cursor =>
  match cursor.tokens with
  | [] => .ok cursor.finish cursor
  | token :: rest => .ok token { cursor with tokens := rest }

def failAt {α : Type} (line : Nat) (cause : ParseCause) : Parser α :=
  throw ⟨line, cause⟩

/-- Fails because of the token ahead. -/
def failHere {α : Type} (cause : ParseCause) : Parser α := do
  let token ← peek
  failAt token.line cause

/-- Fails because the token ahead is not `what`. -/
def expected {α : Type} (what : Expectation) : Parser α := do
  let token ← peek
  failAt token.line (.expected what token)

/-- Fails because the bound on nesting is used up. -/
def tooDeep {α : Type} : Parser α := failHere .tooDeep

/-- Reads the sign if it is ahead. -/
def tryPunctuation (sign : Symbol) : Parser Bool := do
  let token ← peek
  if token.isSymbol sign then
    let _ ← next
    return true
  else return false

/-- Reads the word if it is ahead. -/
def tryWord (word : Keyword) : Parser Bool := do
  let token ← peek
  if token.isKeyword word then
    let _ ← next
    return true
  else return false

/-- Reads the sign, which has to be ahead. -/
def expectSymbol (sign : Symbol) : Parser Token := do
  let token ← peek
  if token.isSymbol sign then next else expected (.symbol sign)

/-- Reads the word, which has to be ahead. -/
def expectKeyword (word : Keyword) (what : Expectation) : Parser Token := do
  let token ← peek
  if token.isKeyword word then next else expected what

/-- Reads an identifier, which has to be ahead. -/
def identifier (what : Expectation) : Parser String := do
  let token ← peek
  if token.isIdentifier then
    let token ← next
    return token.text
  else expected what

/-- Passes any number of semicolons. -/
def skipSeparators : Parser Unit := fun cursor =>
  .ok () { cursor with tokens := cursor.tokens.dropWhile (·.isSymbol .semicolon) }

def note (note : Note) : Parser Unit := fun cursor =>
  .ok () { cursor with notes := note :: cursor.notes }

/-- The value of a number token. -/
def numberValue (token : Token) : Parser Number :=
  match Number.ofText? token.text.toList with
  | some value => return value
  | none => failAt token.line (.invalidNumber token.text)

/-- A literal, where a number may have a minus in front. -/
def literal : Parser Literal := do
  let negative ← tryPunctuation .minus
  let token ← peek
  match token.kind, negative with
  | .number, _ =>
    let value ← numberValue token
    let _ ← next
    return .number (if negative then -value else value)
  | .string, false =>
    let _ ← next
    return .string token.text
  | .keyword .trueWord, false =>
    let _ ← next
    return .boolean true
  | .keyword .falseWord, false =>
    let _ ← next
    return .boolean false
  | _, _ => expected .literal

/-- The tokens up to the parenthesis that closes `depth + 1` open ones, and those after it. -/
def untilClosed : (depth : Nat) → List Token → Option (List Token × List Token)
  | _, [] => none
  | depth, token :: rest =>
    if token.isSymbol .openParen then
      (untilClosed (depth + 1) rest).map fun (inside, after) => (token :: inside, after)
    else if token.isSymbol .closeParen then
      match depth with
      | 0 => some ([], rest)
      | depth + 1 => (untilClosed depth rest).map fun (inside, after) => (token :: inside, after)
    else (untilClosed depth rest).map fun (inside, after) => (token :: inside, after)

/-- The source text of some tokens, with one space between two. -/
def joinedText (tokens : List Token) : String :=
  " ".intercalate (tokens.map Token.sourceText)

/-- The text between balanced parentheses, which is not looked into. -/
def rawText (what : RawText) : Parser String := do
  let opening ← expectSymbol .openParen
  fun cursor =>
    match untilClosed 0 cursor.tokens with
    | some (inside, after) => .ok (joinedText inside) { cursor with tokens := after }
    | none => .error ⟨opening.line, .unclosedRaw what⟩ { cursor with tokens := [] }

end Parser

end Tide
