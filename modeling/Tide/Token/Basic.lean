/-!
# Tokens

The words and signs a Tide source is made of.  A token keeps the text it was written with, and the
line it starts on.
-/

namespace Tide

/-- The reserved words.  `Print`, `Fn` and `ret` have a second spelling each. -/
inductive Keyword where
  | print
  | input
  | read
  | write
  | append
  | letWord
  | constWord
  | fnWord
  | method
  | routine
  | classWord
  | structWord
  | publicWord
  | privateWord
  | protectedWord
  | ifWord
  | elseWord
  | whileWord
  | forWord
  | breakWord
  | continueWord
  | returnWord
  | switchWord
  | caseWord
  | defaultWord
  | matchWord
  | tryWord
  | catchWord
  | throwWord
  | overlay
  | pureWord
  | mutate
  | scale
  | bounds
  | checkpoint
  | duration
  | derivative
  | wrt
  | splice
  | channel
  | send
  | recv
  | schedule
  | sync
  | trueWord
  | falseWord
  deriving DecidableEq

namespace Keyword

/-- Every spelling of every reserved word. -/
def spellings : List (String × Keyword) :=
  [("Print", print), ("print", print), ("input", input), ("read", read), ("write", write),
   ("append", append), ("let", letWord), ("const", constWord), ("Fn", fnWord), ("fn", fnWord),
   ("method", method), ("routine", routine), ("class", classWord), ("struct", structWord),
   ("public", publicWord), ("private", privateWord), ("protected", protectedWord),
   ("if", ifWord), ("else", elseWord), ("while", whileWord), ("for", forWord),
   ("break", breakWord), ("continue", continueWord), ("ret", returnWord),
   ("return", returnWord), ("switch", switchWord), ("case", caseWord),
   ("default", defaultWord), ("match", matchWord), ("try", tryWord), ("catch", catchWord),
   ("throw", throwWord), ("overlay", overlay), ("pure", pureWord), ("mutate", mutate),
   ("scale", scale), ("bounds", bounds), ("checkpoint", checkpoint), ("duration", duration),
   ("derivative", derivative), ("wrt", wrt), ("splice", splice), ("channel", channel),
   ("send", send), ("recv", recv), ("schedule", schedule), ("sync", sync), ("true", trueWord),
   ("false", falseWord)]

/-- The reserved word that is spelt so. -/
def ofText? (text : String) : Option Keyword :=
  spellings.lookup text

/-- The words that start the declaration of a function. -/
def startsFunction : Keyword → Bool
  | fnWord | method | routine => true
  | _ => false

end Keyword

/-- The signs. -/
inductive Symbol where
  | lessOrEqual
  | greaterOrEqual
  | doubleEquals
  | notEquals
  | logicalAnd
  | logicalOr
  | plusEquals
  | minusEquals
  | multiplyEquals
  | divideEquals
  | modulusEquals
  | increment
  | decrement
  | arrow
  | doubleColon
  | shiftLeft
  | shiftRight
  | plus
  | minus
  | asterisk
  | divide
  | modulus
  | equals
  | lessThan
  | greaterThan
  | bang
  | openParen
  | closeParen
  | openBrace
  | closeBrace
  | openBracket
  | closeBracket
  | comma
  | dot
  | semicolon
  | colon
  | question
  | pipe
  | ampersand
  deriving DecidableEq

namespace Symbol

def text : Symbol → String
  | lessOrEqual => "<="
  | greaterOrEqual => ">="
  | doubleEquals => "=="
  | notEquals => "!="
  | logicalAnd => "&&"
  | logicalOr => "||"
  | plusEquals => "+="
  | minusEquals => "-="
  | multiplyEquals => "*="
  | divideEquals => "/="
  | modulusEquals => "%="
  | increment => "++"
  | decrement => "--"
  | arrow => "->"
  | doubleColon => "::"
  | shiftLeft => "<<"
  | shiftRight => ">>"
  | plus => "+"
  | minus => "-"
  | asterisk => "*"
  | divide => "/"
  | modulus => "%"
  | equals => "="
  | lessThan => "<"
  | greaterThan => ">"
  | bang => "!"
  | openParen => "("
  | closeParen => ")"
  | openBrace => "\x7b"
  | closeBrace => "\x7d"
  | openBracket => "["
  | closeBracket => "]"
  | comma => ","
  | dot => "."
  | semicolon => ";"
  | colon => ":"
  | question => "?"
  | pipe => "|"
  | ampersand => "&"

def all : List Symbol :=
  [lessOrEqual, greaterOrEqual, doubleEquals, notEquals, logicalAnd, logicalOr, plusEquals,
   minusEquals, multiplyEquals, divideEquals, modulusEquals, increment, decrement, arrow,
   doubleColon, shiftLeft, shiftRight, plus, minus, asterisk, divide, modulus, equals, lessThan,
   greaterThan, bang, openParen, closeParen, openBrace, closeBrace, openBracket, closeBracket,
   comma, dot, semicolon, colon, question, pipe, ampersand]

/-- The sign that is written so. -/
def ofText? (text : String) : Option Symbol :=
  all.find? (·.text == text)

end Symbol

inductive TokenKind where
  | identifier
  | string
  | number
  | keyword (word : Keyword)
  | symbol (sign : Symbol)
  /-- What stands after the last word of a source. -/
  | finish
  deriving DecidableEq

/-- The class of a token as a message names it. -/
def TokenKind.name : TokenKind → String
  | identifier => "identifier"
  | string => "string"
  | number => "number"
  | keyword _ => "keyword"
  | symbol _ => "symbol"
  | finish => "end"

structure Token where
  kind : TokenKind
  /-- The source text, for a string its decoded value. -/
  text : String
  /-- The line the token starts on, counted from one. -/
  line : Nat
  deriving DecidableEq

namespace Token

/-- The token after everything else. -/
def finish (line : Nat) : Token := ⟨.finish, "", line⟩

def isIdentifier (token : Token) : Bool := token.kind = .identifier

def isSymbol (token : Token) (sign : Symbol) : Bool := token.kind = .symbol sign

def isKeyword (token : Token) (word : Keyword) : Bool := token.kind = .keyword word

/-- A character of a string that is written as source text again. -/
def requotedChar (char : Char) : List Char :=
  match char with
  | '"' => ['\\', '"']
  | '\\' => ['\\', '\\']
  | '\n' => ['\\', 'n']
  | '\t' => ['\\', 't']
  | '\r' => ['\\', 'r']
  | char => [char]

/-- Source text that reads as this token. -/
def sourceText (token : Token) : String :=
  match token.kind with
  | .string => String.ofList ('"' :: token.text.toList.flatMap requotedChar ++ ['"'])
  | _ => token.text

end Token

end Tide
