import Tide.Text.Hidden

/-!
# Quoted text

Three ways to write a character so that it can be seen and read back: inside a quoted text, on its
own in a message, and inside a quoted JSON text.
-/

namespace Tide.Text

/-- The code point in hexadecimal between braces. -/
def codePointEscape (char : Char) : List Char :=
  ['\\', 'u', '\x7b'] ++ Nat.toDigits 16 char.toNat ++ ['\x7d']

/-- A character inside double quotes.  Hidden characters are written by their code point. -/
def quotedChar (char : Char) : List Char :=
  match char with
  | '"' => ['\\', '"']
  | '\\' => ['\\', '\\']
  | '\n' => ['\\', 'n']
  | '\r' => ['\\', 'r']
  | '\t' => ['\\', 't']
  | '\x00' => ['\\', '0']
  | char => if isHidden char then codePointEscape char else [char]

/-- The text in double quotes, with everything that could not be seen escaped. -/
def quoted (text : String) : String :=
  String.ofList ('"' :: text.toList.flatMap quotedChar ++ ['"'])

/-- A character on its own in a message.  Everything outside printable ASCII is escaped. -/
def escapedChar (char : Char) : String :=
  String.ofList <|
    match char with
    | '\t' => ['\\', 't']
    | '\r' => ['\\', 'r']
    | '\n' => ['\\', 'n']
    | '\'' => ['\\', '\'']
    | '"' => ['\\', '"']
    | '\\' => ['\\', '\\']
    | char =>
      if 0x20 ≤ char.toNat && char.toNat ≤ 0x7e then [char] else codePointEscape char

/-- The value of a code point below 0x20 in two hexadecimal digits. -/
def twoHexDigits (code : Nat) : List Char :=
  [Nat.digitChar (code / 16 % 16), Nat.digitChar (code % 16)]

/-- A character of a JSON string.  Only the quote, the backslash and controls are escaped. -/
def jsonChar (char : Char) : List Char :=
  match char with
  | '"' => ['\\', '"']
  | '\\' => ['\\', '\\']
  | '\x08' => ['\\', 'b']
  | '\x0c' => ['\\', 'f']
  | '\n' => ['\\', 'n']
  | '\r' => ['\\', 'r']
  | '\t' => ['\\', 't']
  | char =>
    if char.toNat < 0x20 then ['\\', 'u', '0', '0'] ++ twoHexDigits char.toNat else [char]

/-- The text as a JSON string. -/
def jsonString (text : String) : String :=
  String.ofList ('"' :: text.toList.flatMap jsonChar ++ ['"'])

end Tide.Text
