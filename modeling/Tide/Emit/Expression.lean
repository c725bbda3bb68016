import Tide.Number.Decimal
import Tide.Tree.Stmt

/-!
# Expressions as C++

Every operator is put in parentheses, so the text groups as the tree does.  Numbers are written so
that C++ takes them for doubles, and texts so that it reads the same characters back.
-/

namespace Tide

namespace Number

/-- A double literal.  Whole numbers have a point or an exponent, and negative ones parentheses. -/
def cppText (number : Number) : String :=
  if number.isNaN then "NAN"
  else if number.isInfinite then if number.isNegative then "(-HUGE_VAL)" else "HUGE_VAL"
  else
    let text :=
      if number.isWhole then
        if number.isBelow (Nat.pow 10 15) then number.wholeText else number.scientificText
      else number.plainText
    if number.isNegative then "(" ++ text ++ ")" else text

end Number

namespace Emit

/-- A character of a C++ string literal.  Octal escapes have three digits, so that they end before
any digit that follows. -/
def escapedChar (char : Char) : List Char :=
  match char with
  | '\\' => ['\\', '\\']
  | '"' => ['\\', '"']
  | '\n' => ['\\', 'n']
  | '\t' => ['\\', 't']
  | '\r' => ['\\', 'r']
  | char =>
    let code := char.toNat
    if code < 0x20 || code = 0x7f then
      ['\\', Nat.digitChar (code / 64), Nat.digitChar (code / 8 % 8), Nat.digitChar (code % 8)]
    else [char]

/-- The body of the C++ string literal for a text. -/
def escape (text : String) : String :=
  String.ofList (text.toList.flatMap escapedChar)

/-- The text without line ends, which would end a line comment. -/
def commentSafe (text : String) : String :=
  String.ofList (text.toList.map fun char => if char = '\n' ∨ char = '\r' then ' ' else char)

/-- The C++ type for a written type.  A type that the language does not know stays as it is. -/
def typeText (type : TypeName) : String :=
  if type ∈ ["number", "double", "float"] then "double"
  else if type ∈ ["int", "long"] then "long long"
  else if type = "string" then "std::string"
  else if type ∈ ["bool", "boolean"] then "bool"
  else type

def booleanText (value : Bool) : String :=
  if value then "true" else "false"

end Emit

def Literal.cppText : Literal → String
  | .number value => value.cppText
  | .string text => "std::string(\"" ++ Emit.escape text ++ "\")"
  | .boolean value => Emit.booleanText value

namespace Expr

mutual

def cppText : Expr → String
  | literal _ value => value.cppText
  | name _ text => text
  | unary _ operator operand => "(" ++ operator.text ++ operand.cppText ++ ")"
  | binary _ .modulus left right =>
    "std::fmod(" ++ left.cppText ++ ", " ++ right.cppText ++ ")"
  | binary _ operator left right =>
    "(" ++ left.cppText ++ " " ++ operator.text ++ " " ++ right.cppText ++ ")"
  | ternary _ condition positive negative =>
    "(" ++ condition.cppText ++ " ? " ++ positive.cppText ++ " : " ++ negative.cppText ++ ")"
  | call _ callee arguments =>
    callee.cppText ++ "(" ++ ", ".intercalate (cppTexts arguments) ++ ")"
  | index _ target place => target.cppText ++ "[" ++ place.cppText ++ "]"
  | member _ target field => target.cppText ++ "." ++ field

def cppTexts : List Expr → List String
  | [] => []
  | expression :: rest => expression.cppText :: cppTexts rest

end

/-- What is inserted into the output one after the other to print the expression: the operands of a
chain with text in it, or else its value. -/
def printed (expression : Expr) : List Expr :=
  if expression.concatenatesText then expression.chain else [expression]

end Expr

end Tide
