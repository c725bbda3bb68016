import Tide.Grammar.Cursor

/-!
# Reading expressions

Binary operators are read by precedence climbing: all of them lean to the left, and the right
operand of one takes only those that bind tighter.  A ternary is outermost and leans to the right;
calls, indexing and member access are innermost.

The grammar is recursive, and `fuel` bounds how deep it is followed.
-/

namespace Tide

namespace Token

/-- The binary operator that a sign stands for. -/
def binaryOp? (token : Token) : Option BinaryOp :=
  match token.kind with
  | .symbol .logicalOr => some .logicalOr
  | .symbol .logicalAnd => some .logicalAnd
  | .symbol .doubleEquals => some .equals
  | .symbol .notEquals => some .notEquals
  | .symbol .lessThan => some .lessThan
  | .symbol .greaterThan => some .greaterThan
  | .symbol .lessOrEqual => some .lessOrEqual
  | .symbol .greaterOrEqual => some .greaterOrEqual
  | .symbol .plus => some .add
  | .symbol .minus => some .subtract
  | .symbol .asterisk => some .multiply
  | .symbol .divide => some .divide
  | .symbol .modulus => some .modulus
  | _ => none

/-- The unary operator that a sign stands for. -/
def unaryOp? (token : Token) : Option UnaryOp :=
  match token.kind with
  | .symbol .bang => some .complement
  | .symbol .minus => some .negate
  | _ => none

/-- An expression can start with this token. -/
def startsExpression (token : Token) : Bool :=
  match token.kind with
  | .identifier | .number | .string | .keyword .trueWord | .keyword .falseWord
  | .symbol .openParen | .symbol .minus | .symbol .bang => true
  | _ => false

/-- The identifiers that go on with a name, each after `::`, and the tokens after them. -/
def qualifiers : List Token → List String × List Token
  | separator :: name :: rest =>
    if separator.isSymbol .doubleColon && name.isIdentifier then
      let (names, after) := qualifiers rest
      (name.text :: names, after)
    else ([], separator :: name :: rest)
  | tokens => ([], tokens)

end Token

namespace Parser

/-- The rest of a name after its first identifier. -/
def qualifiedName (first : String) : Parser String := fun cursor =>
  let (names, after) := Token.qualifiers cursor.tokens
  .ok ("::".intercalate (first :: names)) { cursor with tokens := after }

mutual

/-- `binary ("?" expression ":" expression)?` -/
def expression : (fuel : Nat) → Parser Expr
  | 0 => tooDeep
  | fuel + 1 => do
    let condition ← binary 1 fuel
    let question ← peek
    if question.isSymbol .question then
      let _ ← next
      let positive ← expression fuel
      let _ ← expectSymbol .colon
      let negative ← expression fuel
      return .ternary question.line condition positive negative
    else return condition

/-- Unary expressions joined by operators of at least the precedence `least`. -/
def binary (least : Nat) : (fuel : Nat) → Parser Expr
  | 0 => tooDeep
  | fuel + 1 => do
    let left ← unary fuel
    binaryAfter least left fuel

/-- What follows the left operand `left`. -/
def binaryAfter (least : Nat) (left : Expr) : (fuel : Nat) → Parser Expr
  | 0 => tooDeep
  | fuel + 1 => do
    let token ← peek
    match token.binaryOp? with
    | none => return left
    | some operator =>
      if operator.precedence < least then return left
      else
        let _ ← next
        let right ← binary (operator.precedence + 1) fuel
        binaryAfter least (.binary token.line operator left right) fuel

/-- `("!" | "-") unary | primary suffix*` -/
def unary : (fuel : Nat) → Parser Expr
  | 0 => tooDeep
  | fuel + 1 => do
    let token ← peek
    match token.unaryOp? with
    | some operator =>
      let _ ← next
      let operand ← unary fuel
      return .unary token.line operator operand
    | none =>
      let target ← primary fuel
      suffixes target fuel

/-- `( "(" arguments ")" | "[" expression "]" | "." IDENTIFIER )*` -/
def suffixes (target : Expr) : (fuel : Nat) → Parser Expr
  | 0 => tooDeep
  | fuel + 1 => do
    let token ← peek
    match token.kind with
    | .symbol .openParen =>
      let _ ← next
      let arguments ← arguments fuel
      let _ ← expectSymbol .closeParen
      suffixes (.call token.line target arguments) fuel
    | .symbol .openBracket =>
      let _ ← next
      let index ← expression fuel
      let _ ← expectSymbol .closeBracket
      suffixes (.index token.line target index) fuel
    | .symbol .dot =>
      let _ ← next
      let name ← identifier .memberName
      suffixes (.member token.line target name) fuel
    | _ => return target

/-- The arguments of a call up to the closing parenthesis. -/
def arguments : (fuel : Nat) → Parser (List Expr)
  | 0 => tooDeep
  | fuel + 1 => do
    let token ← peek
    if token.isSymbol .closeParen then return []
    else
      let first ← expression fuel
      let rest ← moreArguments fuel
      return first :: rest

/-- `("," expression)*` -/
def moreArguments : (fuel : Nat) → Parser (List Expr)
  | 0 => tooDeep
  | fuel + 1 => do
    if ← tryPunctuation .comma then
      let argument ← expression fuel
      let rest ← moreArguments fuel
      return argument :: rest
    else return []

/-- A literal, a name, or an expression in parentheses. -/
def primary : (fuel : Nat) → Parser Expr
  | 0 => tooDeep
  | fuel + 1 => do
    let token ← peek
    match token.kind with
    | .number =>
      let _ ← next
      let value ← numberValue token
      return .literal token.line (.number value)
    | .string =>
      let _ ← next
      return .literal token.line (.string token.text)
    | .keyword .trueWord =>
      let _ ← next
      return .literal token.line (.boolean true)
    | .keyword .falseWord =>
      let _ ← next
      return .literal token.line (.boolean false)
    | .identifier =>
      let _ ← next
      let name ← qualifiedName token.text
      return .name token.line name
    | .symbol .openParen =>
      let _ ← next
      let inner ← expression fuel
      let _ ← expectSymbol .closeParen
      return inner
    | _ => expected .expression

end

/-- `( "[" expression "]" | "." IDENTIFIER )*` after an assignment target that starts on `line`. -/
def targetSuffixes (line : Nat) (target : Expr) : (fuel : Nat) → Parser Expr
  | 0 => tooDeep
  | fuel + 1 => do
    if ← tryPunctuation .openBracket then
      let index ← expression fuel
      let _ ← expectSymbol .closeBracket
      targetSuffixes line (.index line target index) fuel
    else if ← tryPunctuation .dot then
      let name ← identifier .memberName
      targetSuffixes line (.member line target name) fuel
    else return target

/-- What can be assigned to: a variable, or a place in one. -/
def assignmentTarget (fuel : Nat) : Parser Expr := do
  let token ← peek
  let name ← identifier .assignmentTarget
  targetSuffixes token.line (.name token.line name) fuel

/-- `"(" expression "," expression ")"` -/
def pair (fuel : Nat) : Parser (Expr × Expr) := do
  let _ ← expectSymbol .openParen
  let first ← expression fuel
  let _ ← expectSymbol .comma
  let second ← expression fuel
  let _ ← expectSymbol .closeParen
  return (first, second)

end Parser

/-- The expression that some tokens start with. -/
def Expr.ofTokens (tokens : List Token) : Except ParseError Expr :=
  let cursor := Cursor.ofTokens tokens
  match Parser.expression cursor.nesting cursor with
  | .ok expression _ => .ok expression
  | .error error _ => .error error

end Tide
