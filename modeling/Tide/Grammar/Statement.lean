import Tide.Grammar.Expression
import Tide.Tree.Stmt

/-!
# Reading statements

A statement is told by its first token: an assignment starts with a target, most others with a
reserved word, and an expression is one on its own.  A token that starts nothing becomes a statement
of its own and is noted.

Overlays belong to the function that follows them.  They are handed down to where that function is
read, so none is left over between two statements.
-/

namespace Tide

namespace Parser

/-- `IDENTIFIER ("::" IDENTIFIER)*` after its first identifier. -/
def typeNameAfter : (fuel : Nat) → Parser (List String)
  | 0 => tooDeep
  | fuel + 1 => do
    if ← tryPunctuation .doubleColon then
      let segment ← identifier .typeName
      let rest ← typeNameAfter fuel
      return segment :: rest
    else return []

def typeName (fuel : Nat) : Parser TypeName := do
  let first ← identifier .typeName
  let rest ← typeNameAfter fuel
  return "::".intercalate (first :: rest)

/-- A type after the sign that announces it. -/
def optionalType (sign : Symbol) (fuel : Nat) : Parser (Option TypeName) := do
  if ← tryPunctuation sign then
    let type ← typeName fuel
    return some type
  else return none

/-- An expression, if one can start here. -/
def optionalExpression (fuel : Nat) : Parser (Option Expr) := do
  let token ← peek
  if token.startsExpression then
    let value ← expression fuel
    return some value
  else return none

/-- `("let" | "const") IDENTIFIER (":" type)? ("=" expression)?` -/
def declaration (fuel : Nat) : Parser Local := do
  let keyword ← next
  let name ← identifier .variableName
  let type ← optionalType .colon fuel
  if ← tryPunctuation .equals then
    let value ← expression fuel
    return ⟨name, keyword.isKeyword .constWord, type, some value⟩
  else return ⟨name, keyword.isKeyword .constWord, type, none⟩

end Parser

namespace Token

/-- The assignment that a sign stands for. -/
def assignOp? (token : Token) : Option AssignOp :=
  match token.kind with
  | .symbol .equals => some .assign
  | .symbol .plusEquals => some .add
  | .symbol .minusEquals => some .subtract
  | .symbol .multiplyEquals => some .multiply
  | .symbol .divideEquals => some .divide
  | .symbol .modulusEquals => some .modulus
  | _ => none

/-- The step that a sign stands for. -/
def stepOp? (token : Token) : Option StepOp :=
  match token.kind with
  | .symbol .increment => some .increment
  | .symbol .decrement => some .decrement
  | _ => none

/-- The token is a literal, without a sign. -/
def startsLiteral (token : Token) : Bool :=
  match token.kind with
  | .string | .number | .keyword .trueWord | .keyword .falseWord => true
  | _ => false

/-- The token starts the declaration of a function. -/
def startsFunction (token : Token) : Bool :=
  match token.kind with
  | .keyword word => word.startsFunction
  | _ => false

/-- What a function is called by the word that declares it. -/
def flavor (token : Token) : FunctionFlavor :=
  match token.kind with
  | .keyword .method => .method
  | .keyword .routine => .routine
  | _ => .function

/-- The access that a label in a class grants. -/
def access? (token : Token) : Option Access :=
  match token.kind with
  | .keyword .publicWord => some .publicAccess
  | .keyword .privateWord => some .privateAccess
  | .keyword .protectedWord => some .protectedAccess
  | _ => none

end Token

namespace Parser

/-- An assignment or a step, if one stands here.  Whatever else stands here is left unread, also
when it starts like a target and goes wrong. -/
def assignment? (fuel : Nat) : Parser (Option Action) := fun cursor =>
  if cursor.head.isIdentifier then
    match assignmentTarget fuel cursor with
    | .error _ _ => .ok none cursor
    | .ok target after =>
      match after.head.assignOp?, after.head.stepOp? with
      | some operator, _ =>
        (do
          let _ ← next
          let value ← expression fuel
          return some (.assign target operator value) : Parser (Option Action)) after
      | none, some operator =>
        (do
          let _ ← next
          return some (.step target operator) : Parser (Option Action)) after
      | none, none => .ok none cursor
  else .ok none cursor

/-- The literals after the name of an overlay. -/
def overlayArguments : (fuel : Nat) → Parser (List Literal)
  | 0 => tooDeep
  | fuel + 1 => do
    let token ← peek
    if token.startsLiteral then
      let argument ← literal
      let rest ← overlayArguments fuel
      return argument :: rest
    else return []

/-- `"overlay" NAME literal*`, where the name may be a reserved word. -/
def overlay (fuel : Nat) : Parser Overlay := do
  let keyword ← next
  let name ← peek
  match name.kind with
  | .identifier | .keyword _ =>
    let _ ← next
    let arguments ← overlayArguments fuel
    return ⟨keyword.line, name.text, arguments⟩
  | _ => expected .overlayName

/-- A run of overlays, of which the first is ahead. -/
def overlays : (fuel : Nat) → Parser (List Overlay)
  | 0 => tooDeep
  | fuel + 1 => do
    let first ← overlay fuel
    skipSeparators
    let token ← peek
    if token.isKeyword .overlay then
      let rest ← overlays fuel
      return first :: rest
    else return [first]

/-- `(STRING ("," STRING)*)?`, one parameter in each string of a function called `name`. -/
def listedParameters (name : String) : (fuel : Nat) → Parser (List Parameter)
  | 0 => tooDeep
  | fuel + 1 => do
    let fragment ← peek
    if fragment.kind = .string then
      let _ ← next
      match Parameter.ofFragment? fragment.text.toList with
      | none => failAt fragment.line (.emptyParameter name)
      | some parameter =>
        if ← tryPunctuation .comma then
          let rest ← listedParameters name fuel
          return parameter :: rest
        else return [parameter]
    else return []

def parameterList (name : String) (fuel : Nat) : Parser ParameterList := do
  let token ← peek
  if token.isSymbol .openParen then
    let text ← rawText .parameterList
    return .raw text
  else
    let parameters ← listedParameters name fuel
    return .listed parameters

/-- `("," IDENTIFIER)*` -/
def moreBases : (fuel : Nat) → Parser (List String)
  | 0 => tooDeep
  | fuel + 1 => do
    if ← tryPunctuation .comma then
      let base ← identifier .baseClass
      let rest ← moreBases fuel
      return base :: rest
    else return []

/-- `(":" IDENTIFIER ("," IDENTIFIER)*)?` -/
def baseClasses (fuel : Nat) : Parser (List String) := do
  if ← tryPunctuation .colon then
    let base ← identifier .baseClass
    let rest ← moreBases fuel
    return base :: rest
  else return []

/-- A literal, or `_` for anything. -/
def pattern : Parser Pattern := do
  let token ← peek
  if token.isIdentifier && token.text == "_" then
    let _ ← next
    return .wildcard
  else
    let value ← literal
    return .literal value

/-- `(("," | "|") pattern)*` -/
def morePatterns : (fuel : Nat) → Parser (List Pattern)
  | 0 => tooDeep
  | fuel + 1 => do
    let token ← peek
    if token.isSymbol .comma || token.isSymbol .pipe then
      let _ ← next
      let first ← pattern
      let rest ← morePatterns fuel
      return first :: rest
    else return []

/-- A time unit, told by the text of the token ahead. -/
def timeUnit : Parser TimeUnit := do
  let token ← next
  match TimeUnit.ofText? token.text with
  | some unit => return unit
  | none => failAt token.line (.unknownTimeUnit token.text)

/-- The statements that hold no block, after their reserved word `word` was seen ahead. -/
def keywordAction (word : Keyword) (fuel : Nat) : Parser Action := do
  match word with
  | .letWord | .constWord =>
    let binding ← declaration fuel
    return .declare binding
  | .trueWord | .falseWord =>
    let value ← expression fuel
    return .evaluate value
  | _ =>
    let keyword ← next
    match word with
    | .print =>
      let value ← optionalExpression fuel
      return .print value
    | .input =>
      let name ← identifier .inputVariable
      return .input name
    | .breakWord => return .breakLoop
    | .continueWord => return .continueLoop
    | .returnWord =>
      let value ← optionalExpression fuel
      return .leave value
    | .read =>
      let path ← expression fuel
      let _ ← expectSymbol .arrow
      let name ← identifier .readVariable
      return .readInto path name
    | .write | .append =>
      let path ← expression fuel
      let _ ← expectSymbol .comma
      let value ← expression fuel
      return .writeOut path value (if word = .append then .append else .truncate)
    | .channel =>
      let name ← identifier .channelName
      let element ← optionalType .colon fuel
      return .channel name element
    | .send =>
      let channel ← identifier .channelName
      let value ← expression fuel
      return .send channel value
    | .recv =>
      let channel ← identifier .channelName
      let _ ← expectSymbol .arrow
      let name ← identifier .receiveVariable
      return .receive channel name
    | .sync => return .sync
    | .mutate =>
      let target ← assignmentTarget fuel
      let _ ← expectSymbol .equals
      let value ← expression fuel
      return .mutate target value
    | .scale =>
      let name ← identifier .scaledVariable
      let source ← pair fuel
      let _ ← expectSymbol .arrow
      let image ← pair fuel
      return .scale name source.1 source.2 image.1 image.2
    | .bounds =>
      let name ← identifier .clampedVariable
      let range ← pair fuel
      return .bounds name range.1 range.2
    | .checkpoint =>
      let label ← peek
      if label.kind = .string then
        let _ ← next
        return .checkpoint (some label.text)
      else return .checkpoint none
    | .duration =>
      let name ← identifier .durationName
      let _ ← expectSymbol .equals
      let amount ← expression fuel
      let unit ← timeUnit
      return .duration name amount unit
    | .derivative =>
      let name ← identifier .derivativeName
      let _ ← expectSymbol .equals
      let body ← expression fuel
      let _ ← expectKeyword .wrt .wrt
      let argument ← identifier .derivativeVariable
      return .derivative name body argument
    | .splice =>
      let payload ← peek
      if payload.kind = .string then
        let _ ← next
        return .splice payload.text
      else expected .splicePayload
    | .throwWord =>
      let value ← expression fuel
      return .raise value
    | _ => return .unknown keyword.kind.name keyword.text

mutual

/-- `"{" statement* "}" | "(" statement* ")"` -/
def block : (fuel : Nat) → Parser Block
  | 0 => tooDeep
  | fuel + 1 => do
    let opening ← peek
    if ← tryPunctuation .openBrace then
      let statements ← statements opening.line .closeBrace fuel
      return ⟨opening.line, statements⟩
    else if ← tryPunctuation .openParen then
      let statements ← statements opening.line .closeParen fuel
      return ⟨opening.line, statements⟩
    else expected .block

/-- Statements up to the sign that closes the block opened on `line`. -/
def statements (line : Nat) (close : Symbol) : (fuel : Nat) → Parser (List Stmt)
  | 0 => tooDeep
  | fuel + 1 => do
    skipSeparators
    if ← tryPunctuation close then return []
    else
      let token ← peek
      if token.kind = .finish then failAt line (.unclosedBlock close)
      else
        let first ← statement fuel
        let rest ← statements line close fuel
        return first :: rest

def statement : (fuel : Nat) → Parser Stmt
  | 0 => tooDeep
  | fuel + 1 => do
    let token ← peek
    match ← assignment? fuel with
    | some action => return .simple token.line action
    | none =>
      match token.kind with
      | .keyword word => keywordStatement token.line word fuel
      | _ =>
        if token.startsExpression then
          let value ← expression fuel
          return .simple token.line (.evaluate value)
        else
          let _ ← next
          note ⟨token.line, token.text⟩
          return .simple token.line (.unknown token.kind.name token.text)

/-- The statement on `line` that starts with the reserved word ahead. -/
def keywordStatement (line : Nat) (word : Keyword) : (fuel : Nat) → Parser Stmt
  | 0 => tooDeep
  | fuel + 1 => do
    match word with
    | .ifWord => branch line fuel
    | .whileWord =>
      let _ ← next
      let condition ← expression fuel
      let body ← block fuel
      return .nested line (.whileLoop condition) body
    | .forWord =>
      let _ ← next
      let header ← rawText .loopHeader
      let body ← block fuel
      return .nested line (.forLoop header) body
    | .schedule =>
      let _ ← next
      let priority ← expression fuel
      let body ← block fuel
      return .nested line (.schedule priority) body
    | .pureWord =>
      let _ ← next
      let body ← block fuel
      return .nested line .pureRegion body
    | .switchWord =>
      let _ ← next
      let scrutinee ← expression fuel
      let _ ← expectSymbol .openBrace
      let (cases, fallback) ← switchClauses none fuel
      return .switch line scrutinee cases fallback
    | .matchWord =>
      let _ ← next
      let scrutinee ← expression fuel
      let _ ← expectSymbol .openBrace
      let (arms, fallback) ← matchClauses none fuel
      return .select line scrutinee arms fallback
    | .tryWord =>
      let _ ← next
      let body ← block fuel
      let _ ← expectKeyword .catchWord .handler
      let binding ← peek
      if binding.isIdentifier then
        let _ ← next
        let handler ← block fuel
        return .attempt line body (some binding.text) handler
      else
        let handler ← block fuel
        return .attempt line body none handler
    | .overlay =>
      let run ← overlays fuel
      let token ← peek
      if token.startsFunction then
        let declaration ← function run fuel
        return .function line declaration
      else return .simple line (.directive run)
    | .fnWord | .method | .routine =>
      let declaration ← function [] fuel
      return .function line declaration
    | .classWord | .structWord =>
      let declaration ← classDeclaration fuel
      return .classDecl line declaration
    | _ =>
      let action ← keywordAction word fuel
      return .simple line action

/-- `"if" expression block ("else" ("if" ... | block))?`, as the statement on `line`. -/
def branch (line : Nat) : (fuel : Nat) → Parser Stmt
  | 0 => tooDeep
  | fuel + 1 => do
    let _ ← next
    let condition ← expression fuel
    let positive ← block fuel
    if ← tryWord .elseWord then
      let token ← peek
      if token.isKeyword .ifWord then
        let negative ← branch token.line fuel
        return .branch line condition positive (some negative)
      else
        let negative ← block fuel
        return .branch line condition positive (some (.nested token.line .block negative))
    else return .branch line condition positive none

/-- The clauses of a switch up to its closing brace.  A later default replaces the default
`fallback` that was read before. -/
def switchClauses (fallback : Option Block) :
    (fuel : Nat) → Parser (List SwitchCase × Option Block)
  | 0 => tooDeep
  | fuel + 1 => do
    skipSeparators
    if ← tryPunctuation .closeBrace then return ([], fallback)
    else if ← tryWord .caseWord then
      let label ← literal
      let body ← block fuel
      let (cases, fallback) ← switchClauses fallback fuel
      return (⟨label, body⟩ :: cases, fallback)
    else if ← tryWord .defaultWord then
      let body ← block fuel
      switchClauses (some body) fuel
    else expected .switchClause

/-- The clauses of a match up to its closing brace.  A later default replaces the default
`fallback` that was read before. -/
def matchClauses (fallback : Option Block) :
    (fuel : Nat) → Parser (List MatchArm × Option Block)
  | 0 => tooDeep
  | fuel + 1 => do
    skipSeparators
    if ← tryPunctuation .closeBrace then return ([], fallback)
    else if ← tryWord .caseWord then
      let first ← pattern
      let rest ← morePatterns fuel
      let body ← block fuel
      let (arms, fallback) ← matchClauses fallback fuel
      return (⟨first :: rest, body⟩ :: arms, fallback)
    else if ← tryWord .defaultWord then
      let body ← block fuel
      matchClauses (some body) fuel
    else expected .matchClause

/-- `("Fn" | "method" | "routine") IDENTIFIER parameters ("->" type)? block`, with the overlays that
were read before it. -/
def function (overlays : List Overlay) : (fuel : Nat) → Parser FunctionDecl
  | 0 => tooDeep
  | fuel + 1 => do
    let keyword ← next
    let name ← identifier .functionName
    let parameters ← parameterList name fuel
    let result ← optionalType .arrow fuel
    let body ← block fuel
    return ⟨keyword.line, keyword.flavor, name, parameters, result, overlays, body⟩

/-- `("class" | "struct") IDENTIFIER bases "{" member* "}"` -/
def classDeclaration : (fuel : Nat) → Parser ClassDecl
  | 0 => tooDeep
  | fuel + 1 => do
    let keyword ← next
    let kind : ClassKind := if keyword.isKeyword .structWord then .structKind else .classKind
    let name ← identifier .className
    let bases ← baseClasses fuel
    let _ ← expectSymbol .openBrace
    let members ← members name kind.defaultAccess [] fuel
    return ⟨keyword.line, kind, name, bases, members⟩

/-- The members of the class `name` up to its closing brace.  Members have the access of the last
label, and the overlays `pending` go to the method that follows. -/
def members (name : String) (access : Access) (pending : List Overlay) :
    (fuel : Nat) → Parser (List ClassMember)
  | 0 => tooDeep
  | fuel + 1 => do
    skipSeparators
    if ← tryPunctuation .closeBrace then return []
    else
      let token ← peek
      match token.access? with
      | some access =>
        let _ ← next
        let _ ← expectSymbol .colon
        members name access pending fuel
      | none =>
        if token.isKeyword .letWord || token.isKeyword .constWord then
          let binding ← declaration fuel
          let rest ← members name access pending fuel
          return .field access binding :: rest
        else if token.isKeyword .overlay then
          let overlay ← overlay fuel
          skipSeparators
          let following ← peek
          if following.isKeyword .overlay || following.startsFunction then
            members name access (pending ++ [overlay]) fuel
          else failHere .strayOverlay
        else if token.startsFunction then
          let method ← function pending fuel
          let rest ← members name access [] fuel
          return .method access method :: rest
        else expected (.classMember name)

end

/-- The statements up to the end of the tokens. -/
def topLevel : (fuel : Nat) → Parser (List Stmt)
  | 0 => tooDeep
  | fuel + 1 => do
    skipSeparators
    let token ← peek
    if token.kind = .finish then return []
    else
      let first ← statement fuel
      let rest ← topLevel fuel
      return first :: rest

end Parser

/-- What reading a whole program gives: the program or an error, and the notes made on the way. -/
structure ParsedProgram where
  result : Except ParseError Program
  notes : List Note

/-- Reads tokens as a program. -/
def Program.ofTokens (tokens : List Token) : ParsedProgram :=
  let cursor := Cursor.ofTokens tokens
  match Parser.topLevel cursor.nesting cursor with
  | .ok program after => ⟨.ok program, after.notes.reverse⟩
  | .error error after => ⟨.error error, after.notes.reverse⟩

end Tide
