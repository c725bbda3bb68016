import Tide.Proofs.Overlay.Trace

/-!
# Reading with a buffer of overlays

The readers of statements once more, with the overlays in a buffer and not handed down.  A directive
is put into the buffer, and a function or a statement of directives empties it.  On the way a trace
is kept.  Everything that reads no block is left to the readers of the grammar.
-/

namespace Tide

/-- The overlays that nothing has taken yet, and the trace so far. -/
structure Buffer where
  pending : List Overlay
  trace : Trace

/-- Nothing is read yet. -/
def Buffer.empty : Buffer := ⟨[], .done⟩

namespace Parser

/-- A reader with a buffer. -/
abbrev Buffered := StateT Buffer Parser

/-- Where the cursor stands. -/
def here : Parser Cursor := fun cursor => .ok cursor cursor

namespace Buffered

/-- Reads a directive, and the separators behind it, into the buffer. -/
def directive (fuel : Nat) : Buffered Overlay := do
  let start ← here
  let overlay ← Parser.directive fuel
  let rest ← here
  modify fun buffer =>
    ⟨buffer.pending ++ [overlay], buffer.trace.seq (.event (.directive start overlay rest))⟩
  return overlay

/-- Empties the buffer into a taker at `place`. -/
def handOver (place : Cursor) (taker : List Overlay → Taker) : Buffered (List Overlay) := do
  let buffer ← get
  set (⟨[], buffer.trace.seq (.event (.taken place (taker buffer.pending)))⟩ : Buffer)
  return buffer.pending

/-- Traces the reader apart, and adds what `wrap` makes of that to the trace. -/
def within {α : Type} (wrap : (before after : Buffer) → Trace) (reader : Buffered α) :
    Buffered α := fun before => do
  let (value, after) ← reader ⟨before.pending, .done⟩
  return (value, ⟨after.pending, before.trace.seq (wrap before after)⟩)

/-- Reads the clauses of a switch or match. -/
def choice {α : Type} (clauses : Buffered α) : Buffered α :=
  within (fun _ after => .choice after.trace) clauses

/-- Reads a default clause. -/
def fallback {α : Type} (body : Buffered α) : Buffered α :=
  within (fun _ after => .fallback after.trace) body

/-- Reads a statement. -/
def bracketed {α : Type} (reader : Buffered α) : Buffered α :=
  within (fun before after => .statement before.pending after.pending after.trace) reader

/-- Reads a run of directives, of which the first is ahead. -/
def directives : (fuel : Nat) → Buffered (List Overlay)
  | 0 => tooDeep
  | fuel + 1 => do
    let first ← directive fuel
    let token ← peek
    if token.isKeyword .overlay then
      let rest ← directives fuel
      return first :: rest
    else return [first]

mutual

def block : (fuel : Nat) → Buffered Block
  | 0 => tooDeep
  | fuel + 1 => do
    let opening ← peek
    if ← tryPunctuation .openBrace then
      let statements ← statements opening.line .closeBrace fuel
      return ⟨opening.line, statements⟩
    else if ← tryPunctuation .openParen then
      let statements ← statements opening.line .closeParen fuel
      return ⟨opening.line, statements⟩
    else expected .block

def statements (line : Nat) (close : Symbol) : (fuel : Nat) → Buffered (List Stmt)
  | 0 => tooDeep
  | fuel + 1 => do
    skipSeparators
    if ← tryPunctuation close then return []
    else
      let token ← peek
      if token.kind = .finish then failAt line (.unclosedBlock close)
      else
        let first ← statement fuel
        let rest ← statements line close fuel
        return first :: rest

def statement : (fuel : Nat) → Buffered Stmt
  | 0 => tooDeep
  | fuel + 1 => bracketed do
    let token ← peek
    match ← assignment? fuel with
    | some action => return .simple token.line action
    | none =>
      match token.kind with
      | .keyword word => keywordStatement token.line word fuel
      | _ =>
        if token.startsExpression then
          let value ← expression fuel
          return .simple token.line (.evaluate value)
        else
          let _ ← next
          note ⟨token.line, token.text⟩
          return .simple token.line (.unknown token.kind.name token.text)

def keywordStatement (line : Nat) (word : Keyword) : (fuel : Nat) → Buffered Stmt
  | 0 => tooDeep
  | fuel + 1 => do
    match word with
    | .ifWord => branch line fuel
    | .whileWord =>
      let _ ← next
      let condition ← expression fuel
      let body ← block fuel
      return .nested line (.whileLoop condition) body
    | .forWord =>
      let _ ← next
      let header ← rawText .loopHeader
      let body ← block fuel
      return .nested line (.forLoop header) body
    | .schedule =>
      let _ ← next
      let priority ← expression fuel
      let body ← block fuel
      return .nested line (.schedule priority) body
    | .pureWord =>
      let _ ← next
      let body ← block fuel
      return .nested line .pureRegion body
    | .switchWord =>
      let _ ← next
      let scrutinee ← expression fuel
      let _ ← expectSymbol .openBrace
      let (cases, fallback) ← choice (switchClauses none fuel)
      return .switch line scrutinee cases fallback
    | .matchWord =>
      let _ ← next
      let scrutinee ← expression fuel
      let _ ← expectSymbol .openBrace
      let (arms, fallback) ← choice (matchClauses none fuel)
      return .select line scrutinee arms fallback
    | .tryWord =>
      let _ ← next
      let body ← block fuel
      let _ ← expectKeyword .catchWord .handler
      let binding ← peek
      if binding.isIdentifier then
        let _ ← next
        let handler ← block fuel
        return .attempt line body (some binding.text) handler
      else
        let handler ← block fuel
        return .attempt line body none handler
    | .overlay =>
      let _ ← directives fuel
      let token ← peek
      if token.startsFunction then
        let declaration ← function fuel
        return .function line declaration
      else
        let place ← here
        let run ← handOver place (.statement line)
        return .simple line (.directive run)
    | .fnWord | .method | .routine =>
      let declaration ← function fuel
      return .function line declaration
    | .classWord | .structWord =>
      let declaration ← classDeclaration fuel
      return .classDecl line declaration
    | _ =>
      let action ← keywordAction word fuel
      return .simple line action

def branch (line : Nat) : (fuel : Nat) → Buffered Stmt
  | 0 => tooDeep
  | fuel + 1 => do
    let _ ← next
    let condition ← expression fuel
    let positive ← block fuel
    if ← tryWord .elseWord then
      let token ← peek
      if token.isKeyword .ifWord then
        let negative ← branch token.line fuel
        return .branch line condition positive (some negative)
      else
        let negative ← block fuel
        return .branch line condition positive (some (.nested token.line .block negative))
    else return .branch line condition positive none

def switchClauses (default : Option Block) :
    (fuel : Nat) → Buffered (List SwitchCase × Option Block)
  | 0 => tooDeep
  | fuel + 1 => do
    skipSeparators
    if ← tryPunctuation .closeBrace then return ([], default)
    else if ← tryWord .caseWord then
      let label ← literal
      let body ← block fuel
      let (cases, default) ← switchClauses default fuel
      return (⟨label, body⟩ :: cases, default)
    else if ← tryWord .defaultWord then
      let body ← fallback (block fuel)
      switchClauses (some body) fuel
    else expected .switchClause

def matchClauses (default : Option Block) :
    (fuel : Nat) → Buffered (List MatchArm × Option Block)
  | 0 => tooDeep
  | fuel + 1 => do
    skipSeparators
    if ← tryPunctuation .closeBrace then return ([], default)
    else if ← tryWord .caseWord then
      let first ← pattern
      let rest ← morePatterns fuel
      let body ← block fuel
      let (arms, default) ← matchClauses default fuel
      return (⟨first :: rest, body⟩ :: arms, default)
    else if ← tryWord .defaultWord then
      let body ← fallback (block fuel)
      matchClauses (some body) fuel
    else expected .matchClause

/-- A function takes all overlays in the buffer before its body is read. -/
def function : (fuel : Nat) → Buffered FunctionDecl
  | 0 => tooDeep
  | fuel + 1 => do
    let place ← here
    let keyword ← next
    let name ← identifier .functionName
    let parameters ← parameterList name fuel
    let result ← optionalType .arrow fuel
    let overlays ← handOver place (.function keyword.line keyword.flavor name)
    let body ← block fuel
    return ⟨keyword.line, keyword.flavor, name, parameters, result, overlays, body⟩

def classDeclaration : (fuel : Nat) → Buffered ClassDecl
  | 0 => tooDeep
  | fuel + 1 => do
    let keyword ← next
    let kind : ClassKind := if keyword.isKeyword .structWord then .structKind else .classKind
    let name ← identifier .className
    let bases ← baseClasses fuel
    let _ ← expectSymbol .openBrace
    let members ← members name kind.defaultAccess fuel
    return ⟨keyword.line, kind, name, bases, members⟩

/-- In a class a directive stays in the buffer, and the next turn reads what follows it. -/
def members (name : String) (access : Access) : (fuel : Nat) → Buffered (List ClassMember)
  | 0 => tooDeep
  | fuel + 1 => do
    skipSeparators
    if ← tryPunctuation .closeBrace then return []
    else
      let token ← peek
      match token.access? with
      | some access =>
        let _ ← next
        let _ ← expectSymbol .colon
        members name access fuel
      | none =>
        if token.isKeyword .letWord || token.isKeyword .constWord then
          let binding ← declaration fuel
          let rest ← members name access fuel
          return .field access binding :: rest
        else if token.isKeyword .overlay then
          let _ ← directive fuel
          let following ← peek
          if following.isKeyword .overlay || following.startsFunction then
            members name access fuel
          else failHere .strayOverlay
        else if token.startsFunction then
          let method ← function fuel
          let rest ← members name access fuel
          return .method access method :: rest
        else expected (.classMember name)

end

def topLevel : (fuel : Nat) → Buffered (List Stmt)
  | 0 => tooDeep
  | fuel + 1 => do
    skipSeparators
    let token ← peek
    if token.kind = .finish then return []
    else
      let first ← statement fuel
      let rest ← topLevel fuel
      return first :: rest

end Buffered

end Parser

end Tide
