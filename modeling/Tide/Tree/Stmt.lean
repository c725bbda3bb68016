import Tide.Text.Blank
import Tide.Tree.Expr

/-!
# Statements

A program is a list of statements.  Statements that hold no others are actions; the rest are
declarations and the ways to nest blocks.
-/

namespace Tide

/-- A type as it is written. -/
abbrev TypeName := String

inductive AssignOp where
  | assign
  | add
  | subtract
  | multiply
  | divide
  | modulus
  deriving DecidableEq

namespace AssignOp

def text : AssignOp → String
  | assign => "="
  | add => "+="
  | subtract => "-="
  | multiply => "*="
  | divide => "/="
  | modulus => "%="

def all : List AssignOp := [assign, add, subtract, multiply, divide, modulus]

/-- The operator that a compound assignment applies. -/
def binary? : AssignOp → Option BinaryOp
  | assign => none
  | add => some .add
  | subtract => some .subtract
  | multiply => some .multiply
  | divide => some .divide
  | modulus => some .modulus

end AssignOp

inductive StepOp where
  | increment
  | decrement
  deriving DecidableEq

def StepOp.text : StepOp → String
  | increment => "++"
  | decrement => "--"

inductive WriteMode where
  | truncate
  | append
  deriving DecidableEq

def WriteMode.text : WriteMode → String
  | truncate => "truncate"
  | append => "append"

inductive TimeUnit where
  | nanosecond
  | microsecond
  | millisecond
  | second
  | minute
  | hour
  deriving DecidableEq

namespace TimeUnit

def text : TimeUnit → String
  | nanosecond => "ns"
  | microsecond => "us"
  | millisecond => "ms"
  | second => "s"
  | minute => "min"
  | hour => "h"

def all : List TimeUnit := [nanosecond, microsecond, millisecond, second, minute, hour]

def ofText? (text : String) : Option TimeUnit :=
  all.find? (·.text == text)

end TimeUnit

/-- A note to the compiler: `overlay NAME` and its arguments. -/
structure Overlay where
  line : Nat
  name : String
  arguments : List Literal
  deriving DecidableEq

/-- What follows `nonneg_` in the name of a contract. -/
def contractedName : List Char → Option String
  | 'n' :: 'o' :: 'n' :: 'n' :: 'e' :: 'g' :: '_' :: first :: rest =>
    some (String.ofList (first :: rest))
  | _ => none

/-- The parameter that a `nonneg_` contract speaks of. -/
def Overlay.nonnegParameter (overlay : Overlay) : Option String :=
  contractedName overlay.name.toList

/-- A variable with its declaration, which may give a type and a value. -/
structure Local where
  name : String
  constant : Bool
  type : Option TypeName
  value : Option Expr

structure Parameter where
  name : String
  type : Option TypeName
  deriving DecidableEq

/-- A parameter written as `type name` or `name`: the last word is the name, and the words before it
make up the type. -/
def Parameter.ofFragment? (fragment : List Char) : Option Parameter :=
  let words := Text.words fragment
  words.getLast?.map fun name =>
    let type := words.dropLast
    { name := String.ofList name
      type := if type.isEmpty then none
        else some (" ".intercalate (type.map String.ofList)) }

/-- The parameters of a function: the text between parentheses, or one string each. -/
inductive ParameterList where
  | raw (text : String)
  | listed (parameters : List Parameter)
  deriving DecidableEq

/-- The parameters that a list of either form declares. -/
def ParameterList.parameters : ParameterList → List Parameter
  | listed parameters => parameters
  | raw text => (Text.split (· == ',') text.toList).filterMap Parameter.ofFragment?

inductive FunctionFlavor where
  | function
  | method
  | routine
  deriving DecidableEq

def FunctionFlavor.text : FunctionFlavor → String
  | function => "function"
  | method => "method"
  | routine => "routine"

inductive Access where
  | publicAccess
  | privateAccess
  | protectedAccess
  deriving DecidableEq

def Access.text : Access → String
  | publicAccess => "public"
  | privateAccess => "private"
  | protectedAccess => "protected"

inductive ClassKind where
  | classKind
  | structKind
  deriving DecidableEq

namespace ClassKind

def text : ClassKind → String
  | classKind => "class"
  | structKind => "struct"

/-- The access of members before any access label. -/
def defaultAccess : ClassKind → Access
  | classKind => .privateAccess
  | structKind => .publicAccess

end ClassKind

inductive Pattern where
  | literal (value : Literal)
  | wildcard
  deriving DecidableEq

/-- What a statement does that holds no other statement. -/
inductive Action where
  | declare (binding : Local)
  /-- Overlays that no function follows. -/
  | directive (overlays : List Overlay)
  | assign (target : Expr) (operator : AssignOp) (value : Expr)
  | step (target : Expr) (operator : StepOp)
  | mutate (target value : Expr)
  | leave (value : Option Expr)
  | breakLoop
  | continueLoop
  | raise (value : Expr)
  | evaluate (value : Expr)
  | print (value : Option Expr)
  | input (name : String)
  | readInto (path : Expr) (name : String)
  | writeOut (path value : Expr) (mode : WriteMode)
  | channel (name : String) (element : Option TypeName)
  | send (channel : String) (value : Expr)
  | receive (channel name : String)
  | sync
  /-- Maps the range from `fromLow` to `fromHigh` onto that from `toLow` to `toHigh`. -/
  | scale (name : String) (fromLow fromHigh toLow toHigh : Expr)
  | bounds (name : String) (low high : Expr)
  | checkpoint (label : Option String)
  | duration (name : String) (amount : Expr) (unit : TimeUnit)
  | derivative (name : String) (body : Expr) (argument : String)
  /-- Text that goes to the output as it is. -/
  | splice (text : String)
  /-- A token that starts no statement. -/
  | unknown (kind text : String)

namespace Action

/-- The short name of this kind of statement. -/
def tag : Action → String
  | declare _ => "let"
  | directive _ => "directive"
  | assign _ _ _ => "assign"
  | step _ _ => "step"
  | mutate _ _ => "mutate"
  | leave _ => "return"
  | breakLoop => "break"
  | continueLoop => "continue"
  | raise _ => "throw"
  | evaluate _ => "expression"
  | print _ => "print"
  | input _ => "input"
  | readInto _ _ => "read"
  | writeOut _ _ _ => "write"
  | channel _ _ => "channel"
  | send _ _ => "send"
  | receive _ _ => "recv"
  | sync => "sync"
  | scale _ _ _ _ _ => "scale"
  | bounds _ _ _ => "bounds"
  | checkpoint _ => "checkpoint"
  | duration _ _ _ => "duration"
  | derivative _ _ _ => "derivative"
  | splice _ => "splice"
  | unknown _ _ => "unknown"

/-- The action can be noticed outside the function it stands in. -/
def hasSideEffect : Action → Bool
  | print _ | input _ | readInto _ _ | writeOut _ _ _ | channel _ _ | send _ _ | receive _ _
  | sync | mutate _ _ | checkpoint _ => true
  | _ => false

/-- The expressions of the action, in the order they are written. -/
def expressions : Action → List Expr
  | declare binding => binding.value.toList
  | assign target _ value | mutate target value => [target, value]
  | step target _ => [target]
  | leave value | print value => value.toList
  | raise value | evaluate value | send _ value => [value]
  | readInto path _ => [path]
  | writeOut path value _ => [path, value]
  | scale _ fromLow fromHigh toLow toHigh => [fromLow, fromHigh, toLow, toHigh]
  | bounds _ low high => [low, high]
  | duration _ amount _ => [amount]
  | derivative _ body _ => [body]
  | directive _ | breakLoop | continueLoop | input _ | channel _ _ | receive _ _ | sync
  | checkpoint _ | splice _ | unknown _ _ => []

def overlays : Action → List Overlay
  | directive overlays => overlays
  | _ => []

end Action

/-- What opens a single nested block. -/
inductive Opener where
  | block
  | pureRegion
  | whileLoop (condition : Expr)
  /-- A loop with a header that is kept as written. -/
  | forLoop (header : String)
  | schedule (priority : Expr)

namespace Opener

def tag : Opener → String
  | block => "block"
  | pureRegion => "pure"
  | whileLoop _ => "while"
  | forLoop _ => "for"
  | schedule _ => "schedule"

def expressions : Opener → List Expr
  | whileLoop condition => [condition]
  | schedule priority => [priority]
  | block | pureRegion | forLoop _ => []

end Opener

mutual

inductive Stmt where
  | simple (line : Nat) (action : Action)
  | function (line : Nat) (declaration : FunctionDecl)
  | classDecl (line : Nat) (declaration : ClassDecl)
  | nested (line : Nat) (opener : Opener) (body : Block)
  /-- The negative branch is a block or another such statement. -/
  | branch (line : Nat) (condition : Expr) (positive : Block) (negative : Option Stmt)
  | switch (line : Nat) (scrutinee : Expr) (cases : List SwitchCase) (fallback : Option Block)
  | select (line : Nat) (scrutinee : Expr) (arms : List MatchArm) (fallback : Option Block)
  | attempt (line : Nat) (body : Block) (binding : Option String) (handler : Block)

structure Block where
  line : Nat
  statements : List Stmt

structure FunctionDecl where
  line : Nat
  flavor : FunctionFlavor
  name : String
  parameters : ParameterList
  result : Option TypeName
  overlays : List Overlay
  body : Block

structure ClassDecl where
  line : Nat
  kind : ClassKind
  name : String
  bases : List String
  members : List ClassMember

inductive ClassMember where
  | field (access : Access) (binding : Local)
  | method (access : Access) (declaration : FunctionDecl)

structure SwitchCase where
  label : Literal
  body : Block

structure MatchArm where
  patterns : List Pattern
  body : Block

end

/-- The top level statements, declarations included, in source order. -/
abbrev Program := List Stmt

namespace FunctionDecl

def hasOverlay (declaration : FunctionDecl) (name : String) : Bool :=
  declaration.overlays.any (·.name == name)

/-- Declared as `overlay pure`. -/
def isPure (declaration : FunctionDecl) : Bool :=
  declaration.hasOverlay "pure"

def parameterNames (declaration : FunctionDecl) : List String :=
  declaration.parameters.parameters.map (·.name)

end FunctionDecl

def ClassMember.access : ClassMember → Access
  | field access _ | method access _ => access

namespace Stmt

def line : Stmt → Nat
  | simple line _ | function line _ | classDecl line _ | nested line _ _ | branch line _ _ _
  | switch line _ _ _ | select line _ _ _ | attempt line _ _ _ => line

/-- The short name of this kind of statement. -/
def tag : Stmt → String
  | simple _ action => action.tag
  | function _ _ => "function"
  | classDecl _ _ => "class"
  | nested _ opener _ => opener.tag
  | branch _ _ _ _ => "if"
  | switch _ _ _ _ => "switch"
  | select _ _ _ _ => "match"
  | attempt _ _ _ _ => "try"

/-- The statement itself can be noticed outside the function it stands in. -/
def hasSideEffect : Stmt → Bool
  | simple _ action => action.hasSideEffect
  | nested _ (.schedule _) _ => true
  | _ => false

end Stmt

end Tide
