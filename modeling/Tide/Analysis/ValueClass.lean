import Tide.Scope
import Tide.Tree.Stmt

/-!
# Value classes

The class of an expression says what kind of value it has, as far as that is known from the
declarations around it.
-/

namespace Tide

/-- A class of values.  The unknown class goes together with every other. -/
inductive ValueClass where
  | unknown
  | number
  | string
  | boolean
  deriving DecidableEq

namespace ValueClass

def text : ValueClass → String
  | unknown => "unknown"
  | number => "number"
  | string => "string"
  | boolean => "boolean"

def all : List ValueClass := [unknown, number, string, boolean]

def ofText? (text : String) : Option ValueClass :=
  all.find? (·.text == text)

def ofLiteral : Literal → ValueClass
  | .number _ => number
  | .string _ => string
  | .boolean _ => boolean

/-- The class of a written type.  Types that the language does not know are not tracked. -/
def ofType (type : TypeName) : ValueClass :=
  if type ∈ ["number", "double", "float", "int", "long"] then number
  else if type ∈ ["string", "std::string"] then string
  else if type ∈ ["bool", "boolean"] then boolean
  else unknown

/-- The class that a type gives, if there is a type. -/
def ofType? (type : Option TypeName) : ValueClass :=
  (type.map ofType).getD unknown

def isKnown (kind : ValueClass) : Bool := kind != unknown

/-- Both operands have the class `expected`, unless one of them is unknown. -/
def bothOrUnknown (left right expected : ValueClass) : Bool :=
  !left.isKnown || !right.isKnown || (left == expected && right == expected)

/-- The class of two branches, which is unknown when they differ. -/
def join (left right : ValueClass) : ValueClass :=
  if left = right then left else unknown

end ValueClass

/-- The classes of the names in scope. -/
abbrev Environment := Scopes ValueClass

namespace Environment

/-- The class of a sum: of two texts a text, of two numbers a number. -/
def sumClass : ValueClass → ValueClass → ValueClass
  | .string, .string => .string
  | .number, .number => .number
  | _, _ => .unknown

def infer (environment : Environment) : Expr → ValueClass
  | .literal _ value => .ofLiteral value
  | .name _ name => (environment.get? name).getD .unknown
  | .unary _ .negate _ => .number
  | .unary _ .complement _ => .boolean
  | .binary _ .add left right => sumClass (environment.infer left) (environment.infer right)
  | .binary _ operator _ _ => if operator.isArithmetic then .number else .boolean
  | .ternary _ _ positive negative =>
    (environment.infer positive).join (environment.infer negative)
  | .call _ _ _ | .index _ _ _ | .member _ _ _ => .unknown

/-- Binds the parameters of a function. -/
def bindParameters (environment : Environment) (declaration : FunctionDecl) : Environment :=
  declaration.parameters.parameters.foldl
    (fun environment parameter => environment.bind parameter.name (.ofType? parameter.type))
    environment

/-- The class of a variable: that of its type if it is known, else that of its value. -/
def localClass (environment : Environment) (binding : Local) : ValueClass :=
  let annotated := ValueClass.ofType? binding.type
  if annotated.isKnown then annotated
  else (binding.value.map environment.infer).getD .unknown

def bindLocal (environment : Environment) (binding : Local) : Environment :=
  environment.bind binding.name (environment.localClass binding)

/-- The bindings that an action other than a declaration makes or changes. -/
def bindOther (environment : Environment) : Action → Environment
  | .assign (.name _ name) .assign value => environment.rebind name (environment.infer value)
  | .readInto _ name => environment.bind name .string
  | .receive _ name => environment.bind name .unknown
  | .duration name _ _ | .derivative name _ _ => environment.bind name .number
  | _ => environment

/-- The environment after an action. -/
def afterAction (environment : Environment) : Action → Environment
  | .declare binding => environment.bindLocal binding
  | action => environment.bindOther action

/-- The bindings that the top level statements of a program leave, blocks apart. -/
def ofProgram (program : Program) : Environment :=
  program.foldl (fun environment statement =>
    match statement with
    | .simple _ action => environment.afterAction action
    | _ => environment) .empty

end Environment

end Tide
