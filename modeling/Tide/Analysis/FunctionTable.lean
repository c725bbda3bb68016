import Tide.Analysis.Finding
import Tide.Tree.Node

/-!
# The functions of a program

Functions, methods and routines are known by their bare names.  A name may be declared more than
once: its first declaration says what is known about it, but it is clean only if all of them are.

A function is transitively pure when neither its body nor any body it can reach by calls has a side
effect or assigns to a parameter.
-/

namespace Tide

namespace Stmt

/-- The variable that a statement assigns to, declarations apart. -/
def assignedRoot : Stmt → Option String
  | .simple _ (.assign target _ _) | .simple _ (.step target _) | .simple _ (.mutate target _) =>
    target.rootName
  | .simple _ (.bounds name _ _) | .simple _ (.scale name _ _ _ _) => some name
  | _ => none

end Stmt

/-- What a body does, apart from the functions and classes declared in it. -/
structure Effects where
  /-- Statements with a side effect, by line and tag. -/
  sideEffects : List (Nat × String)
  /-- Assignments to parameters, by line and parameter. -/
  reassigned : List (Nat × String)
  /-- Calls that go by a name, by line and callee. -/
  calls : List (Nat × String)

namespace Effects

/-- The effects of a body with these parameters. -/
def ofBody (parameters : List String) (body : Block) : Effects :=
  let nodes := Node.ofBlock .ownBody body
  let statements := nodes.filterMap Node.statement?
  { sideEffects := statements.filterMap fun statement =>
      if statement.hasSideEffect then some (statement.line, statement.tag) else none
    reassigned := statements.filterMap fun statement =>
      (statement.assignedRoot.filter parameters.contains).map (statement.line, ·)
    calls := (nodes.filterMap Node.expression?).flatMap Expr.namedCalls }

def ofFunction (declaration : FunctionDecl) : Effects :=
  ofBody declaration.parameterNames declaration.body

/-- The body itself keeps to what a pure function may do. -/
def isClean (effects : Effects) : Bool :=
  effects.sideEffects.isEmpty && effects.reassigned.isEmpty

end Effects

/-- What is known about a declared function. -/
structure FunctionInfo where
  name : String
  parameters : List (String × ValueClass)
  /-- Declared as `overlay pure`. -/
  isPure : Bool
  transitivelyPure : Bool
  /-- The parameters contracted not to be negative. -/
  nonneg : List String
  line : Nat
  deriving DecidableEq

/-- The first declaration of each name, in source order. -/
abbrev FunctionTable := List FunctionInfo

def FunctionTable.find (table : FunctionTable) (name : String) : Option FunctionInfo :=
  table.find? (·.name == name)

namespace FunctionInfo

def ofDeclaration (declaration : FunctionDecl) (transitivelyPure : Bool) : FunctionInfo where
  name := declaration.name
  parameters := declaration.parameters.parameters.map fun parameter =>
    (parameter.name, .ofType? parameter.type)
  isPure := declaration.isPure
  transitivelyPure := transitivelyPure
  nonneg := (declaration.overlays.filterMap Overlay.nonnegParameter).eraseDups
  line := declaration.line

end FunctionInfo

namespace Analysis

/-- The declarations whose name was not declared before. -/
def firstDeclarations : (seen : List String) → List FunctionDecl → List FunctionDecl
  | _, [] => []
  | seen, declaration :: rest =>
    if seen.contains declaration.name then firstDeclarations seen rest
    else declaration :: firstDeclarations (declaration.name :: seen) rest

/-- The names that were declared before, once for each later declaration. -/
def redeclaredNames : (seen : List String) → List FunctionDecl → List String
  | _, [] => []
  | seen, declaration :: rest =>
    if seen.contains declaration.name then declaration.name :: redeclaredNames seen rest
    else redeclaredNames (declaration.name :: seen) rest

/-- Every declaration of the name is clean. -/
def isCleanName (declarations : List FunctionDecl) (name : String) : Bool :=
  (declarations.filter (·.name == name)).all fun declaration =>
    (Effects.ofFunction declaration).isClean

/-- The names that some declaration of the name calls. -/
def calleesOf (declarations : List FunctionDecl) (name : String) : List String :=
  (declarations.filter (·.name == name)).flatMap fun declaration =>
    (Effects.ofFunction declaration).calls.map (·.2)

/-- The names that call no declared name outside of these. -/
def keepClosed (callees : String → List String) (declared names : List String) : List String :=
  names.filter fun name =>
    (callees name).all fun callee => !declared.contains callee || names.contains callee

/-- Drops names until what is left is closed under calls.  Every round that drops any drops at least
one, so as many rounds as there are names are enough. -/
def settle (callees : String → List String) (declared : List String) :
    (rounds : Nat) → List String → List String
  | 0, names => names
  | rounds + 1, names => settle callees declared rounds (keepClosed callees declared names)

/-- The names of the functions that are transitively pure. -/
def pureNames (declarations : List FunctionDecl) : List String :=
  let declared := (firstDeclarations [] declarations).map (·.name)
  settle (calleesOf declarations) declared declared.length
    (declared.filter (isCleanName declarations))

end Analysis

namespace Program

/-- The table of all functions of the program. -/
def functionTable (program : Program) : FunctionTable :=
  let declarations := program.functions
  let pure := Analysis.pureNames declarations
  (Analysis.firstDeclarations [] declarations).map fun declaration =>
    .ofDeclaration declaration (pure.contains declaration.name)

/-- What is reported while the table is made. -/
def functionTableLog (program : Program) : List LogLine :=
  let declarations := program.functions
  (Analysis.redeclaredNames [] declarations).map (fun name =>
      debugLine ("`" ++ name ++ "` is declared more than once"))
    ++ [debugLine ("collected " ++ toString (Analysis.firstDeclarations [] declarations).length
      ++ " function(s), " ++ toString (Analysis.pureNames declarations).length
      ++ " transitively pure")]

end Program

end Tide
