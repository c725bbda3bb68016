import Tide.Tree.Stmt

/-!
# Nodes in reading order

Reading a program from top to bottom meets statements, functions, overlays and expressions.  Many
questions about a program are questions about that list of nodes.
-/

namespace Tide

inductive Node where
  | statement (statement : Stmt)
  /-- A function, a routine or the method of a class, before its overlays and its body. -/
  | function (declaration : FunctionDecl)
  | overlay (overlay : Overlay)
  /-- An expression that is not part of another. -/
  | expression (expression : Expr)

namespace Node

def statement? : Node → Option Stmt
  | statement found => some found
  | _ => none

def function? : Node → Option FunctionDecl
  | function found => some found
  | _ => none

def overlay? : Node → Option Overlay
  | overlay found => some found
  | _ => none

def expression? : Node → Option Expr
  | expression found => some found
  | _ => none

/-- The nodes of an action below the statement itself. -/
def ofAction (action : Action) : List Node :=
  action.overlays.map overlay ++ action.expressions.map expression

/-- Whether reading goes into the functions and classes declared on the way, or passes them by. -/
inductive Reach where
  | declarations
  | ownBody
  deriving DecidableEq

mutual

/-- The nodes of a statement, itself first. -/
def ofStmt (reach : Reach) : Stmt → List Node
  | .simple line action => statement (.simple line action) :: ofAction action
  | .function line declaration =>
    statement (.function line declaration) ::
      match reach with
      | .declarations => ofFunction declaration
      | .ownBody => []
  | .classDecl line ⟨classLine, kind, name, bases, members⟩ =>
    statement (.classDecl line ⟨classLine, kind, name, bases, members⟩) ::
      match reach with
      | .declarations => ofMembers members
      | .ownBody => []
  | .nested line opener body =>
    statement (.nested line opener body) ::
      (opener.expressions.map expression ++ ofBlock reach body)
  | .branch line condition positive negative =>
    statement (.branch line condition positive negative) :: expression condition ::
      (ofBlock reach positive ++ ofNegative reach negative)
  | .switch line scrutinee cases fallback =>
    statement (.switch line scrutinee cases fallback) :: expression scrutinee ::
      (ofCases reach cases ++ ofFallback reach fallback)
  | .select line scrutinee arms fallback =>
    statement (.select line scrutinee arms fallback) :: expression scrutinee ::
      (ofArms reach arms ++ ofFallback reach fallback)
  | .attempt line body binding handler =>
    statement (.attempt line body binding handler) ::
      (ofBlock reach body ++ ofBlock reach handler)

def ofStmts (reach : Reach) : List Stmt → List Node
  | [] => []
  | first :: rest => ofStmt reach first ++ ofStmts reach rest

def ofBlock (reach : Reach) : Block → List Node
  | ⟨_, statements⟩ => ofStmts reach statements

/-- The nodes of a function, itself first, with everything declared in it. -/
def ofFunction : FunctionDecl → List Node
  | ⟨line, flavor, name, parameters, result, overlays, body⟩ =>
    function ⟨line, flavor, name, parameters, result, overlays, body⟩ ::
      (overlays.map overlay ++ ofBlock .declarations body)

def ofMembers : List ClassMember → List Node
  | [] => []
  | .field _ binding :: rest => binding.value.toList.map expression ++ ofMembers rest
  | .method _ declaration :: rest => ofFunction declaration ++ ofMembers rest

def ofNegative (reach : Reach) : Option Stmt → List Node
  | none => []
  | some negative => ofStmt reach negative

def ofCases (reach : Reach) : List SwitchCase → List Node
  | [] => []
  | ⟨_, body⟩ :: rest => ofBlock reach body ++ ofCases reach rest

def ofArms (reach : Reach) : List MatchArm → List Node
  | [] => []
  | ⟨_, body⟩ :: rest => ofBlock reach body ++ ofArms reach rest

def ofFallback (reach : Reach) : Option Block → List Node
  | none => []
  | some body => ofBlock reach body

end

end Node

namespace Program

/-- Every node of the program. -/
def nodes (program : Program) : List Node := Node.ofStmts .declarations program

/-- Every overlay, in the order of the nodes that have them. -/
def overlays (program : Program) : List Overlay := program.nodes.filterMap Node.overlay?

/-- Every function, method and routine, each before those declared in it. -/
def functions (program : Program) : List FunctionDecl := program.nodes.filterMap Node.function?

/-- Every statement, each before those it holds. -/
def allStatements (program : Program) : List Stmt := program.nodes.filterMap Node.statement?

end Program

/-- The sum of `size` over a list. -/
def total {Item : Type} (size : Item → Nat) : List Item → Nat
  | [] => 0
  | first :: rest => size first + total size rest

/-- How large a program is. -/
structure NodeCounts where
  statements : Nat
  expressions : Nat
  deriving DecidableEq

def Program.counts (program : Program) : NodeCounts where
  statements := program.allStatements.length
  expressions := total Expr.size (program.nodes.filterMap Node.expression?)

end Tide
