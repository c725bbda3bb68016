import Tide.Number.Decimal
import Tide.Text.Quoted
import Tide.Text.Style
import Tide.Tree.Stmt

/-!
# Outlines

The tree of a program as indented lines, with colours if they are wanted.  Statements that hold no
others take one line, the rest a line for each part and their blocks below it.
-/

namespace Tide

open Text (Palette)

/-- A literal as it is shown. -/
def Literal.shown (palette : Palette) : Literal → String
  | .number value => palette.colour .magenta value.plainText
  | .string text => palette.colour .yellow (Text.quoted text)
  | .boolean value => palette.colour .magenta (if value then "true" else "false")

def Pattern.shown (palette : Palette) : Pattern → String
  | .literal value => value.shown palette
  | .wildcard => "_"

namespace Expr

mutual

/-- An expression as it is shown, with every operator between operands in parentheses. -/
def shown (palette : Palette) : Expr → String
  | literal _ value => value.shown palette
  | name _ text => text
  | unary _ operator operand => operator.text ++ operand.shown palette
  | binary _ operator left right =>
    "(" ++ left.shown palette ++ " " ++ operator.text ++ " " ++ right.shown palette ++ ")"
  | ternary _ condition positive negative =>
    "(" ++ condition.shown palette ++ " ? " ++ positive.shown palette ++ " : "
      ++ negative.shown palette ++ ")"
  | call _ callee arguments =>
    callee.shown palette ++ "(" ++ ", ".intercalate (shownAll palette arguments) ++ ")"
  | index _ target place => target.shown palette ++ "[" ++ place.shown palette ++ "]"
  | member _ target field => target.shown palette ++ "." ++ field

def shownAll (palette : Palette) : List Expr → List String
  | [] => []
  | expression :: rest => expression.shown palette :: shownAll palette rest

end

end Expr

def Overlay.shown (palette : Palette) (overlay : Overlay) : String :=
  let arguments := " ".intercalate (overlay.arguments.map (·.shown palette))
  if arguments.isEmpty then "@" ++ overlay.name else "@" ++ overlay.name ++ " " ++ arguments

/-- A run of overlays as it is shown. -/
def Overlay.shownAll (palette : Palette) (overlays : List Overlay) : String :=
  palette.colour .brightGreen (" ".intercalate (overlays.map (·.shown palette)))

def Local.shown (palette : Palette) (binding : Local) : String :=
  palette.colour .cyan (if binding.constant then "const" else "let") ++ " " ++ binding.name
    ++ (binding.type.map (": " ++ ·)).getD ""
    ++ (binding.value.map fun value => " = " ++ value.shown palette).getD ""

def Parameter.shown (parameter : Parameter) : String :=
  match parameter.type with
  | some type => type ++ " " ++ parameter.name
  | none => parameter.name

def ParameterList.shown : ParameterList → String
  | raw text => text
  | listed parameters => ", ".intercalate (parameters.map Parameter.shown)

namespace Outline

/-- One line of an outline. -/
def line (depth : Nat) (text : String) : String :=
  String.ofList (List.replicate (2 * depth) ' ') ++ text ++ "\n"

/-- The line of an action. -/
def actionText (palette : Palette) (action : Action) : String :=
  let tag := palette.colour .cyan action.tag
  let shown (expression : Expr) : String := expression.shown palette
  match action with
  | .declare binding => binding.shown palette
  | .directive overlays => tag ++ " " ++ Overlay.shownAll palette overlays
  | .assign target operator value =>
    shown target ++ " " ++ operator.text ++ " " ++ shown value
  | .step target operator => shown target ++ operator.text
  | .mutate target value => tag ++ " " ++ shown target ++ " = " ++ shown value
  | .leave none | .print none | .breakLoop | .continueLoop | .sync => tag
  | .leave (some value) | .print (some value) | .raise value | .evaluate value =>
    tag ++ " " ++ shown value
  | .input name => tag ++ " " ++ name
  | .readInto path name => tag ++ " " ++ shown path ++ " -> " ++ name
  | .writeOut path value mode =>
    tag ++ " (" ++ mode.text ++ ") " ++ shown path ++ ", " ++ shown value
  | .channel name element => tag ++ " " ++ name ++ ": " ++ element.getD "number"
  | .send channel value => tag ++ " " ++ channel ++ " " ++ shown value
  | .receive channel name => tag ++ " " ++ channel ++ " -> " ++ name
  | .scale name fromLow fromHigh toLow toHigh =>
    tag ++ " " ++ name ++ " (" ++ shown fromLow ++ ", " ++ shown fromHigh ++ ") -> ("
      ++ shown toLow ++ ", " ++ shown toHigh ++ ")"
  | .bounds name low high =>
    tag ++ " " ++ name ++ " (" ++ shown low ++ ", " ++ shown high ++ ")"
  | .checkpoint label => tag ++ " " ++ label.getD ""
  | .duration name amount unit =>
    tag ++ " " ++ name ++ " = " ++ shown amount ++ " " ++ unit.text
  | .derivative name body argument =>
    tag ++ " " ++ name ++ " = " ++ shown body ++ " wrt " ++ argument
  | .splice text => tag ++ " " ++ Text.quoted text
  | .unknown kind text =>
    palette.colour .red action.tag ++ " " ++ kind ++ " " ++ Text.quoted text

/-- The line above a nested block. -/
def openerText (palette : Palette) (opener : Opener) : String :=
  let tag := palette.colour .cyan opener.tag
  match opener with
  | .block | .pureRegion => tag
  | .whileLoop expression | .schedule expression => tag ++ " " ++ expression.shown palette
  | .forLoop header => tag ++ " (" ++ header ++ ")"

/-- The line above the body of a function. -/
def functionText (palette : Palette) (flavor : FunctionFlavor) (name : String)
    (parameters : ParameterList) (result : Option TypeName) (overlays : List Overlay) : String :=
  palette.colour .magenta flavor.text ++ " " ++ palette.colour .blue name
    ++ "(" ++ parameters.shown ++ ")" ++ (result.map (" -> " ++ ·)).getD ""
    ++ (if overlays.isEmpty then "" else " " ++ Overlay.shownAll palette overlays)

/-- The line above the members of a class. -/
def classText (palette : Palette) (kind : ClassKind) (name : String) (bases : List String) :
    String :=
  palette.colour .magenta kind.text ++ " " ++ palette.colour .blue name
    ++ (if bases.isEmpty then "" else " : " ++ ", ".intercalate bases)

/-- The line above the parts of a statement that starts with an expression. -/
def headText (palette : Palette) (tag : String) (expression : Expr) : String :=
  palette.colour .cyan tag ++ " " ++ expression.shown palette

mutual

/-- The lines of a statement, at a depth. -/
def statement (palette : Palette) (depth : Nat) : Stmt → List String
  | .simple _ action => [line depth (actionText palette action)]
  | .function _ declaration => function palette depth declaration
  | .classDecl _ ⟨_, kind, name, bases, classMembers⟩ =>
    line depth (classText palette kind name bases) :: members palette (depth + 1) classMembers
  | .nested _ opener body =>
    line depth (openerText palette opener) :: block palette (depth + 1) body
  | .branch _ condition positive negative =>
    line depth (headText palette "if" condition) :: block palette (depth + 1) positive
      ++ negativeBranch palette depth negative
  | .switch _ scrutinee clauses fallback =>
    line depth (headText palette "switch" scrutinee) :: cases palette (depth + 1) clauses
      ++ fallbackBlock palette (depth + 1) fallback
  | .select _ scrutinee clauses fallback =>
    line depth (headText palette "match" scrutinee) :: arms palette (depth + 1) clauses
      ++ fallbackBlock palette (depth + 1) fallback
  | .attempt _ body binding handler =>
    line depth (palette.colour .cyan "try") :: block palette (depth + 1) body
      ++ line depth ("catch " ++ binding.getD "_") :: block palette (depth + 1) handler

def statements (palette : Palette) (depth : Nat) : List Stmt → List String
  | [] => []
  | first :: rest => statement palette depth first ++ statements palette depth rest

def block (palette : Palette) (depth : Nat) : Block → List String
  | ⟨_, body⟩ => statements palette depth body

def function (palette : Palette) (depth : Nat) : FunctionDecl → List String
  | ⟨_, flavor, name, parameters, result, overlays, body⟩ =>
    line depth (functionText palette flavor name parameters result overlays)
      :: block palette (depth + 1) body

def members (palette : Palette) (depth : Nat) : List ClassMember → List String
  | [] => []
  | .field access binding :: rest =>
    line depth (access.text ++ " " ++ binding.shown palette) :: members palette depth rest
  | .method access declaration :: rest =>
    line depth (access.text ++ ":") :: function palette (depth + 1) declaration
      ++ members palette depth rest

def negativeBranch (palette : Palette) (depth : Nat) : Option Stmt → List String
  | none => []
  | some negative =>
    line depth (palette.colour .cyan "else") :: statement palette (depth + 1) negative

def cases (palette : Palette) (depth : Nat) : List SwitchCase → List String
  | [] => []
  | ⟨label, body⟩ :: rest =>
    line depth ("case " ++ label.shown palette) :: block palette (depth + 1) body
      ++ cases palette depth rest

def arms (palette : Palette) (depth : Nat) : List MatchArm → List String
  | [] => []
  | ⟨patterns, body⟩ :: rest =>
    line depth ("case " ++ " | ".intercalate (patterns.map (·.shown palette)))
      :: block palette (depth + 1) body ++ arms palette depth rest

def fallbackBlock (palette : Palette) (depth : Nat) : Option Block → List String
  | none => []
  | some body => line depth "default" :: block palette (depth + 1) body

end

end Outline

/-- The outline of a program. -/
def Program.outline (palette : Palette) (program : Program) : String :=
  String.join (Outline.statements palette 0 program)

end Tide
