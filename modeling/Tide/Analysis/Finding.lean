import Tide.Analysis.ValueClass
import Tide.Log

/-!
# Findings

What the analysis has to say about a program.  A finding is a warning or an error, and stands on the
line it blames.
-/

namespace Tide

inductive Severity where
  | warning
  | error
  deriving DecidableEq

def Severity.text : Severity → String
  | warning => "warning"
  | error => "error"

inductive Finding where
  /-- A text is subtracted, multiplied or divided into a variable. -/
  | textOperand (operator : AssignOp)
  /-- A text is negated. -/
  | negatedText
  /-- The body of a pure function has a statement with a side effect. -/
  | sideEffect (function tag : String)
  | reassignedParameter (function parameter : String)
  | impureCall (function callee : String)
  /-- A pure region has a statement with a side effect. -/
  | sideEffectInRegion (tag : String)
  | madeNegative (parameter function : String)
  | operands (operator : BinaryOp) (left right : ValueClass)
  | negativeArgument (parameter function : String)
  deriving DecidableEq

namespace Finding

def severity : Finding → Severity
  | textOperand _ | negatedText => .warning
  | _ => .error

def message : Finding → String
  | textOperand operator =>
    "compound assignment `" ++ operator.text ++ "` with a string operand"
  | negatedText => "string used in a numeric context"
  | sideEffect function tag =>
    "pure function `" ++ function ++ "` performs side effect `" ++ tag ++ "`"
  | reassignedParameter function parameter =>
    "pure function `" ++ function ++ "` reassigns parameter `" ++ parameter ++ "`"
  | impureCall function callee =>
    "pure function `" ++ function ++ "` calls impure function `" ++ callee ++ "`"
  | sideEffectInRegion tag => "side effect `" ++ tag ++ "` inside pure region"
  | madeNegative parameter function =>
    "nonneg parameter `" ++ parameter ++ "` of `" ++ function ++ "` is made negative"
  | operands operator left right =>
    "operator `" ++ operator.text ++ "` cannot be applied to " ++ left.text ++ " and " ++ right.text
  | negativeArgument parameter function =>
    "provably negative argument for nonneg parameter `" ++ parameter ++ "` of `" ++ function ++ "`"

end Finding

structure Diagnostic where
  line : Nat
  finding : Finding
  deriving DecidableEq

namespace Diagnostic

def severity (diagnostic : Diagnostic) : Severity := diagnostic.finding.severity

def message (diagnostic : Diagnostic) : String := diagnostic.finding.message

def isError (diagnostic : Diagnostic) : Bool := diagnostic.severity = .error

def logLine (diagnostic : Diagnostic) : LogLine :=
  let level : LogLevel :=
    match diagnostic.severity with
    | .warning => .warn
    | .error => .error
  ⟨level, "line " ++ toString diagnostic.line ++ ": " ++ diagnostic.message⟩

end Diagnostic

/-- How many of the findings are errors. -/
def errorCount (diagnostics : List Diagnostic) : Nat :=
  diagnostics.countP Diagnostic.isError

end Tide
