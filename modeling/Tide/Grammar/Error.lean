import Tide.Text.Quoted
import Tide.Token.Basic

/-!
# Parse errors

Why a list of tokens is not a program, with the line to blame.
-/

namespace Tide

/-- What the grammar asks for at some point. -/
inductive Expectation where
  | symbol (sign : Symbol)
  | expression
  | block
  | literal
  | assignmentTarget
  | memberName
  | inputVariable
  | readVariable
  | channelName
  | receiveVariable
  | scaledVariable
  | clampedVariable
  | durationName
  | derivativeName
  | derivativeVariable
  | variableName
  | typeName
  | functionName
  | className
  | baseClass
  | overlayName
  | wrt
  | handler
  | splicePayload
  | switchClause
  | matchClause
  | classMember (name : String)
  deriving DecidableEq

def Expectation.text : Expectation → String
  | symbol sign => "`" ++ sign.text ++ "`"
  | expression => "expression"
  | block => "block"
  | literal => "literal"
  | assignmentTarget => "assignment target"
  | memberName => "member name"
  | inputVariable => "input variable"
  | readVariable => "variable to read into"
  | channelName => "channel name"
  | receiveVariable => "variable to receive into"
  | scaledVariable => "variable to scale"
  | clampedVariable => "variable to clamp"
  | durationName => "duration name"
  | derivativeName => "derivative name"
  | derivativeVariable => "variable to differentiate by"
  | variableName => "variable name"
  | typeName => "type name"
  | functionName => "function name"
  | className => "class name"
  | baseClass => "base class"
  | overlayName => "overlay name"
  | wrt => "`wrt`"
  | handler => "`catch` after try block"
  | splicePayload => "string payload after splice"
  | switchClause => "`case`, `default`, or `\x7d` in switch"
  | matchClause => "`case`, `default`, or `\x7d` in match"
  | classMember name => "field, method, or access specifier in `" ++ name ++ "`"

/-- Text between parentheses that is kept as written. -/
inductive RawText where
  | loopHeader
  | parameterList
  deriving DecidableEq

def RawText.text : RawText → String
  | loopHeader => "loop header"
  | parameterList => "parameter list"

inductive ParseCause where
  /-- Something else stands where the grammar asks for `what`. -/
  | expected (what : Expectation) (found : Token)
  /-- A block ends with the tokens, before its closing sign. -/
  | unclosedBlock (close : Symbol)
  | unclosedRaw (what : RawText)
  | unknownTimeUnit (text : String)
  /-- A parameter string of a function holds no word. -/
  | emptyParameter (function : String)
  /-- An overlay in a class body that no method follows. -/
  | strayOverlay
  | invalidNumber (text : String)
  /-- Nesting went deeper than the bound that parsing started with. -/
  | tooDeep
  deriving DecidableEq

/-- A token as a message speaks of it. -/
def Token.description (token : Token) : String :=
  match token.kind with
  | .finish => "end of file"
  | .string => "string " ++ Text.quoted token.text
  | _ => "`" ++ token.text ++ "`"

def ParseCause.message : ParseCause → String
  | expected what found => "expected " ++ what.text ++ " but found " ++ found.description
  | unclosedBlock close => "block opened here is missing its closing `" ++ close.text ++ "`"
  | unclosedRaw what => "unterminated " ++ what.text ++ ", missing `)`"
  | unknownTimeUnit text =>
    "expected time unit (ns, us, ms, s, min, h) but found `" ++ text ++ "`"
  | emptyParameter function => "empty parameter in declaration of `" ++ function ++ "`"
  | strayOverlay => "overlay in class body must precede a method"
  | invalidNumber text => "invalid number `" ++ text ++ "`"
  | tooDeep => "nesting is too deep"

structure ParseError where
  line : Nat
  cause : ParseCause
  deriving DecidableEq

end Tide
