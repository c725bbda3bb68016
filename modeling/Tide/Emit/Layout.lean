/-!
# Laid out lines

Emitted code is a list of layout commands.  Rendering them keeps the depth and indents every line by
it.
-/

namespace Tide.Emit

inductive Command where
  /-- A line at the current depth. -/
  | line (text : String)
  /-- A line, and one level deeper after it. -/
  | indent (text : String)
  /-- One level back, and a line there. -/
  | dedent (text : String)
  /-- A line one level further out, without a change of depth. -/
  | outer (text : String)
  /-- An empty line. -/
  | blank
  deriving DecidableEq

namespace Command

/-- The depth after a command. -/
def depthAfter (depth : Nat) : Command → Nat
  | indent _ => depth + 1
  | dedent _ => depth - 1
  | line _ | outer _ | blank => depth

def indented (depth : Nat) (text : String) : String :=
  String.ofList (List.replicate (4 * depth) ' ') ++ text ++ "\n"

/-- What a command writes. -/
def text (depth : Nat) : Command → String
  | line text | indent text => indented depth text
  | dedent text | outer text => indented (depth - 1) text
  | blank => "\n"

end Command

/-- The lines that commands write from a depth on. -/
def renderFrom : (depth : Nat) → List Command → List String
  | _, [] => []
  | depth, command :: rest =>
    command.text depth :: renderFrom (command.depthAfter depth) rest

/-- The text that commands write from the margin on. -/
def render (commands : List Command) : String :=
  String.join (renderFrom 0 commands)

end Tide.Emit
