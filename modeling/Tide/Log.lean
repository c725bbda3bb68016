/-!
# Results with notices

What a stage reports on the way is part of its result: a value together with the lines logged, the
text shown and the records made while it was computed.
-/

namespace Tide

inductive LogLevel where
  | error
  | warn
  | info
  | debug
  deriving DecidableEq

def LogLevel.text : LogLevel → String
  | error => "ERROR"
  | warn => "WARN"
  | info => "INFO"
  | debug => "DEBUG"

structure LogLine where
  level : LogLevel
  message : String
  deriving DecidableEq

def LogLine.text (line : LogLine) : String :=
  line.level.text ++ " " ++ line.message

/-- Something that happens on the way to a result and can be noticed outside. -/
inductive Notice where
  | logged (line : LogLine)
  /-- Text that goes to the terminal at once. -/
  | shown (text : String)
  /-- What an observer has seen and keeps for later. -/
  | recorded (observer summary : String)
  deriving DecidableEq

namespace Notice

def logLine? : Notice → Option LogLine
  | logged line => some line
  | _ => none

def shown? : Notice → Option String
  | shown text => some text
  | _ => none

def recorded? : Notice → Option (String × String)
  | recorded observer summary => some (observer, summary)
  | _ => none

end Notice

/-- A value and what was noticed on the way to it. -/
structure Noted (α : Type) where
  notices : List Notice
  value : α

namespace Noted

instance : Monad Noted where
  pure value := ⟨[], value⟩
  bind first continuation :=
    let second := continuation first.value
    ⟨first.notices ++ second.notices, second.value⟩

def tell (notice : Notice) : Noted Unit := ⟨[notice], ()⟩

def log (lines : List LogLine) : Noted Unit := ⟨lines.map .logged, ()⟩

end Noted

def debugLine (message : String) : LogLine := ⟨.debug, message⟩

def infoLine (message : String) : LogLine := ⟨.info, message⟩

def warnLine (message : String) : LogLine := ⟨.warn, message⟩

end Tide
