import Tide.Command
import Tide.Machine

/-!
# The program

The command line on the machine it is started on.
-/

namespace Tide.Main

/-- What an error of the system comes down to. -/
def fault : IO.Error → SystemFault
  | .permissionDenied _ _ _ => .permissionDenied
  | .inappropriateType _ code _ => if code = 20 then .notDirectory else .isDirectory
  | .resourceExhausted _ _ _ => .noSpace
  | .invalidArgument _ code _ => if code = 36 then .nameTooLong else .nulInPath
  | _ => .missing

/-- Reads the text of a file. -/
def readText (path : String) : IO (Except SystemFault String) := do
  try
    match String.fromUTF8? (← IO.FS.readBinFile path) with
    | some text => return .ok text
    | none => return .error .notText
  catch error => return .error (fault error)

/-- Shows a notice, if it is important enough for how much is to be logged. -/
def note (verbosity : Nat) : Notice → IO Unit
  | .shown text => IO.eprint text
  | .recorded _ _ => return
  | .logged line => do
    let wanted :=
      match line.level with
      | .error | .warn => true
      | .info => 1 ≤ verbosity
      | .debug => 2 ≤ verbosity
    if wanted then IO.eprintln line.text

/-- The machine the program runs on.  It starts no other programs than the ones it has itself. -/
def host (verbosity : Nat) : Host IO where
  isFile path := do
    try
      let _ ← IO.FS.readBinFile path
      return true
    catch _ => return false
  read := readText
  write path text := do
    try
      IO.FS.writeFile path text
      return .ok ()
    catch error => return .error (fault error)
  temporary := do
    let (_, path) ← IO.FS.createTempFile
    return path.toString
  remove path := IO.FS.removeFile path
  start program arguments := return Machine.empty.start program arguments
  note := note verbosity

end Tide.Main

def main (words : List String) : IO UInt32 := do
  let verbosity :=
    match Tide.Arguments.ofWords words with
    | .ok arguments => arguments.verbosity
    | .error _ => 0
  Tide.Command.execute (Tide.Main.host verbosity) ⟨false⟩ (← IO.getEnv "CXX") words
