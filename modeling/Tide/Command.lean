import Tide.Command.Arguments
import Tide.Compile
import Tide.Path
import Tide.Toolchain

/-!
# The command line

Compiles one source file, writes what comes out of it, and builds it if asked to.
-/

namespace Tide

open Tide.Text (Palette)

namespace Arguments

/-- The file that the generated code is kept in.  Without one it is only built. -/
def codePath (arguments : Arguments) : Option String :=
  match arguments.output, arguments.build with
  | some path, _ => some path
  | none, false => some (Path.withExtension arguments.source "cpp")
  | none, true => none

/-- The file for the executable. -/
def binaryPath (arguments : Arguments) : String :=
  arguments.binary.getD (Path.withExtension arguments.source "")

/-- The file that the replay log goes beside. -/
def replayAnchor (arguments : Arguments) : String :=
  arguments.codePath.getD arguments.binaryPath

def options (arguments : Arguments) : CompileOptions :=
  ⟨arguments.std, arguments.optLevel, arguments.metadata⟩

end Arguments

/-- Why a run of the command line fails. -/
inductive CommandFailure where
  | compile (error : CompileError)
  /-- The generated code could not be written. -/
  | write (path : String) (fault : SystemFault)
  | build (binary : String) (error : CompileError)
  deriving DecidableEq

namespace CommandFailure

/-- The failure for a terminal. -/
def render (palette : Palette) (source : String) : CommandFailure → String
  | compile (.access path fault) =>
    palette.boldColour .red "error:" ++ " " ++ (CompileError.access path fault).explanation
  | compile (.toolchain compiler fault) =>
    palette.boldColour .red "error:" ++ " " ++ (CompileError.toolchain compiler fault).explanation
  | compile error => error.render palette source
  | write path fault =>
    palette.boldColour .red "error:" ++ " could not write " ++ path ++ ": " ++ fault.message
  | build binary error =>
    palette.boldColour .red "error:" ++ " building " ++ binary ++ " failed: " ++ error.explanation

end CommandFailure

namespace Command

variable {m : Type → Type} [Monad m]

/-- Compiles a source in a new context. -/
def compile (host : Host m) (palette : Palette) (arguments : Arguments) (source : Source) :
    ExceptT CommandFailure m (Compilation × Context) := do
  let context := Context.create palette arguments.options .builtin
  let (result, after) ← ExceptT.lift (host.deliver (source.compile.run.run context))
  match result with
  | .ok compilation => return (compilation, after)
  | .error error => throw (.compile error)

/-- Writes the generated code to the file it is kept in. -/
def writeCode (host : Host m) (path : Option String) (code : String) :
    ExceptT CommandFailure m Unit := do
  match path with
  | none => return
  | some path =>
    match ← host.write path code with
    | .error fault => throw (.write path fault)
    | .ok _ => host.note (.logged (infoLine ("wrote " ++ path)))

/-- Builds the generated code and gives the exit code. -/
def buildCode (host : Host m) (palette : Palette) (compiler : String) (arguments : Arguments)
    (code : String) : ExceptT CommandFailure m UInt32 := do
  let binary := arguments.binaryPath
  let built ← (host.buildGenerated (host.build compiler) code arguments.codePath arguments.std
    arguments.optLevel binary).run
  match built with
  | .error error => throw (.build binary error)
  | .ok ended =>
    unless ended.output.isEmpty do host.note (.shown ended.output)
    if ended.success then
      host.note (.logged (infoLine ("built " ++ binary ++ " with " ++ compiler)))
      return 0
    else
      host.showLine (palette.boldColour .red "error:" ++ " " ++ compiler ++ " exited with code "
        ++ toString ended.exit)
      return 1

/-- Does what the arguments ask for and gives the exit code. -/
def run (host : Host m) (palette : Palette) (compiler : String) (arguments : Arguments) :
    ExceptT CommandFailure m UInt32 := do
  let text ← (host.load arguments.source).adapt .compile
  let source : Source := ⟨some arguments.source, text⟩
  let (compilation, context) ← compile host palette arguments source
  host.noteAll (compilation.warnings.map fun warning =>
    .shown (warning.render palette source.origin ++ "\n"))
  if arguments.dumpTree then host.note (.shown (compilation.program.outline palette))
  writeCode host arguments.codePath compilation.code
  let replay ← (host.writeReplay context arguments.replayAnchor).adapt .compile
  match replay with
  | some path => host.showLine (palette.boldColour .cyan "replay:" ++ " " ++ path)
  | none => pure ()
  if arguments.build then buildCode host palette compiler arguments compilation.code
  else return 0

/-- Runs a command line and gives the exit code: two if the words make no sense, one if the work
fails. -/
def execute (host : Host m) (palette : Palette) (named : Option String) (words : List String) :
    m UInt32 := do
  let refuse (fault : UsageFault) : m UInt32 := do
    host.showLine (palette.boldColour .red "error:" ++ " " ++ fault.message)
    return 2
  match Arguments.ofWords words with
  | .error fault => refuse fault
  | .ok arguments =>
    if ← host.isFile arguments.source then
      match ← (run host palette (compilerFrom named) arguments).run with
      | .ok exit => return exit
      | .error failure =>
        host.showLine (failure.render palette arguments.source)
        return 1
    else refuse (.noSuchSource arguments.source)

end Command

end Tide
