import Tide.Context
import Tide.Host

/-!
# Building generated code

The generated code goes to a file, and a compiler is run on it.  Without a file of its own the code
goes through a temporary one.
-/

namespace Tide

structure BuildRequest where
  source : String
  /-- The language standard. -/
  std : String
  optLevel : Nat
  output : String
  deriving DecidableEq

/-- The arguments for a compiler.  The language is said, whatever the name of the file. -/
def BuildRequest.arguments (request : BuildRequest) : List String :=
  ["-std=" ++ request.std, "-O" ++ toString request.optLevel, "-o", request.output, "-x", "c++",
   request.source]

/-- A word of a command for a reader.  A word with a NUL in it cannot be handed to any program, and
a mark stands in its place. -/
def shownWord (word : String) : String :=
  if word.contains '\x00' then "<string-with-nul>" else word

/-- The arguments for a reader. -/
def BuildRequest.shownArguments (request : BuildRequest) : List String :=
  request.arguments.map shownWord

/-- The compiler that the environment names. -/
def compilerFrom (named : Option String) : String :=
  (named.filter fun name => !(Text.trim name.toList).isEmpty).getD "c++"

namespace Host

variable {m : Type → Type} [Monad m]

/-- Runs a compiler on a request. -/
def build (host : Host m) (compiler : String) (request : BuildRequest) :
    ExceptT CompileError m Ended := do
  host.note (.logged (infoLine
    ("running " ++ compiler ++ " " ++ " ".intercalate request.shownArguments)))
  match ← host.start compiler request.arguments with
  | .ok ended => return ended
  | .error fault => throw (.toolchain compiler fault)

/-- Runs an action with the source file that is named, or with a temporary one. -/
def withSource {α : Type} (host : Host m) (source : Option String)
    (action : String → ExceptT CompileError m α) : ExceptT CompileError m α :=
  match source with
  | some path => action path
  | none => ExceptT.mk do
    let path ← host.temporary
    let result ← (action path).run
    host.remove path
    return result

/-- Writes the code to its file and hands it to a builder. -/
def buildGenerated {α : Type} (host : Host m)
    (builder : BuildRequest → ExceptT CompileError m α) (code : String) (source : Option String)
    (std : String) (optLevel : Nat) (output : String) : ExceptT CompileError m α :=
  host.withSource source fun path => do
    host.store path code
    builder ⟨path, std, optLevel, output⟩

/-- Writes the replay log if the program asks for one, and gives its path. -/
def writeReplay (host : Host m) (context : Context) (output : String) :
    ExceptT CompileError m (Option String) := do
  if context.flags.replay then
    let path := context.replayPath output
    host.store path context.replayText
    host.note (.logged (infoLine ("wrote " ++ toString context.replayLog.length
      ++ " phase snapshot(s) to " ++ path)))
    return some path
  else return none

end Host

end Tide
