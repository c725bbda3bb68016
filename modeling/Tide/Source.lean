import Tide.Error
import Tide.Grammar.Statement
import Tide.Analysis.Report
import Tide.Optimize.Passes

/-!
# Sources and the stages a program goes through

Each stage is a function on programs together with what it logs.
-/

namespace Tide

structure Source where
  /-- The file it comes from; without one it was given directly. -/
  file : Option String
  text : String

namespace Source

/-- The place of the source in messages. -/
def origin (source : Source) : String :=
  source.file.getD "<memory>"

end Source

/-- A result with notices, or an error after some. -/
abbrev Stage := ExceptT CompileError Noted

namespace Stage

/-- Logs on the way. -/
def log (lines : List LogLine) : Stage Unit :=
  ExceptT.lift (Noted.log lines)

end Stage

/-- The tokens of a source. -/
def Source.tokens (source : Source) : Stage (List Token) := do
  match Token.scan source.text with
  | .error error => throw (.lex error)
  | .ok tokens =>
    Stage.log [debugLine ("lexed " ++ toString tokens.length ++ " tokens")]
    return tokens

/-- A token that starts no statement is reported, but does no harm. -/
def Note.logLine (note : Note) : LogLine :=
  debugLine ("line " ++ toString note.line ++ ": unrecognised statement `" ++ note.text ++ "`")

/-- The program that the tokens make up. -/
def Program.parse (tokens : List Token) : Stage Program := do
  let parsed := Program.ofTokens tokens
  Stage.log (parsed.notes.map Note.logLine)
  match parsed.result with
  | .error error => throw (.parse error)
  | .ok program =>
    Stage.log [debugLine ("parsed " ++ toString program.length ++ " top level statements")]
    return program

/-- The program that a source spells. -/
def Source.program (source : Source) : Stage Program := do
  Program.parse (← source.tokens)

/-- Accepts or refuses a program. -/
def Program.check (program : Program) : Stage Accepted := do
  Stage.log program.analysisLog
  match program.analyze with
  | .error findings => throw (.analysis findings)
  | .ok accepted => return accepted

/-- A way to make a program simpler. -/
inductive Optimization where
  | fold
  | prune
  /-- Two rounds of both. -/
  | optimize
  deriving DecidableEq

namespace Optimization

def run : Optimization → Program → Program
  | fold => Program.fold
  | prune => Program.prune
  | optimize => Program.optimize

def foldLog (program : Program) : LogLine :=
  debugLine ("folded " ++ toString program.foldCount ++ " expression(s)")

def pruneLog (program : Program) : LogLine :=
  debugLine ("pruned " ++ toString program.pruneCount ++ " unreachable statement(s)")

/-- What is logged in a round on `program`. -/
def roundLog (number : Nat) (program : Program) : List LogLine :=
  let counts := program.round.counts
  [foldLog program, pruneLog program.fold,
   debugLine ("optimization round " ++ toString number ++ ": " ++ toString counts.statements
    ++ " statement(s), " ++ toString counts.expressions ++ " expression(s)")]

def log : Optimization → Program → List LogLine
  | fold, program => [foldLog program]
  | prune, program => [pruneLog program]
  | optimize, program => roundLog 1 program ++ roundLog 2 program.round

/-- The simpler program, with what is logged on the way. -/
def noted (optimization : Optimization) (program : Program) : Noted Program := do
  Noted.log (optimization.log program)
  return optimization.run program

/-- The program after several optimizations, one after the other. -/
def notedAll : List Optimization → Program → Noted Program
  | [], program => return program
  | optimization :: rest, program => do
    let simpler ← optimization.noted program
    notedAll rest simpler

end Optimization

end Tide
