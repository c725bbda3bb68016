import Tide.Error
import Tide.Log

/-!
# What a compiler needs of the machine

Files, programs to start and a terminal.  The work of the command line is written against this list,
so that it runs on a real machine as well as on one that is only a value.
-/

namespace Tide

/-- A program that has ended. -/
structure Ended where
  /-- Its exit code, and minus one if a signal ended it. -/
  exit : Int
  output : String
  deriving DecidableEq

namespace Ended

def success (ended : Ended) : Bool := ended.exit = 0

end Ended

structure Host (m : Type → Type) where
  isFile : (path : String) → m Bool
  read : (path : String) → m (Except SystemFault String)
  write : (path text : String) → m (Except SystemFault Unit)
  /-- A new empty file, by its path. -/
  temporary : m String
  remove : (path : String) → m Unit
  /-- Runs a program to its end. -/
  start : (program : String) → (arguments : List String) → m (Except SystemFault Ended)
  note : Notice → m Unit

namespace Host

variable {m : Type → Type} [Monad m]

def noteAll (host : Host m) : List Notice → m Unit
  | [] => pure ()
  | notice :: rest => do
    host.note notice
    host.noteAll rest

/-- Passes notices on and gives the value. -/
def deliver {α : Type} (host : Host m) (noted : Noted α) : m α := do
  host.noteAll noted.notices
  return noted.value

/-- Shows a line on the terminal. -/
def showLine (host : Host m) (line : String) : m Unit :=
  host.note (.shown (line ++ "\n"))

/-- Reads a file or says why it cannot be read. -/
def load (host : Host m) (path : String) : ExceptT CompileError m String := do
  match ← host.read path with
  | .ok text => return text
  | .error fault => throw (.access path fault)

/-- Writes a file or says why it cannot be written. -/
def store (host : Host m) (path text : String) : ExceptT CompileError m Unit := do
  match ← host.write path text with
  | .ok _ => return
  | .error fault => throw (.access path fault)

end Host

end Tide
