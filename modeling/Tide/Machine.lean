import Tide.FileTree
import Tide.Host

/-!
# A machine that is a value

It has a tree of files, in which there are a few devices and programs.
-/

namespace Tide

structure Machine where
  tree : FileTree
  notices : List Notice
  /-- What was written to the standard output. -/
  output : String
  /-- How many temporary files there have been. -/
  temporaries : Nat

namespace Machine

def withTree (tree : FileTree) : Machine := ⟨tree, [], "", 0⟩

def empty : Machine := withTree .empty

def note (machine : Machine) (notice : Notice) : Machine :=
  { machine with notices := machine.notices ++ [notice] }

/-- What was shown on the terminal. -/
def terminal (machine : Machine) : String :=
  String.join (machine.notices.filterMap Notice.shown?)

/-- Passes a text on to a device. -/
def pass (machine : Machine) (text : String) : Device → Except SystemFault Machine
  | .null => .ok machine
  | .full => if text.isEmpty then .ok machine else .error .noSpace
  | .output => .ok { machine with output := machine.output ++ text }
  | .terminal => .ok (machine.note (.shown text))

def write (machine : Machine) (path text : String) : Except SystemFault Machine := do
  match ← machine.tree.destination path with
  | (_, some (.device device)) => machine.pass text device
  | (location, _) => return { machine with tree := machine.tree.put location (.text text) }

/-- Runs one of the programs of the machine. -/
def start (machine : Machine) (program : String) (arguments : List String) :
    Except SystemFault Ended :=
  if (program :: arguments).any (·.contains '\x00') then .error .nulInWord
  else do
    match ← machine.tree.tool program with
    | .echo => return ⟨0, " ".intercalate arguments ++ "\n"⟩
    | .succeed => return ⟨0, ""⟩
    | .fail => return ⟨1, ""⟩

/-- The machine as a host. -/
def host : Host (StateM Machine) where
  isFile path := return (← get).tree.isFile path
  read path := return (← get).tree.read path
  write path text := do
    match (← get).write path text with
    | .ok machine =>
      set machine
      return .ok ()
    | .error fault => return .error fault
  temporary := do
    let machine ← get
    let name := "tide-" ++ toString machine.temporaries
    set { machine with
      tree := machine.tree.put (FileTree.temporaryFolder ++ [name]) (.text "")
      temporaries := machine.temporaries + 1 }
    return "/tmp/" ++ name
  remove path := modify fun machine => { machine with tree := machine.tree.remove path }
  start program arguments := return (← get).start program arguments
  note notice := modify (·.note notice)

end Machine

end Tide
