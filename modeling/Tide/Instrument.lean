import Tide.Flags
import Tide.Source
import Tide.Text.Terminal
import Tide.Tree.Outline

/-!
# Instruments

Sinks look at the stages of a compilation, and transforms may replace the program between them.
Both are known by name, and the first with a name is the only one.
-/

namespace Tide

open Tide.Text (Palette)

/-- A boundary between two stages. -/
inductive Phase where
  | parsed
  | analyzed
  | optimized
  | beforeEmit
  | afterEmit
  deriving DecidableEq

namespace Phase

def text : Phase → String
  | parsed => "parsed"
  | analyzed => "analyzed"
  | optimized => "optimized"
  | beforeEmit => "before_emit"
  | afterEmit => "after_emit"

def all : List Phase := [parsed, analyzed, optimized, beforeEmit, afterEmit]

def ofText? (text : String) : Option Phase :=
  all.find? (·.text == text)

end Phase

/-- Where transforms run. -/
inductive Hook where
  | beforeOptimization
  | afterOptimization
  deriving DecidableEq

namespace Hook

def text : Hook → String
  | beforeOptimization => "before_opt"
  | afterOptimization => "after_opt"

def all : List Hook := [beforeOptimization, afterOptimization]

def ofText? (text : String) : Option Hook :=
  all.find? (·.text == text)

end Hook

/-- What a stage has to show. -/
inductive Snapshot where
  | tree (program : Program)
  | text (text : String)

namespace Snapshot

/-- The snapshot as plain text.  A tree is outlined and freed of terminal sequences. -/
def plainText (palette : Palette) : Snapshot → String
  | tree program => Text.stripSequences (program.outline palette)
  | text content => content

def lineCount (content : String) : Nat :=
  (Text.lines content.toList).length

/-- The size of the snapshot, in one line. -/
def summary (phase : Phase) : Snapshot → String
  | tree program =>
    phase.text ++ ": " ++ toString program.counts.statements ++ " statement(s), "
      ++ toString program.counts.expressions ++ " expression(s)"
  | text content => phase.text ++ ": " ++ toString (lineCount content) ++ " line(s) of text"

/-- The snapshot for a terminal: the tree itself, but only the size of a text. -/
def display (palette : Palette) (phase : Phase) (snapshot : Snapshot) : String :=
  palette.boldColour .cyan ("--- " ++ phase.text ++ " ---") ++ "\n" ++
    match snapshot with
    | tree program => program.outline palette
    | text content =>
      toString (lineCount content) ++ " line(s), " ++ toString content.utf8ByteSize
        ++ " byte(s) of generated code\n"

end Snapshot

structure Sink where
  name : String
  observe : Palette → Phase → Snapshot → Notice

namespace Sink

/-- Shows every snapshot. -/
def inspect : Sink where
  name := "inspect"
  observe palette phase snapshot := .shown (snapshot.display palette phase)

/-- Logs the size of every snapshot. -/
def trace : Sink where
  name := "trace"
  observe _ phase snapshot := .logged (infoLine (snapshot.summary phase))

/-- Keeps the size of every snapshot. -/
def recorder (name : String) : Sink where
  name := name
  observe _ phase snapshot := .recorded name (snapshot.summary phase)

end Sink

structure Transform where
  name : String
  apply : Hook → Program → Noted Program

/-- Optimizes once more. -/
def Transform.reoptimize : Transform where
  name := "reoptimize"
  apply hook program := do
    Noted.log [debugLine ("reoptimizing at " ++ hook.text)]
    Optimization.optimize.noted program

structure Registry where
  transforms : List Transform
  sinks : List Sink
  builtinsInstalled : Bool

namespace Registry

def empty : Registry := ⟨[], [], false⟩

def transformNames (registry : Registry) : List String :=
  registry.transforms.map (·.name)

def sinkNames (registry : Registry) : List String :=
  registry.sinks.map (·.name)

/-- Adds a transform, unless the name is taken. -/
def addTransform (transform : Transform) : StateT Registry Noted Bool := do
  let registry ← get
  if registry.transformNames.contains transform.name then
    Noted.log [debugLine ("transform `" ++ transform.name ++ "` is already registered")]
    return false
  else
    set { registry with transforms := registry.transforms ++ [transform] }
    return true

/-- Adds a sink, unless the name is taken. -/
def addSink (sink : Sink) : StateT Registry Noted Bool := do
  let registry ← get
  if registry.sinkNames.contains sink.name then
    Noted.log [debugLine ("sink `" ++ sink.name ++ "` is already registered")]
    return false
  else
    set { registry with sinks := registry.sinks ++ [sink] }
    return true

/-- Adds the instruments that come with the compiler, once. -/
def installBuiltins : StateT Registry Noted Unit := do
  if (← get).builtinsInstalled then return
  modify fun registry => { registry with builtinsInstalled := true }
  let _ ← addSink .inspect
  let _ ← addSink .trace
  let _ ← addTransform .reoptimize

/-- The instruments that come with the compiler. -/
def builtin : Registry :=
  ((installBuiltins.run empty).value).2

/-- Runs transforms one after the other. -/
def runTransforms (hook : Hook) : List Transform → Program → Noted Program
  | [], program => return program
  | transform :: rest, program => do
    Noted.log [debugLine ("running transform `" ++ transform.name ++ "` at " ++ hook.text)]
    let replaced ← transform.apply hook program
    runTransforms hook rest replaced

/-- What the sinks make of a snapshot. -/
def notify (registry : Registry) (palette : Palette) (phase : Phase) (snapshot : Snapshot) :
    Noted Unit :=
  ⟨registry.sinks.map fun sink => sink.observe palette phase snapshot, ()⟩

/-- A list of names in brackets. -/
def nameList (names : List String) : String :=
  "[" ++ ", ".intercalate (names.map Text.quoted) ++ "]"

/-- The names of all instruments. -/
def text (registry : Registry) : String :=
  "InstrumentationRegistry \x7b transforms: " ++ nameList registry.transformNames ++ ", sinks: "
    ++ nameList registry.sinkNames ++ " \x7d"

end Registry

end Tide
