import Tide.Instrument
import Tide.Metadata

/-!
# The context of a compilation

What the stages share: settings, flags, instruments, metadata and the replay log.  Snapshots are
taken only while a feature looks at them, and transforms run only when the program allows them.
-/

namespace Tide

open Tide.Text (Palette)

/-- An entry of the replay log. -/
structure PhaseSnapshot where
  index : Nat
  phase : Phase
  text : String
  deriving DecidableEq

structure Context where
  palette : Palette
  options : CompileOptions
  flags : FeatureFlags
  registry : Registry
  replayLog : List PhaseSnapshot
  metadata : Metadata

/-- Work in a context, with notices. -/
abbrev InContext := StateT Context Noted

namespace Context

def create (palette : Palette) (options : CompileOptions) (registry : Registry) : Context where
  palette := palette
  options := options
  flags := .none
  registry := registry
  replayLog := []
  metadata := .empty

/-- Changes the instruments of the context. -/
def instruments {α : Type} (change : StateT Registry Noted α) : InContext α := do
  let context ← get
  let (value, registry) ← change.run context.registry
  set { context with registry := registry }
  return value

/-- Appends a snapshot to the replay log. -/
def record (context : Context) (phase : Phase) (snapshot : Snapshot) : Context :=
  { context with
    replayLog := context.replayLog ++
      [⟨context.replayLog.length, phase, snapshot.plainText context.palette⟩] }

/-- Lets every sink look at a snapshot, and keeps it for the replay. -/
def observe (phase : Phase) (snapshot : Snapshot) : InContext Unit := do
  let context ← get
  if context.flags.observing then
    context.registry.notify context.palette phase snapshot
    if context.flags.replay then set (context.record phase snapshot)

/-- Lets every transform have the program. -/
def transform (hook : Hook) (program : Program) : InContext Program := do
  let context ← get
  if context.flags.mutate then
    Registry.runTransforms hook context.registry.transforms program
  else return program

/-- An entry of the replay log under its heading. -/
def entryText (entry : PhaseSnapshot) : String :=
  "=== " ++ toString entry.index ++ " " ++ entry.phase.text ++ " ===\n"
    ++ String.ofList (Text.trimEnd entry.text.toList)

def replayText (context : Context) : String :=
  "\n\n".intercalate (context.replayLog.map entryText) ++ "\n"

/-- Where the replay log goes: the path that the program gives, or a file beside the output. -/
def replayPath (context : Context) (output : String) : String :=
  context.flags.replayPath.getD (output ++ ".replay.txt")

end Context

end Tide
