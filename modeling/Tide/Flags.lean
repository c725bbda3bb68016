import Tide.Log
import Tide.Text.Quoted
import Tide.Tree.Node

/-!
# Feature flags

Overlays anywhere in a program switch features on for all of it.
-/

namespace Tide

structure FeatureFlags where
  /-- The stages are shown. -/
  inspect : Bool
  /-- The stages are kept in a replay log. -/
  replay : Bool
  /-- Transforms may change the program. -/
  mutate : Bool
  /-- Where the replay log goes. -/
  replayPath : Option String
  deriving DecidableEq

/-- The overlay is one of these. -/
def Overlay.isNamed (names : List String) (overlay : Overlay) : Bool :=
  names.contains overlay.name

/-- The path that a replay overlay gives. -/
def Overlay.replayPath? (overlay : Overlay) : Option String :=
  match overlay.isNamed ["replay"], overlay.arguments with
  | true, .string path :: _ => some path
  | _, _ => none

/-- The overlay means something to the compiler. -/
def Overlay.hasMeaning (overlay : Overlay) : Bool :=
  overlay.isNamed ["pure", "inspect", "audit", "replay", "mutate"]
    || overlay.nonnegParameter.isSome

def Stmt.isMutate : Stmt → Bool
  | .simple _ (.mutate _ _) => true
  | _ => false

namespace FeatureFlags

def none : FeatureFlags := ⟨false, false, false, Option.none⟩

/-- Some feature looks at the stages. -/
def observing (flags : FeatureFlags) : Bool :=
  flags.inspect || flags.replay

/-- The features that a program asks for. -/
def ofProgram (program : Program) : FeatureFlags where
  inspect := program.overlays.any (Overlay.isNamed ["inspect", "audit"])
  replay := program.overlays.any (Overlay.isNamed ["replay"])
  mutate := program.overlays.any (Overlay.isNamed ["mutate"])
    || program.allStatements.any Stmt.isMutate
  replayPath := program.overlays.findSome? Overlay.replayPath?

/-- What is logged about overlays that mean nothing. -/
def scanLog (program : Program) : List LogLine :=
  (program.overlays.filter (!·.hasMeaning)).map fun overlay =>
    debugLine ("line " ++ toString overlay.line ++ ": overlay `" ++ overlay.name
      ++ "` has no effect")

/-- The features that a program asks for, with what is logged about its overlays. -/
def scan (program : Program) : Noted FeatureFlags := do
  Noted.log (scanLog program)
  return ofProgram program

/-- The flags in a log line. -/
def text (flags : FeatureFlags) : String :=
  let path :=
    match flags.replayPath with
    | some path => "Some(" ++ Text.quoted path ++ ")"
    | .none => "None"
  "FeatureFlags \x7b inspect: " ++ toString flags.inspect ++ ", replay: " ++ toString flags.replay
    ++ ", mutate: " ++ toString flags.mutate ++ ", replay_path: " ++ path ++ " \x7d"

end FeatureFlags

end Tide
