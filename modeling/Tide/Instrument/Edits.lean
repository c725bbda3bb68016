import Tide.Instrument

/-!
# Transforms that edit a program

Small changes to the top level statements.
-/

namespace Tide.Transform

/-- A transform that logs nothing. -/
def ofEdit (name : String) (edit : Hook → Program → Program) : Transform where
  name := name
  apply hook program := return edit hook program

/-- Keeps the first statement only. -/
def truncate (name : String) : Transform :=
  ofEdit name fun _ program => program.take 1

/-- Appends a checkpoint that names the transform and the hook. -/
def mark (name : String) : Transform :=
  ofEdit name fun hook program =>
    program ++ [.simple 0 (.checkpoint (some (name ++ "@" ++ hook.text)))]

def withoutPatterns : Stmt → Stmt
  | .select line scrutinee arms fallback =>
    .select line scrutinee (arms.map fun arm => { arm with patterns := [] }) fallback
  | statement => statement

/-- Takes the patterns from every arm of every match. -/
def clearPatterns (name : String) : Transform :=
  ofEdit name fun _ program => program.map withoutPatterns

def withBareElse : Stmt → Stmt
  | .branch line condition positive (some (.nested _ .block ⟨_, first :: _⟩)) =>
    .branch line condition positive (some first)
  | statement => statement

/-- Puts the first statement of an else block in the place of the block. -/
def bareElse (name : String) : Transform :=
  ofEdit name fun _ program => program.map withBareElse

/-- Changes nothing. -/
def idle (name : String) : Transform :=
  ofEdit name fun _ program => program

end Tide.Transform
