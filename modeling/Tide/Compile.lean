import Tide.Context

/-!
# Compiling a source

All stages in order, from a source to the text of a C++ file.
-/

namespace Tide

structure Compilation where
  code : String
  warnings : List Diagnostic
  flags : FeatureFlags
  /-- The program the code was emitted from. -/
  program : Program

/-- Work in a context that can fail.  What was changed before an error stays changed. -/
abbrev Compiling := ExceptT CompileError InContext

namespace Compiling

/-- A stage as a part of the work. -/
def stage {α : Type} (run : Stage α) : Compiling α :=
  ExceptT.mk (StateT.lift run.run)

/-- Work that cannot fail as a part of the work. -/
def certain {α : Type} (run : InContext α) : Compiling α :=
  ExceptT.lift run

/-- Sets flags and metadata for the program that was read. -/
def enter (origin : String) (program : Program) : InContext Unit := do
  let flags ← FeatureFlags.scan program
  let metadata ← Metadata.create origin (← get).options
  modify fun context =>
    { context with flags := flags, metadata := metadata.recordFlags flags }
  Noted.log [debugLine ("feature flags: " ++ flags.text)]

/-- The optimizer between its two hooks. -/
def optimized (program : Program) : InContext Program := do
  let before ← Context.transform .beforeOptimization program
  let after ← Optimization.optimize.noted before
  Context.transform .afterOptimization after

end Compiling

open Compiling in
/-- Compiles a source. -/
def Source.compile (source : Source) : Compiling Compilation := do
  let tokens ← stage source.tokens
  stage (Stage.log [debugLine
    (toString tokens.length ++ " token(s) read from " ++ source.origin)])
  let parsed ← stage (Program.parse tokens)
  certain (enter source.origin parsed)
  certain (Context.observe .parsed (.tree parsed))
  let accepted ← stage parsed.check
  certain (Context.observe .analyzed (.tree parsed))
  let program ← certain (optimized parsed)
  certain (Context.observe .optimized (.tree program))
  certain (Context.observe .beforeEmit (.tree program))
  let context ← getThe Context
  let code := program.emit ⟨source.origin, some context.metadata.json⟩
  certain (Context.observe .afterEmit (.text code))
  return ⟨code, accepted.warnings, context.flags, program⟩

end Tide
