import Tide.Proofs.Context.Compilation
import Tide.Proofs.Optimize.Rounds

/-!
# Instruments do not interfere

The instruments that come with the compiler look on and optimize once more.  Optimizing again
changes nothing, wherever it is done, so a program that asks for them is compiled as if there were
none.
-/

namespace Tide

theorem Program.optimize_optimize (program : Program) :
    program.optimize.optimize = program.optimize := by
  simp only [optimize, round_round]

namespace Registry

/-- The transforms do nothing but optimize once more. -/
def OnlyReoptimizes (registry : Registry) : Prop :=
  ∀ transform ∈ registry.transforms, transform = .reoptimize

theorem onlyReoptimizes_builtin : builtin.OnlyReoptimizes := by
  intro transform hmem
  exact List.mem_singleton.mp hmem

theorem onlyReoptimizes_empty : empty.OnlyReoptimizes := by
  intro transform hmem
  cases hmem

/-- Transforms that optimize give the program itself or the optimized one. -/
theorem runTransforms_eq_or {transforms : List Transform}
    (honly : ∀ transform ∈ transforms, transform = .reoptimize) (hook : Hook) (program : Program) :
    (runTransforms hook transforms program).value = program ∨
      (runTransforms hook transforms program).value = program.optimize := by
  induction transforms generalizing program with
  | nil => exact .inl rfl
  | cons head tail ih =>
      have hhead : head = .reoptimize := honly head List.mem_cons_self
      have hvalue : (runTransforms hook (head :: tail) program).value =
          (runTransforms hook tail program.optimize).value := by
        rw [hhead]
        rfl
      have htail := ih (fun transform hmem => honly transform (List.mem_cons_of_mem _ hmem))
        program.optimize
      rw [program.optimize_optimize, or_self] at htail
      exact .inr (hvalue.trans htail)

end Registry

/-- Transforms that optimize make no difference to what the optimizer gives. -/
theorem Context.optimized_eq {context : Context} (honly : context.registry.OnlyReoptimizes)
    (program : Program) : context.optimized program = program.optimize := by
  have htransformed : ∀ hook program, context.transformed hook program = program ∨
      context.transformed hook program = program.optimize := by
    intro hook program
    rw [transformed]
    split
    case isTrue => exact Registry.runTransforms_eq_or honly hook program
    case isFalse => exact .inl rfl
  have hbefore : (context.transformed .beforeOptimization program).optimize = program.optimize := by
    rcases htransformed .beforeOptimization program with heq | heq
    · rw [heq]
    · rw [heq, program.optimize_optimize]
  rw [optimized, hbefore]
  rcases htransformed .afterOptimization program.optimize with heq | heq
  · exact heq
  · rw [heq, program.optimize_optimize]

namespace Source

variable {source : Source} {context : Context}

theorem compilation_withRegistry {registry : Registry}
    (hcontext : context.registry.OnlyReoptimizes) (hregistry : registry.OnlyReoptimizes)
    (program : Program) (accepted : Accepted) :
    source.compilation { context with registry := registry } program accepted =
      source.compilation context program accepted := by
  have hwith : Context.optimized { context with registry := registry } program =
      program.optimize := Context.optimized_eq hregistry program
  rw [compilation, compilation, hwith, Context.optimized_eq hcontext]

/-- What is compiled does not depend on the instruments, if they do nothing but optimize. -/
theorem compile_withRegistry (source : Source) (context : Context) (registry : Registry)
    (hcontext : context.registry.OnlyReoptimizes) (hregistry : registry.OnlyReoptimizes) :
    source.compile.outcome { context with registry := registry } =
      ((source.compile.outcome context).1,
        { (source.compile.outcome context).2 with registry := registry }) := by
  cases hreading : source.reading with
  | error error => rw [compile_of_unread hreading, compile_of_unread hreading]
  | ok parsed =>
      have hentered : Context.entered { context with registry := registry } source.origin parsed =
          { context.entered source.origin parsed with registry := registry } := rfl
      cases hanalyze : parsed.analyze with
      | error findings =>
          rw [compile_of_refused hreading hanalyze, compile_of_refused hreading hanalyze, hentered]
          rfl
      | ok accepted =>
          have hkept : (context.entered source.origin parsed).registry.OnlyReoptimizes := hcontext
          have hwith : Context.optimized
              { context.entered source.origin parsed with registry := registry } parsed =
                (context.entered source.origin parsed).optimized parsed := by
            rw [Context.optimized_eq hkept]
            exact Context.optimized_eq hregistry parsed
          rw [compile_of_accepted hreading hanalyze hentered,
            compile_of_accepted hreading hanalyze rfl, compilation_withRegistry hkept hregistry,
            hwith]
          rfl

/-- With the instruments that come with the compiler, a source is compiled to the same result as
without any, and the context is left the same but for them.  The code is that of the optimized
program. -/
theorem compile_builtin_eq_empty (source : Source) (palette : Text.Palette)
    (options : CompileOptions) :
    (source.compile.outcome (.create palette options .builtin)).1 =
        (source.compile.outcome (.create palette options .empty)).1 ∧
      (source.compile.outcome (.create palette options .builtin)).2 =
        { (source.compile.outcome (.create palette options .empty)).2 with registry := .builtin } ∧
      ∀ tokens parsed accepted, Token.scan source.text = .ok tokens →
        (Program.ofTokens tokens).result = .ok parsed → parsed.analyze = .ok accepted →
          ∃ compilation after,
            source.compile.outcome (.create palette options .builtin) = (.ok compilation, after) ∧
            compilation.code = parsed.optimize.emit ⟨source.origin, some after.metadata.json⟩ ∧
            compilation.program = parsed.optimize := by
  have heq : source.compile.outcome (.create palette options .builtin) =
      ((source.compile.outcome (.create palette options .empty)).1,
        { (source.compile.outcome (.create palette options .empty)).2 with
          registry := .builtin }) :=
    source.compile_withRegistry (.create palette options .empty) .builtin
      Registry.onlyReoptimizes_empty Registry.onlyReoptimizes_builtin
  refine ⟨by rw [heq], by rw [heq], ?_⟩
  intro tokens parsed accepted hscan hparse hanalyze
  have hreading : source.reading = .ok parsed := by
    rw [reading_of_scan hscan, hparse]
    rfl
  have hoptimized : (Context.entered (.create palette options .builtin) source.origin
      parsed).optimized parsed = parsed.optimize :=
    Context.optimized_eq Registry.onlyReoptimizes_builtin parsed
  refine ⟨_, _, compile_of_accepted hreading hanalyze rfl, ?_, ?_⟩
  · rw [compilation, hoptimized, Context.metadata_observed]
  · rw [compilation, hoptimized]

theorem compile_builtin_eq_empty_choice :
    ∃ compilation after,
      (Source.mk none "overlay mutate\nret true ? x : y").compile.outcome
          (.create .plain .default .builtin) = (.ok compilation, after) ∧
        compilation.program =
          [.simple 1 (.directive [⟨1, "mutate", []⟩]),
           .simple 2 (.leave (some (.name 2 "x")))] := by
  have hscan : Token.scan "overlay mutate\nret true ? x : y" =
      .ok [⟨.keyword .overlay, "overlay", 1⟩, ⟨.keyword .mutate, "mutate", 1⟩,
        ⟨.keyword .returnWord, "ret", 2⟩, ⟨.keyword .trueWord, "true", 2⟩,
        ⟨.symbol .question, "?", 2⟩, ⟨.identifier, "x", 2⟩, ⟨.symbol .colon, ":", 2⟩,
        ⟨.identifier, "y", 2⟩, ⟨.finish, "", 2⟩] := by cbv
  obtain ⟨compilation, after, hcompile, -, hprogram⟩ :=
    (compile_builtin_eq_empty ⟨none, "overlay mutate\nret true ? x : y"⟩ .plain .default).2.2 _
      [.simple 1 (.directive [⟨1, "mutate", []⟩]),
        .simple 2 (.leave (some (.ternary 2 (.literal 2 (.boolean true)) (.name 2 "x")
          (.name 2 "y"))))] _
      hscan rfl rfl
  exact ⟨compilation, after, hcompile, hprogram⟩

end Source

end Tide
