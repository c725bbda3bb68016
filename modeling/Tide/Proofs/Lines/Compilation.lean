import Tide.Proofs.Context.Instruments
import Tide.Proofs.Lines.Analysis
import Tide.Proofs.Lines.Grammar
import Tide.Proofs.Token.Lexeme

/-!
# Layout does not matter

Two sources with the same tokens, however they are laid out, are compiled alike: to the same code
with the same effect on the context, or to errors that differ in their lines only.
-/

namespace Tide

/-! ## Tokens and programs -/

theorem Token.unlined_eq_of_spelling {left right : List Token}
    (hspellings : left.map Token.spelling = right.map Token.spelling) :
    left.map Token.unlined = right.map Token.unlined := by
  have hunlined : Token.unlined = (fun spelling : Spelling => ⟨spelling.kind, spelling.text, 0⟩) ∘
      Token.spelling := rfl
  rw [hunlined, ← List.map_map, hspellings, List.map_map]

theorem map_finding_eq_of_unlinedFindings {left right : List Diagnostic}
    (halike : unlinedFindings left = unlinedFindings right) :
    left.map (·.finding) = right.map (·.finding) := by
  have hfindings := congrArg (List.map Diagnostic.finding) halike
  rw [List.map_map, List.map_map] at hfindings
  exact hfindings

namespace Program

variable {left right : Program}

theorem flags_eq_of_unlined (halike : left.unlined = right.unlined) :
    FeatureFlags.ofProgram left = FeatureFlags.ofProgram right := by
  rw [← FeatureFlags.ofProgram_unlined, halike, FeatureFlags.ofProgram_unlined]

theorem outline_eq_of_unlined (halike : left.unlined = right.unlined) (palette : Text.Palette) :
    left.outline palette = right.outline palette := by
  rw [← outline_unlined, halike, outline_unlined]

theorem emit_eq_of_unlined (halike : left.unlined = right.unlined) (options : Emit.Options) :
    left.emit options = right.emit options := by
  rw [← emit_unlined, halike, emit_unlined]

/-- Programs that are the same up to lines are both refused or both accepted, with the same
findings. -/
theorem analyze_alike (halike : left.unlined = right.unlined) :
    (∃ findings others, left.analyze = .error findings ∧ right.analyze = .error others ∧
        findings.map (·.finding) = others.map (·.finding)) ∨
      ∃ accepted other, left.analyze = .ok accepted ∧ right.analyze = .ok other ∧
        accepted.warnings.map (·.finding) = other.warnings.map (·.finding) := by
  have hverdict : (left.analyze.map Accepted.unlined).mapError unlinedFindings =
      (right.analyze.map Accepted.unlined).mapError unlinedFindings := by
    rw [← analyze_unlined, halike, analyze_unlined]
  cases hleft : left.analyze with
  | error findings =>
      cases hright : right.analyze with
      | error others =>
          rw [hleft, hright] at hverdict
          exact .inl ⟨_, _, rfl, rfl,
            map_finding_eq_of_unlinedFindings (Except.error.inj hverdict)⟩
      | ok other =>
          rw [hleft, hright] at hverdict
          cases hverdict
  | ok accepted =>
      cases hright : right.analyze with
      | error others =>
          rw [hleft, hright] at hverdict
          cases hverdict
      | ok other =>
          rw [hleft, hright] at hverdict
          have hwarnings := congrArg Accepted.warnings (Except.ok.inj hverdict)
          exact .inr ⟨_, _, rfl, rfl, map_finding_eq_of_unlinedFindings hwarnings⟩

end Program

/-! ## Contexts -/

namespace Context

variable {context : Context} {left right : Program}

theorem entered_eq_of_unlined (halike : left.unlined = right.unlined) (origin : String) :
    context.entered origin left = context.entered origin right := by
  rw [entered, Program.flags_eq_of_unlined halike, entered]

/-- Snapshots with the same texts leave the same entries. -/
theorem entries_congr {palette : Text.Palette} {first second : List (Phase × Snapshot)}
    (htexts : first.map (Prod.map id (Snapshot.plainText palette)) =
      second.map (Prod.map id (Snapshot.plainText palette))) (count : Nat) :
    entries palette count first = entries palette count second := by
  induction first generalizing count second with
  | nil =>
      rw [List.map_nil, eq_comm, List.map_eq_nil_iff] at htexts
      rw [htexts]
  | cons head tail ih =>
      cases second with
      | nil => cases htexts
      | cons other rest =>
          simp only [List.map_cons, List.cons.injEq, Prod.map, id_eq, Prod.mk.injEq] at htexts
          rw [entries, entries, ih htexts.2, htexts.1.1, htexts.1.2]

theorem observed_congr {first second : List (Phase × Snapshot)}
    (htexts : first.map (Prod.map id (Snapshot.plainText context.palette)) =
      second.map (Prod.map id (Snapshot.plainText context.palette))) :
    context.observed first = context.observed second := by
  rw [observed, entries_congr htexts, observed]

theorem optimized_alike (hcontext : context.registry.OnlyReoptimizes)
    (halike : left.unlined = right.unlined) :
    (context.optimized left).unlined = (context.optimized right).unlined := by
  rw [optimized_eq hcontext, optimized_eq hcontext, ← Program.optimize_unlined, halike,
    Program.optimize_unlined]

theorem plainText_tree_eq (halike : left.unlined = right.unlined) (palette : Text.Palette) :
    Snapshot.plainText palette (.tree left) = Snapshot.plainText palette (.tree right) := by
  rw [Snapshot.plainText, Program.outline_eq_of_unlined halike, Snapshot.plainText]

end Context

/-! ## Results -/

/-- The two results are the same up to lines. -/
inductive Compilation.Alike :
    Except CompileError Compilation → Except CompileError Compilation → Prop
  | compiled {left right : Compilation} (hcode : left.code = right.code)
      (hflags : left.flags = right.flags) (hprogram : left.program.unlined = right.program.unlined)
      (hwarnings : left.warnings.map (·.finding) = right.warnings.map (·.finding)) :
      Alike (.ok left) (.ok right)
  | unparsed {left right : ParseError} (hmessage : left.cause.message = right.cause.message) :
      Alike (.error (.parse left)) (.error (.parse right))
  | refused {left right : List Diagnostic}
      (hfindings : left.map (·.finding) = right.map (·.finding)) :
      Alike (.error (.analysis left)) (.error (.analysis right))

namespace Source

open Compilation (Alike)

variable {left right : Source} {context : Context} {parsed other : Program}

theorem code_compilation_eq (horigin : left.origin = right.origin)
    (hcontext : context.registry.OnlyReoptimizes) (halike : parsed.unlined = other.unlined)
    (accepted acceptedOther : Accepted) :
    (left.compilation context parsed accepted).code =
      (right.compilation context other acceptedOther).code := by
  rw [compilation, compilation, horigin]
  exact Program.emit_eq_of_unlined (Context.optimized_alike hcontext halike) _

/-- Programs that are the same up to lines are compiled alike. -/
theorem compile_alike_of_reading (horigin : left.origin = right.origin)
    (hcontext : context.registry.OnlyReoptimizes) (hleft : left.reading = .ok parsed)
    (hright : right.reading = .ok other) (halike : parsed.unlined = other.unlined) :
    Alike (left.compile.outcome context).1 (right.compile.outcome context).1 ∧
      (left.compile.outcome context).2 = (right.compile.outcome context).2 := by
  obtain ⟨entered, hentered⟩ : ∃ entered, context.entered left.origin parsed = entered := ⟨_, rfl⟩
  have henteredOther : context.entered right.origin other = entered := by
    rw [← horigin, ← Context.entered_eq_of_unlined halike, hentered]
  have hregistry : entered.registry.OnlyReoptimizes := by
    rw [← hentered]
    exact hcontext
  have htree := Context.plainText_tree_eq halike entered.palette
  rcases Program.analyze_alike halike with
    ⟨findings, others, hrefused, hrefusedOther, hfindings⟩ |
      ⟨accepted, acceptedOther, haccepted, hacceptedOther, hwarnings⟩
  · rw [compile_of_refused hleft hrefused, compile_of_refused hright hrefusedOther, hentered,
      henteredOther]
    refine ⟨.refused hfindings, ?_⟩
    apply Context.observed_congr
    simp only [List.map_cons, List.map_nil, Prod.map, htree]
  · have hprogram := Context.optimized_alike hregistry halike
    have hoptimizedTree := Context.plainText_tree_eq hprogram entered.palette
    have hcode := code_compilation_eq horigin hregistry halike accepted acceptedOther
    rw [compile_of_accepted hleft haccepted hentered,
      compile_of_accepted hright hacceptedOther henteredOther]
    refine ⟨.compiled hcode rfl hprogram hwarnings, ?_⟩
    apply Context.observed_congr
    simp only [List.map_cons, List.map_nil, Prod.map, htree, hoptimizedTree, hcode]

/-- Sources whose tokens agree in kind and text are compiled alike, and leave the same context. -/
theorem compile_alike_of_spelling {tokens others : List Token}
    (horigin : left.origin = right.origin)
    (hleft : Token.scan left.text = .ok tokens) (hright : Token.scan right.text = .ok others)
    (hspellings : tokens.map Token.spelling = others.map Token.spelling)
    (hcontext : context.registry.OnlyReoptimizes) :
    Alike (left.compile.outcome context).1 (right.compile.outcome context).1 ∧
      (left.compile.outcome context).2 = (right.compile.outcome context).2 := by
  have hparsed := Program.ofTokens_alike (Token.unlined_eq_of_spelling hspellings)
  have hreading := reading_of_scan hleft
  have hreadingOther := reading_of_scan hright
  cases hresult : (Program.ofTokens tokens).result with
  | error error =>
      cases hresultOther : (Program.ofTokens others).result with
      | error otherError =>
          rw [hresult] at hreading hparsed
          rw [hresultOther] at hreadingOther hparsed
          rw [compile_of_unread hreading, compile_of_unread hreadingOther]
          refine ⟨.unparsed ?_, rfl⟩
          have hcause := congrArg ParseError.cause (Except.error.inj hparsed)
          rw [← error.cause.message_unlined, ← otherError.cause.message_unlined]
          exact congrArg ParseCause.message hcause
      | ok other =>
          rw [hresult, hresultOther] at hparsed
          cases hparsed
  | ok parsed =>
      cases hresultOther : (Program.ofTokens others).result with
      | error otherError =>
          rw [hresult, hresultOther] at hparsed
          cases hparsed
      | ok other =>
          rw [hresult] at hreading hparsed
          rw [hresultOther] at hreadingOther hparsed
          exact compile_alike_of_reading horigin hcontext hreading hreadingOther
            (Except.ok.inj hparsed)

theorem compile_alike_of_spelling_comment :
    Alike
        ((Source.mk none "overlay replay\nret x").compile.outcome
          (.create .plain .default .builtin)).1
        ((Source.mk none "overlay replay # always\n\nret\nx").compile.outcome
          (.create .plain .default .builtin)).1 ∧
      ((Source.mk none "overlay replay\nret x").compile.outcome
          (.create .plain .default .builtin)).2 =
        ((Source.mk none "overlay replay # always\n\nret\nx").compile.outcome
          (.create .plain .default .builtin)).2 := by
  have hleft : Token.scan "overlay replay\nret x" =
      .ok [⟨.keyword .overlay, "overlay", 1⟩, ⟨.identifier, "replay", 1⟩,
        ⟨.keyword .returnWord, "ret", 2⟩, ⟨.identifier, "x", 2⟩, ⟨.finish, "", 2⟩] := by cbv
  have hright : Token.scan "overlay replay # always\n\nret\nx" =
      .ok [⟨.keyword .overlay, "overlay", 1⟩, ⟨.identifier, "replay", 1⟩,
        ⟨.keyword .returnWord, "ret", 3⟩, ⟨.identifier, "x", 4⟩, ⟨.finish, "", 4⟩] := by cbv
  exact compile_alike_of_spelling rfl hleft hright rfl Registry.onlyReoptimizes_builtin

end Source

end Tide
