import Mathlib
import Tide.Compile

/-!
# What a compilation does to its context

Compiling ends in one of three ways: the source cannot be read, the program is refused, or it is
compiled.  For each of them there is one equation that gives the result and the context after it.
A context changes in two ways only: flags and metadata are set, and the replay log grows.
-/

namespace Tide

theorem Noted.value_bind {α β : Type} (first : Noted α) (next : α → Noted β) :
    (first >>= next).value = (next first.value).value := rfl

theorem Noted.value_pure {α : Type} (value : α) : (pure value : Noted α).value = value := rfl

namespace Context

/-! ## Changes of a context -/

/-- The context with the flags and the metadata of a program. -/
def entered (context : Context) (origin : String) (program : Program) : Context :=
  { context with
    flags := .ofProgram program
    metadata := (Metadata.ofOptions origin context.options).recordFlags (.ofProgram program) }

/-- The entries that some snapshots make in a log with `count` entries before them. -/
def entries (palette : Text.Palette) : (count : Nat) → List (Phase × Snapshot) → List PhaseSnapshot
  | _, [] => []
  | count, (phase, snapshot) :: rest =>
    ⟨count, phase, snapshot.plainText palette⟩ :: entries palette (count + 1) rest

/-- The context after some snapshots, which are kept if the program is to be replayed. -/
def observed (context : Context) (snapshots : List (Phase × Snapshot)) : Context :=
  { context with
    replayLog := context.replayLog ++
      if context.flags.replay then entries context.palette context.replayLog.length snapshots
      else [] }

/-- What the transforms make of a program. -/
def transformed (context : Context) (hook : Hook) (program : Program) : Program :=
  if context.flags.mutate then
    (Registry.runTransforms hook context.registry.transforms program).value
  else program

/-- What the optimizer and the transforms around it make of a program. -/
def optimized (context : Context) (program : Program) : Program :=
  context.transformed .afterOptimization
    (context.transformed .beforeOptimization program).optimize

section

variable (context : Context) (snapshots : List (Phase × Snapshot))

@[simp]
theorem flags_observed : (context.observed snapshots).flags = context.flags := rfl

@[simp]
theorem metadata_observed : (context.observed snapshots).metadata = context.metadata := rfl

@[simp]
theorem optimized_observed (program : Program) :
    (context.observed snapshots).optimized program = context.optimized program := rfl

end

theorem length_entries (palette : Text.Palette) (count : Nat)
    (snapshots : List (Phase × Snapshot)) :
    (entries palette count snapshots).length = snapshots.length := by
  induction snapshots generalizing count with
  | nil => rfl
  | cons head tail ih => rw [entries, List.length_cons, ih, List.length_cons]

theorem entries_append (palette : Text.Palette) (count : Nat)
    (first second : List (Phase × Snapshot)) :
    entries palette count (first ++ second) =
      entries palette count first ++ entries palette (count + first.length) second := by
  induction first generalizing count with
  | nil => rfl
  | cons head tail ih =>
      rw [List.cons_append, entries, entries, ih, List.cons_append, List.length_cons, Nat.add_assoc,
        Nat.add_comm 1]

theorem observed_observed (context : Context) (first second : List (Phase × Snapshot)) :
    (context.observed first).observed second = context.observed (first ++ second) := by
  by_cases hreplay : context.flags.replay = true
  · simp [observed, hreplay, entries_append, length_entries]
  · simp [observed, hreplay]

theorem value_observe (context : Context) (phase : Phase) (snapshot : Snapshot) :
    ((observe phase snapshot).run context).value =
      ((), context.observed [(phase, snapshot)]) := by
  have hrun : (observe phase snapshot).run context =
      (if context.flags.observing then (do
        (context.registry.notify context.palette phase snapshot : InContext Unit)
        if context.flags.replay then set (context.record phase snapshot))
      else pure () : InContext Unit).run context := rfl
  rw [hrun, observed]
  split_ifs with hobserving hreplay hreplay
  · rfl
  · rw [List.append_nil]
    rfl
  · exact absurd hobserving (by simp [FeatureFlags.observing, hreplay])
  · rw [List.append_nil]
    rfl

theorem value_transform (context : Context) (hook : Hook) (program : Program) :
    ((transform hook program).run context).value =
      (context.transformed hook program, context) := by
  have hrun : (transform hook program).run context =
      (if context.flags.mutate then
        (Registry.runTransforms hook context.registry.transforms program : InContext Program)
      else pure program).run context := rfl
  rw [hrun, transformed]
  split_ifs <;> rfl

end Context

namespace Compiling

/-! ## Outcomes of the parts -/

section

variable {α β : Type} {first : Compiling α} {next : α → Compiling β} {context after : Context}

/-- What the work gives in a context, and the context after it. -/
def outcome (run : Compiling α) (context : Context) : Except CompileError α × Context :=
  (run.run.run context).value

theorem outcome_bind_of_ok {value : α} (hfirst : first.outcome context = (.ok value, after)) :
    (first >>= next).outcome context = (next value).outcome after := by
  simp only [outcome] at hfirst
  simp only [outcome, ExceptT.run_bind, StateT.run_bind, Noted.value_bind, hfirst]

theorem outcome_bind_of_error {error : CompileError}
    (hfirst : first.outcome context = (.error error, after)) :
    (first >>= next).outcome context = (.error error, after) := by
  simp only [outcome] at hfirst
  simp only [outcome, ExceptT.run_bind, StateT.run_bind, Noted.value_bind, hfirst]
  rfl

theorem outcome_stage (run : Stage α) (context : Context) :
    (stage run).outcome context = (run.run.value, context) := rfl

theorem outcome_stage_of {run : Stage α} {result : Except CompileError α}
    (hrun : run.run.value = result) (context : Context) :
    (stage run).outcome context = (result, context) := by
  rw [outcome_stage, hrun]

theorem outcome_certain {run : InContext α} {value : α}
    (hrun : (run.run context).value = (value, after)) :
    (certain run).outcome context = (.ok value, after) := by
  have houtcome : (certain run).outcome context =
      (.ok (run.run context).value.1, (run.run context).value.2) := rfl
  rw [houtcome, hrun]

theorem outcome_enter (context : Context) (origin : String) (program : Program) :
    (certain (enter origin program)).outcome context =
      (.ok (), context.entered origin program) :=
  outcome_certain rfl

theorem outcome_observe (context : Context) (phase : Phase) (snapshot : Snapshot) :
    (certain (Context.observe phase snapshot)).outcome context =
      (.ok (), context.observed [(phase, snapshot)]) :=
  outcome_certain (context.value_observe phase snapshot)

theorem outcome_optimized (context : Context) (program : Program) :
    (certain (optimized program)).outcome context = (.ok (context.optimized program), context) := by
  apply outcome_certain
  simp only [optimized, StateT.run_bind, Noted.value_bind, Context.value_transform]
  rfl

theorem outcome_get (context : Context) :
    (getThe Context : Compiling Context).outcome context = (.ok context, context) := rfl

theorem outcome_pure (value : α) (context : Context) :
    (pure value : Compiling α).outcome context = (.ok value, context) := rfl

end

end Compiling

/-! ## Reading and checking -/

/-- The program that the source spells, or why it spells none. -/
def Source.reading (source : Source) : Except CompileError Program :=
  source.program.run.value

namespace Source

variable {source : Source} {tokens : List Token}

theorem tokens_value_of_error {error : LexError} (hscan : Token.scan source.text = .error error) :
    source.tokens.run.value = .error (.lex error) := by
  simp only [Source.tokens, hscan]
  rfl

theorem tokens_value_of_ok (hscan : Token.scan source.text = .ok tokens) :
    source.tokens.run.value = .ok tokens := by
  simp only [Source.tokens, hscan]
  rfl

end Source

namespace Program

theorem parse_value (tokens : List Token) :
    (parse tokens).run.value = (ofTokens tokens).result.mapError .parse := by
  cases hresult : (ofTokens tokens).result with
  | error error =>
      simp only [parse, hresult]
      rfl
  | ok program =>
      simp only [parse, hresult]
      rfl

theorem check_value (program : Program) :
    program.check.run.value = program.analyze.mapError .analysis := by
  cases hanalyze : program.analyze with
  | error findings =>
      simp only [check, hanalyze]
      rfl
  | ok accepted =>
      simp only [check, hanalyze]
      rfl

end Program

namespace Source

open Compiling

variable {source : Source} {tokens : List Token}

theorem reading_of_scan_error {error : LexError} (hscan : Token.scan source.text = .error error) :
    source.reading = .error (.lex error) := by
  have htokens := tokens_value_of_error hscan
  simp only [ExceptT.run] at htokens
  simp only [reading, program, ExceptT.run, bind, ExceptT.bind, ExceptT.mk, htokens]
  rfl

theorem reading_of_scan (hscan : Token.scan source.text = .ok tokens) :
    source.reading = (Program.ofTokens tokens).result.mapError .parse := by
  have htokens := tokens_value_of_ok hscan
  simp only [ExceptT.run] at htokens
  simp only [reading, program, ExceptT.run, bind, ExceptT.bind, ExceptT.mk, htokens]
  exact Program.parse_value tokens

/-- A source that can be read has tokens, which the program is parsed from. -/
theorem exists_tokens_of_reading {program : Program} (hreading : source.reading = .ok program) :
    ∃ tokens, source.tokens.run.value = .ok tokens ∧
      (Program.parse tokens).run.value = .ok program := by
  cases hscan : Token.scan source.text with
  | error error => cases (reading_of_scan_error hscan).symm.trans hreading
  | ok tokens =>
      refine ⟨tokens, tokens_value_of_ok hscan, ?_⟩
      rw [Program.parse_value, ← reading_of_scan hscan, hreading]

/-- The compilation of a program that was accepted, in the context it was entered into. -/
def compilation (source : Source) (context : Context) (program : Program) (accepted : Accepted) :
    Compilation where
  code := (context.optimized program).emit ⟨source.origin, some context.metadata.json⟩
  warnings := accepted.warnings
  flags := context.flags
  program := context.optimized program

/-! ## The three ways to end -/

section

variable {context : Context} {parsed : Program}

/-- A source that cannot be read leaves the context as it is. -/
theorem compile_of_unread {error : CompileError} (hreading : source.reading = .error error) :
    source.compile.outcome context = (.error error, context) := by
  cases hscan : Token.scan source.text with
  | error cause =>
      cases (reading_of_scan_error hscan).symm.trans hreading
      exact outcome_bind_of_error (outcome_stage_of (tokens_value_of_error hscan) context)
  | ok tokens =>
      have hparse : (Program.parse tokens).run.value = .error error := by
        rw [Program.parse_value, ← reading_of_scan hscan, hreading]
      rw [compile, outcome_bind_of_ok (outcome_stage_of (tokens_value_of_ok hscan) context),
        outcome_bind_of_ok (outcome_stage _ context)]
      exact outcome_bind_of_error (outcome_stage_of hparse context)

/-- A program that is refused was entered, and a snapshot of its tree was taken. -/
theorem compile_of_refused {findings : List Diagnostic} (hreading : source.reading = .ok parsed)
    (hanalyze : parsed.analyze = .error findings) :
    source.compile.outcome context =
      (.error (.analysis findings),
        (context.entered source.origin parsed).observed [(.parsed, .tree parsed)]) := by
  obtain ⟨tokens, htokens, hparse⟩ := exists_tokens_of_reading hreading
  have hcheck : parsed.check.run.value = .error (.analysis findings) := by
    rw [Program.check_value, hanalyze]
    rfl
  rw [compile, outcome_bind_of_ok (outcome_stage_of htokens context),
    outcome_bind_of_ok (outcome_stage _ context), outcome_bind_of_ok (outcome_stage_of hparse _),
    outcome_bind_of_ok (outcome_enter _ _ _), outcome_bind_of_ok (outcome_observe _ _ _)]
  exact outcome_bind_of_error (outcome_stage_of hcheck _)

/-- A program that is accepted goes through all phases. -/
theorem compile_of_accepted {accepted : Accepted} (hreading : source.reading = .ok parsed)
    (hanalyze : parsed.analyze = .ok accepted) {entered : Context}
    (hentered : context.entered source.origin parsed = entered) :
    source.compile.outcome context =
      (.ok (source.compilation entered parsed accepted),
        entered.observed
          [(.parsed, .tree parsed), (.analyzed, .tree parsed),
            (.optimized, .tree (entered.optimized parsed)),
            (.beforeEmit, .tree (entered.optimized parsed)),
            (.afterEmit, .text (source.compilation entered parsed accepted).code)]) := by
  obtain ⟨tokens, htokens, hparse⟩ := exists_tokens_of_reading hreading
  have hcheck : parsed.check.run.value = .ok accepted := by
    rw [Program.check_value, hanalyze]
    rfl
  rw [compile, outcome_bind_of_ok (outcome_stage_of htokens context),
    outcome_bind_of_ok (outcome_stage _ context), outcome_bind_of_ok (outcome_stage_of hparse _),
    outcome_bind_of_ok (outcome_enter _ _ _), hentered,
    outcome_bind_of_ok (outcome_observe _ _ _), outcome_bind_of_ok (outcome_stage_of hcheck _),
    outcome_bind_of_ok (outcome_observe _ _ _), outcome_bind_of_ok (outcome_optimized _ _),
    outcome_bind_of_ok (outcome_observe _ _ _), outcome_bind_of_ok (outcome_observe _ _ _),
    outcome_bind_of_ok (outcome_get _), outcome_bind_of_ok (outcome_observe _ _ _), outcome_pure]
  -- Snapshots change nothing that the later stages look at.
  simp only [compilation, Context.observed_observed, Context.optimized_observed,
    Context.metadata_observed, Context.flags_observed, List.cons_append, List.nil_append]

end

end Source

end Tide
