import Tide.Proofs.Context.Compilation

/-!
# Sessions on one context

A context serves any number of compilations, and instruments are added to it in between.  Entries of
the replay log stay as they were written, and the first instrument with a name stays the only one.
-/

namespace Tide

/-! ## Names in order of first use -/

section

variable {names more : List String}

theorem eraseDups_append_of_subset (hsubset : more ⊆ names) :
    (names ++ more).eraseDups = names.eraseDups := by
  have hnone : more.removeAll names = [] := by
    rw [List.removeAll, List.filter_eq_nil_iff]
    intro name hmem
    simpa using hsubset hmem
  rw [List.eraseDups_append, hnone, List.eraseDups_nil, List.append_nil]

theorem eraseDups_concat_of_mem {name : String} (hmem : name ∈ names) :
    (names ++ [name]).eraseDups = names.eraseDups :=
  eraseDups_append_of_subset (List.cons_subset.mpr ⟨hmem, List.nil_subset names⟩)

theorem eraseDups_concat_of_not_mem {name : String} (hfree : name ∉ names) :
    (names ++ [name]).eraseDups = names.eraseDups ++ [name] := by
  have hkept : [name].removeAll names = [name] := by
    rw [List.removeAll, List.filter_eq_self]
    intro other hmem
    rw [List.mem_singleton.mp hmem]
    simpa using hfree
  rw [List.eraseDups_append, hkept, List.eraseDups_cons, List.filter_nil, List.eraseDups_nil]

theorem nodup_eraseDups (names : List String) : names.eraseDups.Nodup := by
  induction names using List.reverseRecOn with
  | nil => exact List.nodup_nil
  | append_singleton earlier name ih =>
      by_cases hmem : name ∈ earlier
      · rw [eraseDups_concat_of_mem hmem]
        exact ih
      · rw [eraseDups_concat_of_not_mem hmem]
        apply List.Nodup.append ih (List.nodup_singleton name)
        rw [List.disjoint_singleton, List.mem_eraseDups]
        exact hmem

end

/-! ## Adding instruments -/

namespace Registry

section

variable (registry : Registry)

theorem value_addSink (sink : Sink) :
    ((addSink sink).run registry).value =
      if sink.name ∈ registry.sinkNames then (false, registry)
      else (true, { registry with sinks := registry.sinks ++ [sink] }) := by
  simp only [addSink, StateT.run_bind, StateT.run_get, Noted.value_bind, Noted.value_pure,
    List.contains_iff_mem]
  split_ifs <;> rfl

theorem value_addTransform (transform : Transform) :
    ((addTransform transform).run registry).value =
      if transform.name ∈ registry.transformNames then (false, registry)
      else (true, { registry with transforms := registry.transforms ++ [transform] }) := by
  simp only [addTransform, StateT.run_bind, StateT.run_get, Noted.value_bind, Noted.value_pure,
    List.contains_iff_mem]
  split_ifs <;> rfl

theorem value_installBuiltins_of_installed (hinstalled : registry.builtinsInstalled = true) :
    (installBuiltins.run registry).value.2 = registry := by
  simp only [installBuiltins, StateT.run_bind, StateT.run_get, Noted.value_bind, Noted.value_pure,
    if_pos hinstalled]
  rfl

theorem value_installBuiltins (hinstalled : registry.builtinsInstalled = false) :
    (installBuiltins.run registry).value.2 =
      ((addTransform .reoptimize).run ((addSink .trace).run ((addSink .inspect).run
        { registry with builtinsInstalled := true }).value.2).value.2).value.2 := by
  simp only [installBuiltins, StateT.run_bind, StateT.run_get, Noted.value_bind, Noted.value_pure,
    hinstalled]
  rfl

end

theorem builtinsInstalled_addSink (registry : Registry) (sink : Sink) :
    ((addSink sink).run registry).value.2.builtinsInstalled = registry.builtinsInstalled := by
  rw [value_addSink]
  split_ifs <;> rfl

theorem builtinsInstalled_addTransform (registry : Registry) (transform : Transform) :
    ((addTransform transform).run registry).value.2.builtinsInstalled =
      registry.builtinsInstalled := by
  rw [value_addTransform]
  split_ifs <;> rfl

/-- The instruments go by the names that were asked for, in the order of first use. -/
structure Holds (registry : Registry) (sinks transforms : List String) : Prop where
  sinkNames : registry.sinkNames = sinks.eraseDups
  transformNames : registry.transformNames = transforms.eraseDups

namespace Holds

variable {registry : Registry} {sinks transforms : List String}

theorem addSink (hholds : registry.Holds sinks transforms) (sink : Sink) :
    ((Registry.addSink sink).run registry).value.2.Holds (sinks ++ [sink.name]) transforms := by
  rw [value_addSink]
  have htaken : sink.name ∈ registry.sinkNames ↔ sink.name ∈ sinks := by
    rw [hholds.sinkNames, List.mem_eraseDups]
  split_ifs with hmem
  · refine ⟨?_, hholds.transformNames⟩
    rw [eraseDups_concat_of_mem (htaken.mp hmem)]
    exact hholds.sinkNames
  · refine ⟨?_, hholds.transformNames⟩
    rw [eraseDups_concat_of_not_mem (mt htaken.mpr hmem), ← hholds.sinkNames]
    exact List.map_append

theorem addTransform (hholds : registry.Holds sinks transforms) (transform : Transform) :
    ((Registry.addTransform transform).run registry).value.2.Holds sinks
      (transforms ++ [transform.name]) := by
  rw [value_addTransform]
  have htaken : transform.name ∈ registry.transformNames ↔ transform.name ∈ transforms := by
    rw [hholds.transformNames, List.mem_eraseDups]
  split_ifs with hmem
  · refine ⟨hholds.sinkNames, ?_⟩
    rw [eraseDups_concat_of_mem (htaken.mp hmem)]
    exact hholds.transformNames
  · refine ⟨hholds.sinkNames, ?_⟩
    rw [eraseDups_concat_of_not_mem (mt htaken.mpr hmem), ← hholds.transformNames]
    exact List.map_append

end Holds

end Registry

/-! ## What a compilation leaves -/

namespace Context

theorem map_index_entries (palette : Text.Palette) (count : Nat)
    (snapshots : List (Phase × Snapshot)) :
    (entries palette count snapshots).map (·.index) = List.range' count snapshots.length := by
  induction snapshots generalizing count with
  | nil => rfl
  | cons head tail ih => rw [entries, List.map_cons, ih, List.length_cons, List.range'_succ]

theorem map_phase_entries (palette : Text.Palette) (count : Nat)
    (snapshots : List (Phase × Snapshot)) :
    (entries palette count snapshots).map (·.phase) = snapshots.map Prod.fst := by
  induction snapshots generalizing count with
  | nil => rfl
  | cons head tail ih => rw [entries, List.map_cons, ih, List.map_cons]

/-- Every entry of the replay log is numbered by its position. -/
def Numbered (context : Context) : Prop :=
  context.replayLog.map (·.index) = List.range context.replayLog.length

theorem Numbered.observed {context : Context} (hnumbered : context.Numbered)
    (snapshots : List (Phase × Snapshot)) : (context.observed snapshots).Numbered := by
  rw [Numbered, Context.observed]
  split_ifs
  · rw [List.map_append, hnumbered, map_index_entries, List.length_append, length_entries,
      List.range_eq_range', List.range_eq_range', ← List.range'_append_1, Nat.zero_add]
  · rw [List.append_nil]
    exact hnumbered

/-- A compilation of `program` that passed these phases changes `context` to `after`. -/
structure Advances (context : Context) (origin : String) (program : Program)
    (phases : List Phase) (after : Context) : Prop where
  palette : after.palette = context.palette
  options : after.options = context.options
  registry : after.registry = context.registry
  flags : after.flags = .ofProgram program
  metadata : after.metadata =
    (Metadata.ofOptions origin context.options).recordFlags (.ofProgram program)
  recorded : (∃ overlay ∈ program.overlays, overlay.name = "replay") →
    ∃ added, after.replayLog = context.replayLog ++ added ∧ added.map (·.phase) = phases
  unrecorded : (¬∃ overlay ∈ program.overlays, overlay.name = "replay") →
    after.replayLog = context.replayLog

theorem replay_ofProgram_iff (program : Program) :
    (FeatureFlags.ofProgram program).replay = true ↔
      ∃ overlay ∈ program.overlays, overlay.name = "replay" := by
  simp [FeatureFlags.ofProgram, Overlay.isNamed]

theorem advances_observed (context : Context) (origin : String) (program : Program)
    {snapshots : List (Phase × Snapshot)} {phases : List Phase}
    (hphases : snapshots.map Prod.fst = phases) :
    context.Advances origin program phases
      ((context.entered origin program).observed snapshots) where
  palette := rfl
  options := rfl
  registry := rfl
  flags := rfl
  metadata := rfl
  recorded hreplay := by
    have hflag : (context.entered origin program).flags.replay = true :=
      (replay_ofProgram_iff program).mpr hreplay
    refine ⟨entries context.palette context.replayLog.length snapshots, ?_,
      (map_phase_entries _ _ _).trans hphases⟩
    rw [observed, if_pos hflag]
    rfl
  unrecorded hreplay := by
    have hflag : ¬(context.entered origin program).flags.replay = true :=
      mt (replay_ofProgram_iff program).mp hreplay
    rw [observed, if_neg hflag]
    exact List.append_nil _

end Context

namespace Source

/-- How compiling a source in a context ends: with which result, and in which context. -/
inductive Ends (source : Source) (context : Context) :
    Except CompileError Compilation × Context → Prop
  | unscanned {error : LexError} (hscan : Token.scan source.text = .error error) :
      Ends source context (.error (.lex error), context)
  | unparsed {tokens : List Token} {error : ParseError}
      (hscan : Token.scan source.text = .ok tokens)
      (hparse : (Program.ofTokens tokens).result = .error error) :
      Ends source context (.error (.parse error), context)
  | refused {tokens : List Token} {program : Program} {findings : List Diagnostic} {after : Context}
      (hscan : Token.scan source.text = .ok tokens)
      (hparse : (Program.ofTokens tokens).result = .ok program)
      (hanalyze : program.analyze = .error findings)
      (hadvances : context.Advances source.origin program [.parsed] after) :
      Ends source context (.error (.analysis findings), after)
  | compiled {tokens : List Token} {program : Program} {accepted : Accepted}
      {compilation : Compilation} {after : Context}
      (hscan : Token.scan source.text = .ok tokens)
      (hparse : (Program.ofTokens tokens).result = .ok program)
      (hanalyze : program.analyze = .ok accepted)
      (hadvances : context.Advances source.origin program
        [.parsed, .analyzed, .optimized, .beforeEmit, .afterEmit] after) :
      Ends source context (.ok compilation, after)

variable (source : Source) (context : Context)

/-- Each way a compilation ends has its own effect on the context. -/
theorem ends_compile : source.Ends context (source.compile.outcome context) := by
  cases hscan : Token.scan source.text with
  | error error =>
      rw [compile_of_unread (reading_of_scan_error hscan)]
      exact .unscanned hscan
  | ok tokens =>
      have hreading := reading_of_scan hscan
      cases hparse : (Program.ofTokens tokens).result with
      | error error =>
          rw [hparse] at hreading
          rw [compile_of_unread hreading]
          exact .unparsed hscan hparse
      | ok program =>
          rw [hparse] at hreading
          cases hanalyze : program.analyze with
          | error findings =>
              rw [compile_of_refused hreading hanalyze]
              exact .refused hscan hparse hanalyze (context.advances_observed _ _ rfl)
          | ok accepted =>
              rw [compile_of_accepted hreading hanalyze rfl]
              exact .compiled hscan hparse hanalyze (context.advances_observed _ _ rfl)

/-- A compilation leaves the context alone, or sets it for a program and adds snapshots. -/
theorem after_compile : (source.compile.outcome context).2 = context ∨
    ∃ program snapshots, (source.compile.outcome context).2 =
      (context.entered source.origin program).observed snapshots := by
  cases hreading : source.reading with
  | error error => exact .inl (by rw [compile_of_unread hreading])
  | ok program =>
      cases hanalyze : program.analyze with
      | error findings => exact .inr ⟨_, _, by rw [compile_of_refused hreading hanalyze]⟩
      | ok accepted => exact .inr ⟨_, _, by rw [compile_of_accepted hreading hanalyze rfl]⟩

end Source

/-! ## Steps and runs -/

/-- A call on a context. -/
inductive Operation where
  | compile (source : Source)
  | addSink (sink : Sink)
  | addTransform (transform : Transform)
  | installBuiltins

namespace Operation

/-- The context after the call. -/
def after (context : Context) : Operation → Context
  | compile source => (source.compile.outcome context).2
  | addSink sink => ((Context.instruments (Registry.addSink sink)).run context).value.2
  | addTransform transform =>
    ((Context.instruments (Registry.addTransform transform)).run context).value.2
  | installBuiltins => ((Context.instruments Registry.installBuiltins).run context).value.2

/-- The sinks that the call asks for. -/
def sinkNames : Operation → List String
  | addSink sink => [sink.name]
  | installBuiltins => ["inspect", "trace"]
  | compile _ | addTransform _ => []

/-- The transforms that the call asks for. -/
def transformNames : Operation → List String
  | addTransform transform => [transform.name]
  | installBuiltins => ["reoptimize"]
  | compile _ | addSink _ => []

end Operation

namespace Context

/-- What is true of a context after some calls. -/
structure Follows (context : Context) (operations : List Operation) : Prop where
  numbered : context.Numbered
  holds : context.registry.Holds (operations.flatMap Operation.sinkNames)
    (operations.flatMap Operation.transformNames)
  installed : context.registry.builtinsInstalled = true → Operation.installBuiltins ∈ operations

variable {context : Context} {operations : List Operation}

theorem value_instruments {α : Type} (context : Context) (change : StateT Registry Noted α) :
    ((instruments change).run context).value =
      ((change.run context.registry).value.1,
        { context with registry := (change.run context.registry).value.2 }) := rfl

theorem registry_compile (context : Context) (source : Source) :
    (source.compile.outcome context).2.registry = context.registry := by
  rcases source.after_compile context with hsame | ⟨program, snapshots, hafter⟩
  · rw [hsame]
  · rw [hafter]
    rfl

theorem Numbered.compile (hnumbered : context.Numbered) (source : Source) :
    (source.compile.outcome context).2.Numbered := by
  rcases source.after_compile context with hsame | ⟨program, snapshots, hafter⟩
  · rw [hsame]
    exact hnumbered
  · rw [hafter]
    have hentered : (context.entered source.origin program).Numbered := hnumbered
    exact hentered.observed snapshots

theorem Follows.installBuiltins (hfollows : context.Follows operations) :
    ((Registry.installBuiltins.run context.registry).value.2).Holds
      (operations.flatMap Operation.sinkNames ++ ["inspect", "trace"])
      (operations.flatMap Operation.transformNames ++ ["reoptimize"]) := by
  cases hinstalled : context.registry.builtinsInstalled with
  | true =>
      have hbefore := hfollows.installed hinstalled
      have hsinks : ["inspect", "trace"] ⊆ operations.flatMap Operation.sinkNames :=
        fun name hmem => List.mem_flatMap.mpr ⟨_, hbefore, hmem⟩
      have htransforms : ["reoptimize"] ⊆ operations.flatMap Operation.transformNames :=
        fun name hmem => List.mem_flatMap.mpr ⟨_, hbefore, hmem⟩
      rw [Registry.value_installBuiltins_of_installed _ hinstalled]
      refine ⟨?_, ?_⟩
      · rw [eraseDups_append_of_subset hsinks, hfollows.holds.sinkNames]
      · rw [eraseDups_append_of_subset htransforms, hfollows.holds.transformNames]
  | false =>
      have hmarked : Registry.Holds { context.registry with builtinsInstalled := true }
          (operations.flatMap Operation.sinkNames) (operations.flatMap Operation.transformNames) :=
        ⟨hfollows.holds.sinkNames, hfollows.holds.transformNames⟩
      have hadded := ((hmarked.addSink .inspect).addSink .trace).addTransform .reoptimize
      rw [Registry.value_installBuiltins _ hinstalled]
      rwa [List.append_assoc] at hadded

theorem Follows.after (hfollows : context.Follows operations) (operation : Operation) :
    (operation.after context).Follows (operations ++ [operation]) := by
  have hsinks : (operations ++ [operation]).flatMap Operation.sinkNames =
      operations.flatMap Operation.sinkNames ++ operation.sinkNames := by
    rw [List.flatMap_append, List.flatMap_singleton]
  have htransforms : (operations ++ [operation]).flatMap Operation.transformNames =
      operations.flatMap Operation.transformNames ++ operation.transformNames := by
    rw [List.flatMap_append, List.flatMap_singleton]
  have hinstalled : context.registry.builtinsInstalled = true →
      Operation.installBuiltins ∈ operations ++ [operation] :=
    fun hflag => List.mem_append_left _ (hfollows.installed hflag)
  cases operation with
  | compile source =>
      refine ⟨hfollows.numbered.compile source, ?_, ?_⟩
      · rw [hsinks, htransforms, Operation.after, registry_compile, Operation.sinkNames,
          Operation.transformNames, List.append_nil, List.append_nil]
        exact hfollows.holds
      · rw [Operation.after, registry_compile]
        exact hinstalled
  | addSink sink =>
      refine ⟨hfollows.numbered, ?_, ?_⟩
      · rw [hsinks, htransforms, Operation.after, value_instruments, Operation.transformNames,
          List.append_nil]
        exact hfollows.holds.addSink sink
      · rw [Operation.after, value_instruments, Registry.builtinsInstalled_addSink]
        exact hinstalled
  | addTransform transform =>
      refine ⟨hfollows.numbered, ?_, ?_⟩
      · rw [hsinks, htransforms, Operation.after, value_instruments, Operation.sinkNames,
          List.append_nil]
        exact hfollows.holds.addTransform transform
      · rw [Operation.after, value_instruments, Registry.builtinsInstalled_addTransform]
        exact hinstalled
  | installBuiltins =>
      refine ⟨hfollows.numbered, ?_, ?_⟩
      · rw [hsinks, htransforms, Operation.after, value_instruments]
        exact hfollows.installBuiltins
      · exact fun _ => List.mem_append_right _ (List.mem_singleton_self _)

/-- No call takes anything from the log. -/
theorem replayLog_prefix_after (context : Context) (operation : Operation) :
    context.replayLog <+: (operation.after context).replayLog := by
  cases operation with
  | compile source =>
      rw [Operation.after]
      rcases source.after_compile context with hsame | ⟨program, snapshots, hafter⟩
      · rw [hsame]
      · rw [hafter]
        exact List.prefix_append _ _
  | addSink _ => exact List.prefix_rfl
  | addTransform _ => exact List.prefix_rfl
  | installBuiltins => exact List.prefix_rfl

/-- The context after some calls. -/
def afterAll (context : Context) (operations : List Operation) : Context :=
  operations.foldl Operation.after context

theorem Follows.afterAll (hfollows : context.Follows operations) (later : List Operation) :
    (context.afterAll later).Follows (operations ++ later) := by
  induction later generalizing context operations with
  | nil =>
      rw [List.append_nil]
      exact hfollows
  | cons operation later ih =>
      rw [List.append_cons]
      exact ih (hfollows.after operation)

theorem replayLog_prefix_afterAll (context : Context) (later : List Operation) :
    context.replayLog <+: (context.afterAll later).replayLog := by
  induction later generalizing context with
  | nil => exact List.prefix_rfl
  | cons operation later ih => exact (replayLog_prefix_after context operation).trans (ih _)

theorem follows_create (palette : Text.Palette) (options : CompileOptions) :
    (create palette options .empty).Follows [] :=
  ⟨rfl, ⟨rfl, rfl⟩, fun hinstalled => absurd hinstalled Bool.false_ne_true⟩

/-- After any calls on a new context, and for any calls to come: entries of the replay log are
numbered by position and stay; compiling ends in one of four ways, each with its own effect; and
instruments go by the names asked for, each once and in the order of first use, so that a second one
with a name is refused. -/
theorem session_invariant (palette : Text.Palette) (options : CompileOptions)
    {operations : List Operation} {context : Context}
    (hsession : (create palette options .empty).afterAll operations = context) :
    context.Numbered ∧
      (∀ later, context.replayLog <+: (context.afterAll later).replayLog) ∧
      (∀ source : Source, source.Ends context (source.compile.outcome context)) ∧
      context.registry.sinkNames = (operations.flatMap Operation.sinkNames).eraseDups ∧
      context.registry.sinkNames.Nodup ∧
      (∀ sink : Sink, sink.name ∈ context.registry.sinkNames →
        ((instruments (Registry.addSink sink)).run context).value = (false, context)) ∧
      context.registry.transformNames = (operations.flatMap Operation.transformNames).eraseDups ∧
      context.registry.transformNames.Nodup ∧
      (∀ transform : Transform, transform.name ∈ context.registry.transformNames →
        ((instruments (Registry.addTransform transform)).run context).value =
          (false, context)) := by
  have hfollows : context.Follows operations := by
    rw [← hsession]
    exact (follows_create palette options).afterAll operations
  refine ⟨hfollows.numbered, context.replayLog_prefix_afterAll,
    fun source => source.ends_compile context, hfollows.holds.sinkNames, ?_, ?_,
    hfollows.holds.transformNames, ?_, ?_⟩
  · rw [hfollows.holds.sinkNames]
    exact nodup_eraseDups _
  · intro sink hmem
    rw [value_instruments, Registry.value_addSink, if_pos hmem]
  · rw [hfollows.holds.transformNames]
    exact nodup_eraseDups _
  · intro transform hmem
    rw [value_instruments, Registry.value_addTransform, if_pos hmem]

/-- A session with a program that is compiled, one that is refused, and a sink whose name is taken.
Both programs are replayed, so the log has five entries of the first and one of the second. -/
theorem session_invariant_taken :
    let accepted : Source := ⟨none, "overlay replay\nsync"⟩
    let refused : Source := ⟨none, "overlay replay\nprint true - true"⟩
    let first := (create .plain .default .empty).afterAll [.installBuiltins, .compile accepted]
    let context := first.afterAll [.compile refused, .addSink (.recorder "trace")]
    first.replayLog <+: context.replayLog ∧
      (refused.compile.outcome first).1 =
        .error (.analysis [⟨2, .operands .subtract .boolean .boolean⟩]) ∧
      context.replayLog.map (·.phase) =
        [.parsed, .analyzed, .optimized, .beforeEmit, .afterEmit, .parsed] ∧
      context.replayLog.map (·.index) = [0, 1, 2, 3, 4, 5] ∧
      context.registry.sinkNames = ["inspect", "trace"] ∧
      ((instruments (Registry.addSink (.recorder "trace"))).run context).value =
        (false, context) := by
  intro accepted refused first context
  have hsession : (create .plain .default .empty).afterAll [.installBuiltins, .compile accepted,
      .compile refused, .addSink (.recorder "trace")] = context := rfl
  obtain ⟨-, hkept, -⟩ := session_invariant .plain .default (rfl : _ = first)
  obtain ⟨hnumbered, -, -, hsinks, -, htaken, -⟩ := session_invariant .plain .default hsession
  have hread : accepted.reading =
      .ok [.simple 1 (.directive [⟨1, "replay", []⟩]), .simple 2 .sync] := by cbv
  have hother : refused.reading = .ok [.simple 1 (.directive [⟨1, "replay", []⟩]),
      .simple 2 (.print (some (.binary 2 .subtract (.literal 2 (.boolean true))
        (.literal 2 (.boolean true)))))] := by cbv
  have hrefused : refused.compile.outcome first = _ :=
    Source.compile_of_refused hother (by cbv)
  have hphases : context.replayLog.map (·.phase) =
      [.parsed, .analyzed, .optimized, .beforeEmit, .afterEmit, .parsed] := by
    have hlog : context.replayLog = (refused.compile.outcome first).2.replayLog := rfl
    have hfirst : first = (accepted.compile.outcome
      ((create .plain .default .empty).afterAll [.installBuiltins])).2 := rfl
    rw [hlog, hrefused, hfirst, Source.compile_of_accepted hread (by cbv) rfl]
    rfl
  have hlength := congrArg List.length hphases
  rw [List.length_map] at hlength
  rw [Numbered, hlength] at hnumbered
  have hnames : context.registry.sinkNames = ["inspect", "trace"] := hsinks
  have hmem : "trace" ∈ context.registry.sinkNames := by
    rw [hnames]
    decide
  exact ⟨hkept _, congrArg Prod.fst hrefused, hphases, hnumbered, hnames, htaken _ hmem⟩

end Context

end Tide
