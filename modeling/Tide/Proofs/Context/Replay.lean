import Tide.Proofs.Context.Instruments
import Tide.Proofs.Context.Session
import Tide.Proofs.Emit.CodeLines
import Tide.Proofs.Grammar.SpeltPrograms
import Tide.Proofs.Tree.OutlineLines

/-!
# Cutting a replay back into its snapshots

A replay is one text, in which every entry of the log stands under a heading of its own.  It can be
cut at the headings, and every snapshot is found again, as long as no line of a snapshot looks like
a heading.  Generated code has no such line.  The outline of a tree has none if the labels of its
checkpoints keep to their lines, for everything else in it does.
-/

namespace Tide

open Text (IsClear split trimEnd)

theorem Text.split_feed (left right : List Char) :
    split (· == '\n') (left ++ '\n' :: right) =
      split (· == '\n') left ++ split (· == '\n') right :=
  split_append (by simp) left right

/-! ## Headings and what stands under them -/

namespace Context

/-- Whether the line looks like a heading of a replay. -/
def isHeading (line : List Char) : Bool := ['=', '=', '='].isPrefixOf line

/-- Every heading among the lines, with the lines under it up to the next. -/
def sections : List (List Char) → List (List Char × List (List Char))
  | [] => []
  | line :: rest =>
    if isHeading line then (line, rest.takeWhile (!isHeading ·)) :: sections rest
    else sections rest

/-- The phase that a heading names, behind the mark and the number. -/
def headedPhase? (heading : List Char) : Option Phase :=
  (Text.words heading)[2]?.bind fun word => Phase.ofText? (String.ofList word)

/-- A replay cut at its headings: the phase that each of them names, and the text under it without
the blanks at its end. -/
def cut (replay : String) : List (Option Phase × List Char) :=
  (sections (split (· == '\n') replay.toList)).map fun (heading, lines) =>
    (headedPhase? heading, trimEnd (['\n'].intercalate lines))

theorem map_fst_sections (lines : List (List Char)) :
    (sections lines).map Prod.fst = lines.filter isHeading := by
  induction lines with
  | nil => rfl
  | cons line rest ih =>
      rw [sections]
      split_ifs with hline
      · rw [List.map_cons, ih, List.filter_cons_of_pos hline]
      · rw [ih, List.filter_cons_of_neg hline]

section

variable {heading : List Char} {body rest : List (List Char)}

theorem sections_append (hbody : ∀ line ∈ body, isHeading line = false) :
    sections (body ++ rest) = sections rest := by
  induction body with
  | nil => rfl
  | cons line body ih =>
      obtain ⟨hline, hbody⟩ := List.forall_mem_cons.mp hbody
      rw [List.cons_append, sections, if_neg (by simp [hline]), ih hbody]

/-- A heading and lines that are none make a section, if a heading or nothing follows. -/
theorem sections_cons_append (hheading : isHeading heading = true)
    (hbody : ∀ line ∈ body, isHeading line = false)
    (hrest : ∀ line ∈ rest.head?, isHeading line = true) :
    sections (heading :: (body ++ rest)) = (heading, body) :: sections rest := by
  have hwhile : rest.takeWhile (!isHeading ·) = [] := by
    cases rest with
    | nil => rfl
    | cons line rest => simp [hrest line rfl]
  have htaken : (body ++ rest).takeWhile (!isHeading ·) = body := by
    rw [List.takeWhile_append_of_pos (by simpa using hbody), hwhile, List.append_nil]
  rw [sections, if_pos hheading, htaken, sections_append hbody]

end

end Context

/-! ## Entries -/

namespace PhaseSnapshot

open Context

variable (entry : PhaseSnapshot)

/-- The line above the entry. -/
def heading : List Char :=
  ("=== " ++ toString entry.index ++ " " ++ entry.phase.text ++ " ===").toList

/-- The lines under the heading, with the blank one that ends the entry. -/
def body : List (List Char) := split (· == '\n') (trimEnd entry.text.toList) ++ [[]]

theorem toList_heading :
    entry.heading = ['=', '=', '='] ++ ' ' :: ((Nat.toDigits 10 entry.index) ++
      ' ' :: (entry.phase.text.toList ++ ' ' :: ['=', '=', '='])) := by
  simp [heading, String.toList_append, Nat.toString_eq_repr]

theorem isHeading_heading : isHeading entry.heading = true := by
  rw [toList_heading, isHeading, List.isPrefixOf_iff_prefix]
  exact List.prefix_append _ _

theorem notMem_heading : '\n' ∉ entry.heading := by
  have hdigits : '\n' ∉ Nat.toDigits 10 entry.index := fun hmem =>
    absurd (Nat.isDigit_of_mem_toDigits (by decide) (by decide) hmem) (by decide)
  have hphase : '\n' ∉ entry.phase.text.toList := by
    cases entry.phase <;> decide
  simp [toList_heading, hdigits, hphase]

theorem headedPhase?_heading : headedPhase? entry.heading = some entry.phase := by
  have hmark : Text.words ['=', '=', '='] = [['=', '=', '=']] := rfl
  have hdigits : Text.words (Nat.toDigits 10 entry.index) = [Nat.toDigits 10 entry.index] :=
    Text.words_of_none (fun char hchar => Lexeme.isBlank_of_continuesWord
      (Bool.or_eq_true_iff.mpr (.inr (Nat.isDigit_of_mem_toDigits (by decide) (by decide) hchar))))
      Nat.toDigits_ne_nil
  have hphase : Text.words entry.phase.text.toList = [entry.phase.text.toList] := by
    cases entry.phase <;> rfl
  have hread : Phase.ofText? entry.phase.text = some entry.phase := by
    cases entry.phase <;> rfl
  have hblank : Text.isBlank ' ' = true := rfl
  rw [headedPhase?, toList_heading, Text.words_append hblank, Text.words_append hblank,
    Text.words_append hblank, hmark, hdigits, hphase]
  simpa using hread

/-- The lines under the heading spell the text of the entry. -/
theorem trimEnd_intercalate_body :
    trimEnd (['\n'].intercalate entry.body) = trimEnd entry.text.toList := by
  have hbody : entry.body = (trimEnd entry.text.toList ++ ['\n']).splitOn '\n' := by
    rw [List.splitOn, ← Text.split_eq_splitOnP]
    exact (Text.split_feed _ []).symm
  rw [hbody, List.intercalate_splitOn]
  exact (List.rdropWhile_concat_pos _ _ _ rfl).trans (List.rdropWhile_idempotent _ _)

/-- No line of the text looks like a heading. -/
def Unheaded : Prop :=
  ∀ line ∈ split (· == '\n') (trimEnd entry.text.toList), isHeading line = false

theorem unheaded_iff : entry.Unheaded ↔ ∀ line ∈ entry.body, isHeading line = false := by
  rw [body, List.forall_mem_append, List.forall_mem_singleton]
  exact ⟨fun hunheaded => ⟨hunheaded, rfl⟩, And.left⟩

theorem unheaded_of_isClear {entry : PhaseSnapshot} (hclear : IsClear entry.text) :
    entry.Unheaded := by
  have hmarked : ∀ line, isHeading line = true → line.head? = some '=' := by
    intro line hheading
    cases line with
    | nil => cases hheading
    | cons first rest =>
        rw [isHeading, List.isPrefixOf, Bool.and_eq_true, beq_iff_eq] at hheading
        rw [List.head?_cons, hheading.1]
  -- What is left of the text is the front of it, so none of its lines is marked either.
  obtain ⟨blanks, htext⟩ := List.rdropWhile_prefix Text.isBlank entry.text.toList
  have hunmarked := hclear.unmarked
  rw [← htext, Text.unmarked_append] at hunmarked
  obtain ⟨first, later, hsplit, hfirst, hlater⟩ := Text.head?_ne_of_unmarked hunmarked.1
  intro line hline
  refine Bool.eq_false_iff.mpr fun hheading => ?_
  rcases List.mem_cons.mp (hsplit ▸ hline : line ∈ first :: later) with rfl | hline
  · exact hfirst rfl (hmarked line hheading)
  · exact hlater line hline (hmarked line hheading)

theorem split_entryText :
    split (· == '\n') (entryText entry).toList =
      entry.heading :: split (· == '\n') (trimEnd entry.text.toList) := by
  have htext : (entryText entry).toList =
      entry.heading ++ '\n' :: trimEnd entry.text.toList := by
    simp [entryText, heading]
  have hheading : split (· == '\n') entry.heading = [entry.heading] := by
    rw [Text.split_eq_splitOnP, List.splitOnP_eq_singleton]
    intro char hchar
    exact beq_eq_false_iff_ne.mpr fun heq => entry.notMem_heading (heq ▸ hchar)
  rw [htext, Text.split_feed, hheading, List.singleton_append]

end PhaseSnapshot

namespace Context

section

variable {context : Context}

/-- Between line feeds, a replay has the headings and the lines of its entries. -/
theorem split_replayText (hlog : context.replayLog ≠ []) :
    split (· == '\n') context.replayText.toList =
      context.replayLog.flatMap fun entry => entry.heading :: entry.body := by
  have htext : context.replayText.toList =
      ['\n', '\n'].intercalate (context.replayLog.map (entryText · |>.toList)) ++ ['\n'] := by
    simp [replayText, String.toList_intercalate]
    rfl
  rw [htext]
  generalize context.replayLog = log at hlog
  induction log with
  | nil => exact absurd rfl hlog
  | cons entry log ih =>
      cases log with
      | nil =>
          rw [List.map_singleton, List.intercalate_singleton, List.flatMap_singleton,
            Text.split_feed, entry.split_entryText]
          rfl
      | cons next log =>
          have hrest := ih (List.cons_ne_nil _ _)
          rw [List.map_cons] at hrest
          rw [List.map_cons, List.map_cons, List.intercalate_cons_cons, List.append_assoc,
            List.append_assoc, List.cons_append, List.singleton_append, Text.split_feed,
            entry.split_entryText, split, if_pos (beq_self_eq_true _), hrest]
          simp only [List.flatMap_cons, PhaseSnapshot.body, List.cons_append, List.append_assoc,
            List.nil_append]

/-- If no line of an entry looks like a heading, the sections of a replay are its entries. -/
theorem sections_replayText (hlog : ∀ entry ∈ context.replayLog, entry.Unheaded) :
    sections (split (· == '\n') context.replayText.toList) =
      context.replayLog.map fun entry => (entry.heading, entry.body) := by
  have hsections : ∀ log : List PhaseSnapshot, (∀ entry ∈ log, entry.Unheaded) →
      sections (log.flatMap fun entry => entry.heading :: entry.body) =
        log.map fun entry => (entry.heading, entry.body) := by
    intro log hlog
    induction log with
    | nil => rfl
    | cons entry log ih =>
        obtain ⟨hentry, hlog⟩ := List.forall_mem_cons.mp hlog
        rw [List.flatMap_cons, List.cons_append, sections_cons_append entry.isHeading_heading
          (entry.unheaded_iff.mp hentry), ih hlog, List.map_cons]
        cases log with
        | nil => nofun
        | cons next log => simp [next.isHeading_heading]
  by_cases hempty : context.replayLog = []
  · have htext : context.replayText = "\n" := by
      rw [replayText, hempty]
      rfl
    rw [htext, hempty]
    rfl
  · rw [split_replayText hempty, hsections _ hlog]

/-- The lines that look like headings are the headings exactly if no entry has such a line. -/
theorem filter_isHeading_replayText_iff :
    (split (· == '\n') context.replayText.toList).filter isHeading =
        context.replayLog.map (·.heading) ↔
      ∀ entry ∈ context.replayLog, entry.Unheaded := by
  refine ⟨fun hfilter entry hentry => ?_, fun hlog => ?_⟩
  · have hlength : ∀ log : List PhaseSnapshot,
        ((log.flatMap fun entry => entry.heading :: entry.body).filter isHeading).length =
          log.length + ((log.flatMap (·.body)).filter isHeading).length := by
      intro log
      induction log with
      | nil => rfl
      | cons entry log ih =>
          simp only [List.flatMap_cons, List.cons_append, List.filter_append, List.length_append,
            List.filter_cons_of_pos entry.isHeading_heading, List.length_cons, ih]
          omega
    -- The headings alone make up the whole length, so nothing is left for the bodies.
    have hcount := congrArg List.length hfilter
    rw [split_replayText (List.ne_nil_of_mem hentry), hlength, List.length_map,
      Nat.add_eq_left, List.length_eq_zero_iff, List.filter_eq_nil_iff] at hcount
    refine entry.unheaded_iff.mpr fun line hline => Bool.eq_false_iff.mpr ?_
    exact hcount line (List.mem_flatMap.mpr ⟨entry, hentry, hline⟩)
  · rw [← map_fst_sections, sections_replayText hlog, List.map_map]
    rfl

theorem cut_replayText (hlog : ∀ entry ∈ context.replayLog, entry.Unheaded) :
    cut context.replayText =
      context.replayLog.map fun entry => (some entry.phase, trimEnd entry.text.toList) := by
  rw [cut, sections_replayText hlog, List.map_map]
  apply List.map_congr_left
  intro entry _
  simp only [Function.comp_apply, entry.headedPhase?_heading, entry.trimEnd_intercalate_body]

end

end Context

/-! ## Sessions -/

/-- The transform leaves programs spelt as a source can spell them, and labels on their lines. -/
structure Transform.KeepsSpelling (transform : Transform) : Prop where
  spelt : ∀ hook {program}, program.Spelt → (transform.apply hook program).value.Spelt
  labels : ∀ hook {program}, program.LabelsKeepToLine →
    (transform.apply hook program).value.LabelsKeepToLine

theorem Transform.keepsSpelling_reoptimize : reoptimize.KeepsSpelling where
  spelt _ _ hspelt := hspelt.optimize
  labels _ _ hlabels := hlabels.optimize

namespace Registry

/-- All transforms keep the spelling of programs. -/
def KeepsSpelling (registry : Registry) : Prop :=
  ∀ transform ∈ registry.transforms, transform.KeepsSpelling

theorem OnlyReoptimizes.keepsSpelling {registry : Registry} (honly : registry.OnlyReoptimizes) :
    registry.KeepsSpelling :=
  fun transform htransform => honly transform htransform ▸ Transform.keepsSpelling_reoptimize

namespace KeepsSpelling

variable {registry : Registry}

theorem addSink (hkeeps : registry.KeepsSpelling) (sink : Sink) :
    ((Registry.addSink sink).run registry).value.2.KeepsSpelling := by
  rw [value_addSink]
  split_ifs <;> exact hkeeps

theorem addTransform (hkeeps : registry.KeepsSpelling) {transform : Transform}
    (htransform : transform.KeepsSpelling) :
    ((Registry.addTransform transform).run registry).value.2.KeepsSpelling := by
  rw [value_addTransform]
  split_ifs
  · exact hkeeps
  · exact List.forall_mem_append.mpr ⟨hkeeps, List.forall_mem_singleton.mpr htransform⟩

theorem installBuiltins (hkeeps : registry.KeepsSpelling) :
    (Registry.installBuiltins.run registry).value.2.KeepsSpelling := by
  cases hinstalled : registry.builtinsInstalled with
  | true =>
      rw [value_installBuiltins_of_installed _ hinstalled]
      exact hkeeps
  | false =>
      have hmarked : KeepsSpelling { registry with builtinsInstalled := true } := hkeeps
      rw [value_installBuiltins _ hinstalled]
      exact ((hmarked.addSink _).addSink _).addTransform Transform.keepsSpelling_reoptimize

end KeepsSpelling

end Registry

/-- The program is spelt as a source can spell it, and its labels are on their lines if labels
are. -/
structure Program.SpeltWith (program : Program) (labelsKeep : Prop) : Prop where
  spelt : program.Spelt
  labels : labelsKeep → program.LabelsKeepToLine

namespace Program.SpeltWith

variable {program : Program} {labelsKeep : Prop}

theorem optimize (hprogram : program.SpeltWith labelsKeep) :
    program.optimize.SpeltWith labelsKeep where
  spelt := hprogram.spelt.optimize
  labels hkept := (hprogram.labels hkept).optimize

theorem runTransforms (hprogram : program.SpeltWith labelsKeep) {transforms : List Transform}
    (hkeeps : ∀ transform ∈ transforms, transform.KeepsSpelling) (hook : Hook) :
    (Registry.runTransforms hook transforms program).value.SpeltWith labelsKeep := by
  induction transforms generalizing program with
  | nil => exact hprogram
  | cons transform transforms ih =>
      obtain ⟨htransform, htransforms⟩ := List.forall_mem_cons.mp hkeeps
      refine ih ⟨?_, fun hkept => ?_⟩ htransforms
      · exact htransform.spelt hook hprogram.spelt
      · exact htransform.labels hook (hprogram.labels hkept)

theorem optimized (hprogram : program.SpeltWith labelsKeep) {context : Context}
    (hkeeps : context.registry.KeepsSpelling) :
    (context.optimized program).SpeltWith labelsKeep := by
  have htransformed : ∀ hook {program : Program}, program.SpeltWith labelsKeep →
      (context.transformed hook program).SpeltWith labelsKeep := by
    intro hook program hprogram
    rw [Context.transformed]
    split
    case isTrue => exact hprogram.runTransforms hkeeps hook
    case isFalse => exact hprogram
  exact htransformed _ (htransformed _ hprogram).optimize

end Program.SpeltWith

theorem Source.spelt_of_reading {source : Source} {program : Program}
    (hreading : source.reading = .ok program) : program.Spelt := by
  cases hscan : Token.scan source.text with
  | error error => cases (reading_of_scan_error hscan).symm.trans hreading
  | ok tokens =>
      rw [reading_of_scan hscan] at hreading
      cases hread : (Program.ofTokens tokens).result with
      | error error =>
          rw [hread] at hreading
          cases hreading
      | ok parsed =>
          rw [hread] at hreading
          cases hreading
          exact Program.spelt_of_read hscan hread

namespace Context

/-- No line of generated code in the log starts with an equals sign, nor does one of an outline if
labels keep to their lines. -/
structure Clear (context : Context) (labelsKeep : Prop) : Prop where
  registry : context.registry.KeepsSpelling
  log : ∀ entry ∈ context.replayLog, entry.phase = .afterEmit ∨ labelsKeep → IsClear entry.text

variable {context : Context} {labelsKeep : Prop}

theorem isClear_of_mem_entries {palette : Text.Palette} {snapshots : List (Phase × Snapshot)}
    (hsnapshots : ∀ snapshot ∈ snapshots, snapshot.1 = .afterEmit ∨ labelsKeep →
      IsClear (snapshot.2.plainText palette)) {count : Nat} {entry : PhaseSnapshot}
    (hentry : entry ∈ entries palette count snapshots)
    (hkept : entry.phase = .afterEmit ∨ labelsKeep) : IsClear entry.text := by
  induction snapshots generalizing count with
  | nil => cases hentry
  | cons snapshot snapshots ih =>
      obtain ⟨hsnapshot, hsnapshots⟩ := List.forall_mem_cons.mp hsnapshots
      rcases List.mem_cons.mp hentry with rfl | hentry
      · exact hsnapshot hkept
      · exact ih hsnapshots hentry

theorem Clear.observed (hclear : context.Clear labelsKeep) {snapshots : List (Phase × Snapshot)}
    (hsnapshots : ∀ snapshot ∈ snapshots, snapshot.1 = .afterEmit ∨ labelsKeep →
      IsClear (snapshot.2.plainText context.palette)) :
    (context.observed snapshots).Clear labelsKeep where
  registry := hclear.registry
  log := by
    intro entry hentry hkept
    rcases List.mem_append.mp hentry with hentry | hentry
    · exact hclear.log entry hentry hkept
    · split_ifs at hentry
      · exact isClear_of_mem_entries hsnapshots hentry hkept
      · cases hentry

theorem Clear.compile (hclear : context.Clear labelsKeep) {source : Source}
    (hlabels : labelsKeep → ∀ program, source.reading = .ok program → program.LabelsKeepToLine) :
    (source.compile.outcome context).2.Clear labelsKeep := by
  have htree : ∀ {phase : Phase} {program : Program}, phase ≠ .afterEmit →
      program.SpeltWith labelsKeep → phase = .afterEmit ∨ labelsKeep →
        IsClear ((Snapshot.tree program).plainText context.palette) :=
    fun hphase hprogram hkept =>
      (hprogram.spelt.legible (hprogram.labels (hkept.resolve_left hphase))).isClear_outline _
  cases hreading : source.reading with
  | error error =>
      rw [Source.compile_of_unread hreading]
      exact hclear
  | ok parsed =>
      have hparsed : parsed.SpeltWith labelsKeep :=
        ⟨Source.spelt_of_reading hreading, fun hkept => hlabels hkept parsed hreading⟩
      have hentered : (context.entered source.origin parsed).Clear labelsKeep :=
        ⟨hclear.registry, hclear.log⟩
      cases hanalyze : parsed.analyze with
      | error findings =>
          rw [Source.compile_of_refused hreading hanalyze]
          exact hentered.observed (List.forall_mem_singleton.mpr (htree nofun hparsed))
      | ok accepted =>
          have hoptimized := hparsed.optimized hentered.registry
          have hcode : IsClear (source.compilation (context.entered source.origin parsed) parsed
              accepted).code := hoptimized.spelt.isClear_emit _
          rw [Source.compile_of_accepted hreading hanalyze rfl]
          apply hentered.observed
          simp only [List.forall_mem_cons]
          exact ⟨htree nofun hparsed, htree nofun hparsed, htree nofun hoptimized,
            htree nofun hoptimized, fun _ => hcode, nofun⟩

theorem Clear.after (hclear : context.Clear labelsKeep) {operation : Operation}
    (htransforms : ∀ transform, operation = .addTransform transform → transform.KeepsSpelling)
    (hlabels : labelsKeep → ∀ source, operation = .compile source →
      ∀ program, source.reading = .ok program → program.LabelsKeepToLine) :
    (operation.after context).Clear labelsKeep := by
  cases operation with
  | compile source => exact hclear.compile fun hkept => hlabels hkept source rfl
  | addSink sink => exact ⟨hclear.registry.addSink sink, hclear.log⟩
  | addTransform transform =>
      exact ⟨hclear.registry.addTransform (htransforms transform rfl), hclear.log⟩
  | installBuiltins => exact ⟨hclear.registry.installBuiltins, hclear.log⟩

theorem Clear.afterAll (hclear : context.Clear labelsKeep) {operations : List Operation}
    (htransforms : ∀ transform, .addTransform transform ∈ operations → transform.KeepsSpelling)
    (hlabels : labelsKeep → ∀ source, .compile source ∈ operations →
      ∀ program, source.reading = .ok program → program.LabelsKeepToLine) :
    (context.afterAll operations).Clear labelsKeep := by
  induction operations generalizing context with
  | nil => exact hclear
  | cons operation operations ih =>
      have hafter : (operation.after context).Clear labelsKeep :=
        hclear.after (fun transform heq => htransforms transform (heq ▸ List.mem_cons_self))
          fun hkept source heq => hlabels hkept source (heq ▸ List.mem_cons_self)
      exact ih hafter (fun transform hmem => htransforms transform (List.mem_cons_of_mem _ hmem))
        fun hkept source hmem => hlabels hkept source (List.mem_cons_of_mem _ hmem)

/-- After any calls on a new context, no line of the generated code in the replay looks like a
heading.  The lines that do are the headings of the log, in order, exactly if no line of an outline
does.  Cutting the replay at them then gives the phase and the text of every entry.  So it is if
every label that was compiled keeps to its line. -/
theorem replayText_cut_at_headings (palette : Text.Palette) (options : CompileOptions)
    {registry : Registry} (hregistry : registry.KeepsSpelling) {operations : List Operation}
    (htransforms : ∀ transform, .addTransform transform ∈ operations → transform.KeepsSpelling)
    {context : Context}
    (hsession : (create palette options registry).afterAll operations = context) :
    (∀ entry ∈ context.replayLog, entry.phase = .afterEmit → entry.Unheaded) ∧
      ((split (· == '\n') context.replayText.toList).filter isHeading =
          context.replayLog.map (·.heading) ↔
        ∀ entry ∈ context.replayLog, entry.phase ≠ .afterEmit → entry.Unheaded) ∧
      ((split (· == '\n') context.replayText.toList).filter isHeading =
          context.replayLog.map (·.heading) →
        cut context.replayText =
          context.replayLog.map fun entry => (some entry.phase, trimEnd entry.text.toList)) ∧
      ((∀ source, .compile source ∈ operations →
          ∀ program, source.reading = .ok program → program.LabelsKeepToLine) →
        (split (· == '\n') context.replayText.toList).filter isHeading =
          context.replayLog.map (·.heading)) := by
  have hclear : ∀ {labelsKeep : Prop}, (labelsKeep → ∀ source, .compile source ∈ operations →
      ∀ program, source.reading = .ok program → program.LabelsKeepToLine) →
        context.Clear labelsKeep := by
    intro labelsKeep hlabels
    have hcreated : (create palette options registry).Clear labelsKeep := ⟨hregistry, nofun⟩
    exact hsession ▸ hcreated.afterAll htransforms hlabels
  have hcode : ∀ entry ∈ context.replayLog, entry.phase = .afterEmit → entry.Unheaded :=
    fun entry hentry hphase =>
      PhaseSnapshot.unheaded_of_isClear ((hclear False.elim).log entry hentry (.inl hphase))
  rw [filter_isHeading_replayText_iff]
  refine ⟨hcode, ⟨fun hlog entry hentry _ => hlog entry hentry, fun htrees entry hentry => ?_⟩,
    cut_replayText, fun hlabels entry hentry => ?_⟩
  · by_cases hphase : entry.phase = .afterEmit
    · exact hcode entry hentry hphase
    · exact htrees entry hentry hphase
  · exact PhaseSnapshot.unheaded_of_isClear
      ((hclear fun _ => hlabels).log entry hentry (.inr hlabels))

section

variable (palette : Text.Palette) (options : CompileOptions) (registry : Registry)
  {source : Source} {program : Program} {accepted : Accepted}

/-- The log of a new context after a program that is to be replayed. -/
theorem exists_replayLog_compile (hreading : source.reading = .ok program)
    (hanalyze : program.analyze = .ok accepted)
    (hreplay : (FeatureFlags.ofProgram program).replay = true) :
    ∃ optimized code,
      ((create palette options registry).afterAll [.compile source]).replayLog =
        entries palette 0 [(.parsed, .tree program), (.analyzed, .tree program),
          (.optimized, .tree optimized), (.beforeEmit, .tree optimized),
          (.afterEmit, .text code)] := by
  let entered := (create palette options registry).entered source.origin program
  have hflag : entered.flags.replay = true := hreplay
  refine ⟨entered.optimized program, (source.compilation entered program accepted).code, ?_⟩
  rw [afterAll, List.foldl_cons, List.foldl_nil, Operation.after,
    Source.compile_of_accepted hreading hanalyze rfl, observed, if_pos hflag]
  rfl

end

theorem replayText_cut_at_headings_label :
    (cut ((create .plain .default .builtin).afterAll
        [.compile ⟨none, "overlay replay\ncheckpoint \"=== 9 parsed ===\""⟩]).replayText).map
        Prod.fst =
      [some .parsed, some .analyzed, some .optimized, some .beforeEmit, some .afterEmit] := by
  have hreading : (Source.mk none "overlay replay\ncheckpoint \"=== 9 parsed ===\"").reading =
      .ok [.simple 1 (.directive [⟨1, "replay", []⟩]),
        .simple 2 (.checkpoint (some "=== 9 parsed ==="))] := by cbv
  have hstatements : Program.allStatements [.simple 1 (.directive [⟨1, "replay", []⟩]),
      .simple 2 (.checkpoint (some "=== 9 parsed ==="))] =
        [.simple 1 (.directive [⟨1, "replay", []⟩]),
          .simple 2 (.checkpoint (some "=== 9 parsed ==="))] := rfl
  obtain ⟨-, -, hcut, hheadings⟩ := replayText_cut_at_headings .plain .default
    Registry.onlyReoptimizes_builtin.keepsSpelling (by simp)
    (rfl : (create .plain .default .builtin).afterAll
      [.compile ⟨none, "overlay replay\ncheckpoint \"=== 9 parsed ===\""⟩] = _)
  obtain ⟨optimized, code, hlog⟩ :=
    exists_replayLog_compile .plain .default .builtin hreading rfl rfl
  rw [hcut (hheadings ?_), hlog]
  · rfl
  · intro source hsource program hprogram
    cases List.mem_singleton.mp hsource
    cases hreading.symm.trans hprogram
    rw [Program.LabelsKeepToLine, hstatements, List.forall_mem_cons, List.forall_mem_singleton]
    refine ⟨fun label hlabel => ?_, fun label hlabel => ?_⟩
    · cases hlabel
    · cases hlabel
      exact Text.keepsToLine_of_notMem (by decide) (by decide)

/-- An outline with a line that looks like a heading puts one heading too many into the replay. -/
theorem filter_isHeading_ne (palette : Text.Palette) (options : CompileOptions)
    (registry : Registry) {source : Source} {program : Program} {accepted : Accepted}
    (hreading : source.reading = .ok program) (hanalyze : program.analyze = .ok accepted)
    (hreplay : (FeatureFlags.ofProgram program).replay = true) {line : List Char}
    (hline : line ∈
      split (· == '\n') (trimEnd (Text.stripSequences (program.outline palette)).toList))
    (hheading : isHeading line = true) {context : Context}
    (hsession : (create palette options registry).afterAll [.compile source] = context) :
    (split (· == '\n') context.replayText.toList).filter isHeading ≠
      context.replayLog.map (·.heading) := by
  obtain ⟨optimized, code, hlog⟩ :=
    exists_replayLog_compile palette options registry hreading hanalyze hreplay
  rw [hsession] at hlog
  rw [ne_eq, filter_isHeading_replayText_iff, hlog, entries, List.forall_mem_cons]
  rintro ⟨hparsed, -⟩
  exact Bool.false_ne_true ((hparsed line hline).symm.trans hheading)

/-- A line feed in a label starts a line of its own.  So does the one behind a label that ends in an
escape character, if all up to the next escape character is taken for a sequence. -/
theorem replayText_headings_forged :
    (split (· == '\n') ((create .plain .default .builtin).afterAll
        [.compile ⟨none, "overlay replay\ncheckpoint \"a\\n=== 9 parsed ===\""⟩]
          ).replayText.toList).filter isHeading ≠
      ((create .plain .default .builtin).afterAll
        [.compile ⟨none, "overlay replay\ncheckpoint \"a\\n=== 9 parsed ===\""⟩]
          ).replayLog.map (·.heading) ∧
    (split (· == '\n') ((create .plain .default .builtin).afterAll
        [.compile ⟨none,
          "overlay replay\ncheckpoint \"\x1b\"\nX = y\ncheckpoint \"\x1bc=== 9 parsed ===\""⟩]
          ).replayText.toList).filter isHeading ≠
      ((create .plain .default .builtin).afterAll
        [.compile ⟨none,
          "overlay replay\ncheckpoint \"\x1b\"\nX = y\ncheckpoint \"\x1bc=== 9 parsed ===\""⟩]
          ).replayLog.map (·.heading) := by
  have hfeed : (Source.mk none "overlay replay\ncheckpoint \"a\\n=== 9 parsed ===\"").reading =
      .ok [.simple 1 (.directive [⟨1, "replay", []⟩]),
        .simple 2 (.checkpoint (some "a\n=== 9 parsed ==="))] := by cbv
  have hescape : (Source.mk none
      "overlay replay\ncheckpoint \"\x1b\"\nX = y\ncheckpoint \"\x1bc=== 9 parsed ===\"").reading =
        .ok [.simple 1 (.directive [⟨1, "replay", []⟩]), .simple 2 (.checkpoint (some "\x1b")),
          .simple 3 (.assign (.name 3 "X") .assign (.name 3 "y")),
          .simple 4 (.checkpoint (some "\x1bc=== 9 parsed ==="))] := by cbv
  have hforged : isHeading "=== 9 parsed ===".toList = true := by decide
  exact ⟨filter_isHeading_ne .plain .default .builtin hfeed rfl rfl (by decide +kernel) hforged rfl,
    filter_isHeading_ne .plain .default .builtin hescape rfl rfl (by decide +kernel) hforged rfl⟩

end Context

end Tide
