import Tide.Flags
import Tide.Proofs.Overlay.Reading

/-!
# Where overlays end up

Reading a program loses, doubles and misplaces no overlay.  Each run of directives goes whole to the
function behind it, or else to one statement, and nothing is left over between two statements.
Walking the program meets the directives in the order of the source, except that those of a default
clause come behind those of the other clauses.  So the features that a program asks for are those
its directives name.
-/

namespace Tide

/-! ## Replay paths -/

namespace Overlay

/-- The overlay asks for a replay log at the path. -/
def Replays (overlay : Overlay) (path : String) : Prop :=
  overlay.name = "replay" ∧ ∃ rest, overlay.arguments = .string path :: rest

/-- The first of these overlays that asks for a replay log at some path asks for it at this one. -/
def FirstReplay (overlays : List Overlay) (path : String) : Prop :=
  ∃ before overlay after, overlays = before ++ overlay :: after ∧ overlay.Replays path ∧
    ∀ earlier ∈ before, ∀ other, ¬earlier.Replays other

theorem replayPath?_eq_some_iff {overlay : Overlay} {path : String} :
    overlay.replayPath? = some path ↔ overlay.Replays path := by
  rcases overlay with ⟨line, name, arguments⟩
  by_cases hname : name = "replay"
  · rcases arguments with _ | ⟨_ | _ | _, rest⟩ <;>
      simp [replayPath?, isNamed, Replays, hname]
  · simp [replayPath?, isNamed, Replays, hname]

theorem findSome?_replayPath?_iff {overlays : List Overlay} {path : String} :
    overlays.findSome? replayPath? = some path ↔ FirstReplay overlays path := by
  have hnone (overlay : Overlay) :
      overlay.replayPath? = none ↔ ∀ other, ¬overlay.Replays other := by
    simp only [← replayPath?_eq_some_iff, Option.eq_none_iff_forall_ne_some, ne_eq]
  simp only [List.findSome?_eq_some_iff, FirstReplay, replayPath?_eq_some_iff, hnone]

theorem any_isNamed_iff {overlays : List Overlay} {names : List String} :
    overlays.any (isNamed names) = true ↔ ∃ overlay ∈ overlays, overlay.name ∈ names := by
  simp [isNamed]

end Overlay

theorem Stmt.isMutate_iff {statement : Stmt} :
    statement.isMutate = true ↔
      ∃ line target value, statement = .simple line (.mutate target value) := by
  constructor
  · intro hmutate
    cases statement with
    | simple line action => cases action <;> simp_all [isMutate]
    | _ => cases hmutate
  · rintro ⟨line, target, value, rfl⟩
    rfl

/-! ## The program and its trace -/

namespace Program

/-- The program that reading with a buffer gives, and the buffer in the end. -/
def readBuffered (tokens : List Token) : Option (Program × Buffer) :=
  match Parser.Buffered.topLevel (Cursor.ofTokens tokens).nesting .empty
    (Cursor.ofTokens tokens) with
  | .ok result _ => some result
  | .error _ _ => none

/-- Reading the tokens with a buffer gives the program and the trace and empties the buffer. -/
def Traced (tokens : List Token) (program : Program) (trace : Trace) : Prop :=
  readBuffered tokens = some (program, ⟨[], trace⟩)

/-- Reading with and without a buffer ends in the same way.  Where it gives a program, the trace
accounts for what takes overlays in it. -/
theorem agrees_topLevel (tokens : List Token) :
    Parser.Agrees (fun program => Stable ((Account.empty (Cursor.ofTokens tokens)).add
        (takers program)))
      (Parser.Buffered.topLevel (Cursor.ofTokens tokens).nesting .empty (Cursor.ofTokens tokens))
      (Parser.topLevel (Cursor.ofTokens tokens).nesting (Cursor.ofTokens tokens)) :=
  Parser.follows_topLevel _ _ _ _ ⟨Cursor.finish_ofTokens tokens, rfl, .done (.refl _)⟩

/-- What is read as a program is read as the same program with a buffer. -/
theorem exists_traced {tokens : List Token} {program : Program}
    (hread : (ofTokens tokens).result = .ok program) :
    ∃ trace last, Traced tokens program trace ∧
      trace.Accounts (Cursor.ofTokens tokens) last program.takers [] := by
  have hagrees := agrees_topLevel tokens
  simp only [ofTokens] at hread
  simp only [Traced, readBuffered]
  generalize Parser.topLevel _ (Cursor.ofTokens tokens) = plain at hread hagrees
  generalize Parser.Buffered.topLevel _ _ (Cursor.ofTokens tokens) = buffered at hagrees
  cases hagrees with
  | error => cases hread
  | @ok found last buffer hstable =>
      cases hread
      rcases buffer with ⟨pending, trace⟩
      obtain ⟨hfinish, rfl, haccounts⟩ := hstable
      exact ⟨trace, last, rfl, haccounts⟩

/-- What is read as a program with a buffer is read as the same program. -/
theorem result_of_readBuffered {tokens : List Token} {program : Program} {buffer : Buffer}
    (hread : readBuffered tokens = some (program, buffer)) :
    (ofTokens tokens).result = .ok program := by
  have hagrees := agrees_topLevel tokens
  rw [readBuffered] at hread
  rw [ofTokens]
  generalize Parser.topLevel _ (Cursor.ofTokens tokens) = plain at hagrees
  generalize Parser.Buffered.topLevel _ _ (Cursor.ofTokens tokens) = buffered at hread hagrees
  cases hagrees with
  | error => cases hread
  | ok hstable =>
      cases hread
      rfl

/-- The overlays of the program are the directives in the trace, and its features those that the
directives ask for. -/
structure Placed (program : Program) (trace : Trace) : Prop where
  /-- Walking the program meets all directives, those of a default clause behind those of the other
  clauses. -/
  overlays : program.overlays = Event.directives trace.rearranged
  perm : program.overlays.Perm (Event.directives trace.events)
  inOrder : trace.InOrder → program.overlays = Event.directives trace.events
  /-- The functions and statements that the program has hold the runs they took. -/
  takers : program.takers = Event.takers trace.rearranged
  inspect : (FeatureFlags.scan program).value.inspect = true ↔
    ∃ overlay ∈ Event.directives trace.events, overlay.name = "inspect" ∨ overlay.name = "audit"
  replay : (FeatureFlags.scan program).value.replay = true ↔
    ∃ overlay ∈ Event.directives trace.events, overlay.name = "replay"
  mutate : (FeatureFlags.scan program).value.mutate = true ↔
    (∃ overlay ∈ Event.directives trace.events, overlay.name = "mutate") ∨
      ∃ line target value, program.Contains (.simple line (.mutate target value))
  replayPath : ∀ path, (FeatureFlags.scan program).value.replayPath = some path ↔
    Overlay.FirstReplay (Event.directives trace.rearranged) path
  replayPath_inOrder : trace.InOrder →
    ∀ path, (FeatureFlags.scan program).value.replayPath = some path ↔
      Overlay.FirstReplay (Event.directives trace.events) path

theorem placed_of_overlays {program : Program} {trace : Trace}
    (hoverlays : program.overlays = Event.directives trace.rearranged)
    (htakers : program.takers = Event.takers trace.rearranged) : Placed program trace := by
  have hperm : program.overlays.Perm (Event.directives trace.events) := by
    rw [hoverlays]
    exact trace.rearranged_perm.filterMap _
  have hinOrder : trace.InOrder → program.overlays = Event.directives trace.events := fun horder =>
    hoverlays.trans (Trace.directives_rearranged horder)
  have hnamed (names : List String) : program.overlays.any (Overlay.isNamed names) = true ↔
      ∃ overlay ∈ Event.directives trace.events, overlay.name ∈ names := by
    simp only [Overlay.any_isNamed_iff, hperm.mem_iff]
  have hpath (path : String) : (FeatureFlags.scan program).value.replayPath = some path ↔
      Overlay.FirstReplay program.overlays path :=
    Overlay.findSome?_replayPath?_iff
  have hmutate : program.allStatements.any Stmt.isMutate = true ↔
      ∃ line target value, program.Contains (.simple line (.mutate target value)) := by
    simp only [List.any_eq_true, mem_allStatements_iff, Stmt.isMutate_iff]
    constructor
    · rintro ⟨statement, hcontains, line, target, value, rfl⟩
      exact ⟨line, target, value, hcontains⟩
    · rintro ⟨line, target, value, hcontains⟩
      exact ⟨_, hcontains, line, target, value, rfl⟩
  exact {
    overlays := hoverlays
    perm := hperm
    inOrder := hinOrder
    takers := htakers
    inspect := (hnamed ["inspect", "audit"]).trans (by simp)
    replay := (hnamed ["replay"]).trans (by simp)
    mutate := by
      have hflag : (FeatureFlags.scan program).value.mutate = true ↔ _ := Bool.or_eq_true_iff ..
      rw [hflag, hmutate, hnamed]
      simp
    replayPath path := by rw [hpath, hoverlays]
    replayPath_inOrder horder path := by rw [hpath, hinOrder horder] }

/-- No overlay is lost, doubled or given to another declaration.  Reading with a buffer for overlays
gives the same program, and nothing is in the buffer at the start or end of a statement.
The directives stand one after another in the source, and each run of them goes whole to what
follows it.  Where no switch or match has a second default clause, the program has all of them. -/
theorem overlays_placed {tokens : List Token} {program : Program}
    (hread : (ofTokens tokens).result = .ok program) :
    ∃ trace last, Traced tokens program trace ∧ trace.Clear ∧ HandedOver trace.events ∧
      InSource (Cursor.ofTokens tokens) trace.events last ∧
        (trace.OneFallback → Placed program trace) := by
  obtain ⟨trace, last, htraced, haccounts⟩ := exists_traced hread
  refine ⟨trace, last, htraced, haccounts.clear, haccounts.events, haccounts.inSource, ?_⟩
  intro hone
  obtain ⟨hmet, hheld⟩ := haccounts.takers hone
  have hhanded : HandedOver trace.rearranged := haccounts.met.append haccounts.heldBack
  have htakers : program.takers = Event.takers trace.rearranged := by
    rw [Trace.rearranged, Event.takers_append, hmet, hheld]
    exact (List.append_nil _).symm
  refine placed_of_overlays ?_ htakers
  calc program.overlays
    _ = program.takers.flatMap Taker.overlays := program.flatMap_takers.symm
    _ = (Event.takers trace.rearranged).flatMap Taker.overlays := by rw [htakers]
    _ = Event.directives trace.rearranged := hhanded.flatMap_overlays

/-- The tokens of four lines: `overlay inspect`, `overlay replay "log"`, `Fn f() { }` and
`overlay audit`. -/
def runBeforeFunction : List Token :=
  [⟨.keyword .overlay, "overlay", 1⟩, ⟨.identifier, "inspect", 1⟩,
   ⟨.keyword .overlay, "overlay", 2⟩, ⟨.identifier, "replay", 2⟩, ⟨.string, "log", 2⟩,
   ⟨.keyword .fnWord, "Fn", 3⟩, ⟨.identifier, "f", 3⟩, ⟨.symbol .openParen, "(", 3⟩,
   ⟨.symbol .closeParen, ")", 3⟩, ⟨.symbol .openBrace, "\x7b", 3⟩, ⟨.symbol .closeBrace, "\x7d", 3⟩,
   ⟨.keyword .overlay, "overlay", 4⟩, ⟨.identifier, "audit", 4⟩]

theorem overlays_placed_run : ∃ program trace,
    (ofTokens runBeforeFunction).result = .ok program ∧ trace.OneFallback ∧ trace.InOrder ∧
      Placed program trace ∧ Event.takers trace.events =
        [.function 3 .function "f" [⟨1, "inspect", []⟩, ⟨2, "replay", [.string "log"]⟩],
         .statement 4 [⟨4, "audit", []⟩]] := by
  obtain ⟨⟨program, buffer⟩, hread⟩ : ∃ result, readBuffered runBeforeFunction = some result :=
    Option.isSome_iff_exists.mp (by decide +kernel)
  have hview : (readBuffered runBeforeFunction).map (fun result =>
      (decide result.2.trace.OneFallback, decide result.2.trace.InOrder,
        Event.takers result.2.trace.events)) =
      some (true, true,
        [.function 3 .function "f" [⟨1, "inspect", []⟩, ⟨2, "replay", [.string "log"]⟩],
         .statement 4 [⟨4, "audit", []⟩]]) := by decide +kernel
  have hresult := result_of_readBuffered hread
  obtain ⟨trace, last, htraced, -, -, -, hplaced⟩ := overlays_placed hresult
  rw [htraced] at hview
  simp only [Option.map_some, Option.some.injEq, Prod.mk.injEq, decide_eq_true_eq] at hview
  obtain ⟨hone, horder, htakers⟩ := hview
  exact ⟨program, trace, hresult, hone, horder, hplaced hone, htakers⟩

/-- The tokens of `switch x { default { overlay replay "a" } case true { overlay replay "b" } }`. -/
def defaultBeforeCase : List Token :=
  [⟨.keyword .switchWord, "switch", 1⟩, ⟨.identifier, "x", 1⟩, ⟨.symbol .openBrace, "\x7b", 1⟩,
   ⟨.keyword .defaultWord, "default", 1⟩, ⟨.symbol .openBrace, "\x7b", 1⟩,
   ⟨.keyword .overlay, "overlay", 1⟩, ⟨.identifier, "replay", 1⟩, ⟨.string, "a", 1⟩,
   ⟨.symbol .closeBrace, "\x7d", 1⟩,
   ⟨.keyword .caseWord, "case", 1⟩, ⟨.keyword .trueWord, "true", 1⟩,
   ⟨.symbol .openBrace, "\x7b", 1⟩,
   ⟨.keyword .overlay, "overlay", 1⟩, ⟨.identifier, "replay", 1⟩, ⟨.string, "b", 1⟩,
   ⟨.symbol .closeBrace, "\x7d", 1⟩, ⟨.symbol .closeBrace, "\x7d", 1⟩]

/-- With a default clause before another clause, the directives are not met in the order of the
source, and the replay path is not that of the first one. -/
theorem overlays_default_before_case : ∃ program trace,
    (ofTokens defaultBeforeCase).result = .ok program ∧ Traced defaultBeforeCase program trace ∧
      trace.OneFallback ∧ program.overlays ≠ Event.directives trace.events ∧
      Overlay.FirstReplay (Event.directives trace.events) "a" ∧
      (FeatureFlags.scan program).value.replayPath = some "b" := by
  obtain ⟨⟨program, pending, trace⟩, hread⟩ :
      ∃ result, readBuffered defaultBeforeCase = some result :=
    Option.isSome_iff_exists.mp (by decide +kernel)
  have hview : (readBuffered defaultBeforeCase).map (fun result =>
      (result.2.pending, decide result.2.trace.OneFallback, result.1.overlays,
        Event.directives result.2.trace.events)) =
      some ([], true, [⟨1, "replay", [.string "b"]⟩, ⟨1, "replay", [.string "a"]⟩],
        [⟨1, "replay", [.string "a"]⟩, ⟨1, "replay", [.string "b"]⟩]) := by decide +kernel
  rw [hread] at hview
  simp only [Option.map_some, Option.some.injEq, Prod.mk.injEq, decide_eq_true_eq] at hview
  obtain ⟨rfl, hone, hoverlays, hdirectives⟩ := hview
  refine ⟨program, trace, result_of_readBuffered hread, hread, hone, ?_, ?_, ?_⟩
  · rw [hoverlays, hdirectives]
    decide
  · rw [hdirectives]
    exact ⟨[], _, _, rfl, ⟨rfl, [], rfl⟩, nofun⟩
  · change program.overlays.findSome? Overlay.replayPath? = some "b"
    rw [hoverlays]
    rfl

end Program

end Tide
