import Tide.Proofs.Emit.Writing

/-!
# Headers and support code exactly when they are used

Emission notes what a statement relies on when it comes to it.  Whatever the way through a program,
what is noted in the end is what the statements anywhere in it ask for.  The output includes the
support code of those notes, and the headers of both, in ascending order and each once.
-/

namespace Tide

namespace Emit

/-! ## Headers in order -/

namespace Requirements

theorem mem_insert {header other : String} {headers : List String} :
    other ∈ insert header headers ↔ other = header ∨ other ∈ headers := by
  induction headers with
  | nil => simp [insert]
  | cons first rest ih =>
      rw [insert]
      split
      · exact List.mem_cons
      · split
        · simp_all
        · simp [ih, or_left_comm]

theorem pairwise_insert {headers : List String} (hascending : headers.Pairwise (· < ·))
    (header : String) : (insert header headers).Pairwise (· < ·) := by
  induction hascending with
  | nil => exact List.pairwise_singleton _ _
  | @cons first rest hfirst hrest ih =>
      rw [insert]
      split
      next hbefore =>
        refine .cons (fun other hother => ?_) (.cons hfirst hrest)
        rcases List.mem_cons.mp hother with rfl | hother
        · exact hbefore
        · exact hbefore.trans (hfirst other hother)
      next hbefore =>
        split
        · exact .cons hfirst hrest
        next hne =>
          refine .cons (fun other hother => ?_) ih
          rcases mem_insert.mp hother with rfl | hother
          · exact lt_of_le_of_ne (not_lt.mp hbefore) (Ne.symm hne)
          · exact hfirst other hother

theorem mem_insertAll {header : String} {headers added : List String} :
    header ∈ insertAll headers added ↔ header ∈ headers ∨ header ∈ added := by
  induction added generalizing headers with
  | nil => simp [insertAll]
  | cons first rest ih =>
      rw [insertAll, List.foldl_cons, ← insertAll, ih, mem_insert, List.mem_cons]
      tauto

theorem pairwise_insertAll {headers : List String} (hascending : headers.Pairwise (· < ·))
    (added : List String) : (insertAll headers added).Pairwise (· < ·) := by
  induction added generalizing headers with
  | nil => exact hascending
  | cons first rest ih => exact ih (pairwise_insert hascending first)

theorem pairwise_included {requirements : Requirements}
    (hascending : requirements.headers.Pairwise (· < ·)) :
    requirements.included.Pairwise (· < ·) := by
  rw [included]
  generalize requirements.headers = headers at hascending
  induction requirements.supportHeaders generalizing headers with
  | nil => exact hascending
  | cons first rest ih =>
      rcases first with ⟨needed, added⟩
      cases needed
      · exact ih headers hascending
      · exact ih _ (pairwise_insertAll hascending added)

end Requirements

/-! ## Kinds of statements and what they need -/

/-- The pieces of support code, in the order of the output. -/
inductive Piece where
  | toText
  | files
  | channel
  | runList

namespace Piece

def all : List Piece := [toText, files, channel, runList]

def code : Piece → String
  | toText => Support.toText
  | files => Support.files
  | channel => Support.channel
  | runList => Support.runList

/-- The headers that the code needs. -/
def headers : Piece → List String
  | toText => ["sstream"]
  | files => ["fstream", "sstream"]
  | channel => ["condition_variable", "deque", "mutex"]
  | runList => ["algorithm", "functional", "vector"]

theorem mem_all (piece : Piece) : piece ∈ all := by
  cases piece <;> simp [all]

end Piece

/-- The kinds of statements that rely on a header or on support code. -/
inductive Kind where
  | raise
  | read
  | write
  | channel
  | schedule
  | bounds
  | sync
  | duration
  | attempt

namespace Kind

def piece? : Kind → Option Piece
  | raise => some .toText
  | read | write => some .files
  | channel => some .channel
  | schedule => some .runList
  | bounds | sync | duration | attempt => none

/-- The headers that a statement of this kind needs, support code included. -/
def headers : Kind → List String
  | raise => ["sstream", "stdexcept"]
  | read | write => ["fstream", "sstream"]
  | channel => ["condition_variable", "deque", "mutex"]
  | schedule => ["algorithm", "functional", "vector"]
  | bounds => ["algorithm"]
  | sync => ["atomic"]
  | duration => ["chrono", "ratio"]
  | attempt => ["stdexcept"]

/-- The headers that stand there for the statement itself. -/
def ownHeaders : Kind → List String
  | raise | attempt => ["stdexcept"]
  | bounds => ["algorithm"]
  | sync => ["atomic"]
  | duration => ["chrono", "ratio"]
  | read | write | channel | schedule => []

theorem mem_headers_iff {kind : Kind} {header : String} :
    header ∈ kind.headers ↔
      header ∈ kind.ownHeaders ∨ ∃ piece ∈ kind.piece?, header ∈ piece.headers := by
  cases kind <;> simp [headers, ownHeaders, piece?, Piece.headers, or_comm]

def ofAction : Action → Option Kind
  | .raise _ => some raise
  | .readInto _ _ => some read
  | .writeOut _ _ _ => some write
  | .channel _ _ => some channel
  | .bounds _ _ _ => some bounds
  | .sync => some sync
  | .duration _ _ _ => some duration
  | _ => none

/-- The kind of a statement itself, whatever stands inside it. -/
def ofStmt : Stmt → Option Kind
  | .simple _ found => ofAction found
  | .nested _ (.schedule _) _ => some schedule
  | .attempt _ _ _ _ => some attempt
  | _ => none

end Kind

/-- A statement of this kind stands somewhere in the program, at any depth. -/
def Uses (program : Program) (kind : Kind) : Prop :=
  ∃ statement, Program.Contains program statement ∧ Kind.ofStmt statement = some kind

/-! ## What is noted -/

namespace Requirements

/-- The piece of support code is asked for. -/
def asksFor (requirements : Requirements) : Piece → Bool
  | .toText => requirements.toText
  | .files => requirements.files
  | .channel => requirements.channel
  | .runList => requirements.runList

theorem support_eq_map (requirements : Requirements) :
    requirements.support = (Piece.all.filter requirements.asksFor).map Piece.code := by
  rcases requirements with ⟨headers, toText, files, channel, runList⟩
  cases toText <;> cases files <;> cases channel <;> cases runList <;> rfl

theorem supportHeaders_eq_map (requirements : Requirements) :
    requirements.supportHeaders = (true, ["cmath", "iostream", "string"]) ::
      Piece.all.map fun piece => (requirements.asksFor piece, piece.headers) :=
  rfl

theorem mem_foldl_insertAll {header : String} {headers : List String}
    {parts : List (Bool × List String)} :
    header ∈ parts.foldl (fun headers (needed, added) =>
        if needed then insertAll headers added else headers) headers ↔
      header ∈ headers ∨ ∃ part ∈ parts, part.1 = true ∧ header ∈ part.2 := by
  induction parts generalizing headers with
  | nil => simp
  | cons first rest ih =>
      rcases first with ⟨needed, added⟩
      rw [List.foldl_cons, ih]
      cases needed <;> simp [mem_insertAll, or_assoc]

theorem mem_included {requirements : Requirements} {header : String} :
    header ∈ requirements.included ↔
      header ∈ ["cmath", "iostream", "string"] ∨ header ∈ requirements.headers ∨
        ∃ piece, requirements.asksFor piece = true ∧ header ∈ piece.headers := by
  rw [included, mem_foldl_insertAll, supportHeaders_eq_map]
  simp [Piece.mem_all, or_left_comm]

end Requirements

theorem mem_headers_ownNote {statement : Stmt} {before : Requirements} {header : String} :
    header ∈ (ownNote statement before).headers ↔
      header ∈ before.headers ∨ ∃ kind ∈ Kind.ofStmt statement, header ∈ kind.ownHeaders := by
  cases statement with
  | simple line found =>
      cases found <;>
        simp [ownNote, actionNote, Requirements.including, Requirements.mem_insertAll,
          Kind.ofStmt, Kind.ofAction, Kind.ownHeaders]
  | nested line opener body =>
      cases opener <;> simp [ownNote, Kind.ofStmt, Kind.ownHeaders]
  | attempt line body binding handler =>
      simp [ownNote, Requirements.including, Requirements.mem_insertAll, Kind.ofStmt,
        Kind.ownHeaders]
  | _ => simp [ownNote, Kind.ofStmt]

theorem asksFor_ownNote {statement : Stmt} {before : Requirements} {piece : Piece} :
    (ownNote statement before).asksFor piece = true ↔
      before.asksFor piece = true ∨ ∃ kind ∈ Kind.ofStmt statement, kind.piece? = some piece := by
  cases statement with
  | simple line found =>
      cases found <;> cases piece <;>
        simp [ownNote, actionNote, Requirements.including, Requirements.asksFor,
          Kind.ofStmt, Kind.ofAction, Kind.piece?]
  | nested line opener body =>
      cases opener <;> cases piece <;>
        simp [ownNote, Requirements.asksFor, Kind.ofStmt, Kind.piece?]
  | attempt line body binding handler =>
      cases piece <;>
        simp [ownNote, Requirements.including, Requirements.asksFor, Kind.ofStmt, Kind.piece?]
  | _ => simp [ownNote, Kind.ofStmt]

namespace Writes

variable {inside : Bool} {found : List Stmt} {before after : Emission} {lines : List Command}

/-- What the notes show of themselves, if each statement adds its part to it, shows the parts of all
statements in the end. -/
theorem noted_iff (hlines : Writes inside found before lines after) {shown : Requirements → Prop}
    {adds : Stmt → Prop}
    (hnote : ∀ statement noted, shown (ownNote statement noted) ↔ shown noted ∨ adds statement) :
    shown after.requirements ↔
      shown before.requirements ∨ ∃ statement ∈ found, adds statement := by
  induction hlines with
  | nothing | line | blank | outer => simp
  | append hfront hback ihFront ihBack =>
      rw [ihBack, ihFront]
      simp only [List.mem_append, or_and_right, exists_or, or_assoc]
  | enclosed opening closing hlines ih => exact ih
  | handOut => exact (or_iff_left (by simp)).symm
  | note statement => simpa using hnote statement _

/-- The headers stay in ascending order, and each stands there once. -/
theorem pairwise_headers (hlines : Writes inside found before lines after)
    (hascending : before.requirements.headers.Pairwise (· < ·)) :
    after.requirements.headers.Pairwise (· < ·) := by
  induction hlines with
  | nothing | line | blank | outer | handOut => exact hascending
  | append hfront hback ihFront ihBack => exact ihBack (ihFront hascending)
  | enclosed opening closing hlines ih => exact ih hascending
  | note statement =>
      cases statement with
      | simple line found =>
          cases found <;>
            first | exact hascending | exact Requirements.pairwise_insertAll hascending _
      | nested line opener body => cases opener <;> exact hascending
      | attempt => exact Requirements.pairwise_insertAll hascending _
      | _ => exact hascending

end Writes

/-! ## What a program relies on -/

/-- What emission of a program has noted in the end. -/
def noted (program : Program) : Requirements := ((commands program).run .start).2.requirements

/-- A declaration at top level is of no kind, so it is enough to look at the other statements. -/
theorem uses_iff_emitted {program : Program} {kind : Kind} :
    Uses program kind ↔
      ∃ statement ∈ emittedStatements program, Kind.ofStmt statement = some kind := by
  constructor
  · rintro ⟨statement, hcontains, hkind⟩
    rcases contains_iff_emitted.mp hcontains with hstatement | ⟨-, hdeclaration⟩
    · exact ⟨statement, hstatement, hkind⟩
    · cases statement <;> cases hdeclaration <;> cases hkind
  · rintro ⟨statement, hstatement, hkind⟩
    exact ⟨statement, contains_iff_emitted.mpr (.inl hstatement), hkind⟩

theorem noted_iff_uses {program : Program} (shown : Requirements → Prop) {adds : Kind → Prop}
    (hnothing : ¬ shown .none)
    (hnote : ∀ statement before, shown (ownNote statement before) ↔
      shown before ∨ ∃ kind ∈ Kind.ofStmt statement, adds kind) :
    shown (noted program) ↔ ∃ kind, Uses program kind ∧ adds kind := by
  rw [noted, (writes_commands program).noted_iff hnote]
  simp only [uses_iff_emitted]
  constructor
  · rintro (hstart | ⟨statement, hstatement, kind, hkind, hadds⟩)
    · exact absurd hstart hnothing
    · exact ⟨kind, ⟨statement, hstatement, hkind⟩, hadds⟩
  · rintro ⟨kind, ⟨statement, hstatement, hkind⟩, hadds⟩
    exact .inr ⟨statement, hstatement, kind, hkind, hadds⟩

theorem mem_noted_headers {program : Program} {header : String} :
    header ∈ (noted program).headers ↔ ∃ kind, Uses program kind ∧ header ∈ kind.ownHeaders :=
  noted_iff_uses (header ∈ ·.headers) List.not_mem_nil fun _ _ => mem_headers_ownNote

theorem noted_asksFor {program : Program} {piece : Piece} :
    (noted program).asksFor piece = true ↔
      ∃ kind, Uses program kind ∧ kind.piece? = some piece := by
  refine noted_iff_uses (·.asksFor piece = true) ?_ fun _ _ => asksFor_ownNote
  cases piece <;> exact Bool.false_ne_true

/-- The headers and the pieces of support code are those that the program uses: besides three
headers that are always there, each of them is there exactly if a statement that needs it stands
somewhere in the program. -/
structure NeededBy (program : Program) (headers : List String) (pieces : List Piece) : Prop where
  headers_ascending : headers.Pairwise (· < ·)
  mem_headers : ∀ header, header ∈ headers ↔
    header ∈ ["cmath", "iostream", "string"] ∨ ∃ kind, Uses program kind ∧ header ∈ kind.headers
  pieces_ordered : pieces.Sublist Piece.all
  mem_pieces : ∀ piece, piece ∈ pieces ↔ ∃ kind, Uses program kind ∧ kind.piece? = some piece
  pieces_nonempty : pieces ≠ [] ↔ ∃ kind, Uses program kind ∧ kind.piece?.isSome

theorem neededBy_noted (program : Program) :
    NeededBy program (noted program).included (Piece.all.filter (noted program).asksFor) where
  headers_ascending :=
    Requirements.pairwise_included ((writes_commands program).pairwise_headers .nil)
  mem_headers header := by
    simp only [Requirements.mem_included, mem_noted_headers, noted_asksFor, Kind.mem_headers_iff]
    constructor
    · rintro (halways | ⟨kind, huses, hheader⟩ | ⟨piece, ⟨kind, huses, hpiece⟩, hheader⟩)
      · exact .inl halways
      · exact .inr ⟨kind, huses, .inl hheader⟩
      · exact .inr ⟨kind, huses, .inr ⟨piece, hpiece, hheader⟩⟩
    · rintro (halways | ⟨kind, huses, hheader | ⟨piece, hpiece, hheader⟩⟩)
      · exact .inl halways
      · exact .inr (.inl ⟨kind, huses, hheader⟩)
      · exact .inr (.inr ⟨piece, ⟨kind, huses, hpiece⟩, hheader⟩)
  pieces_ordered := List.filter_sublist
  mem_pieces piece := by
    rw [List.mem_filter, noted_asksFor, and_iff_right (Piece.mem_all piece)]
  pieces_nonempty := by
    constructor
    · intro hne
      obtain ⟨piece, hpiece⟩ := List.exists_mem_of_ne_nil _ hne
      obtain ⟨kind, huses, hkind⟩ := noted_asksFor.mp (List.mem_filter.mp hpiece).2
      exact ⟨kind, huses, Option.isSome_of_eq_some hkind⟩
    · rintro ⟨kind, huses, hsome⟩
      obtain ⟨piece, hpiece⟩ := Option.isSome_iff_exists.mp hsome
      have hasks := noted_asksFor.mpr ⟨kind, huses, hpiece⟩
      exact List.ne_nil_of_mem (List.mem_filter.mpr ⟨Piece.mem_all piece, hasks⟩)

/-- The output includes exactly the headers and the pieces of support code that the program needs,
and the namespace of the support code is there only for them. -/
theorem emit_includes_what_is_used (program : Program) (options : Options) :
    ∃ headers pieces, NeededBy program headers pieces ∧
      program.emit options = heading options ++ "\n"
        ++ String.join (headers.map fun header => "#include <" ++ header ++ ">\n") ++ "\n"
        ++ metadataConstant options
        ++ (if pieces = [] then "" else "namespace tide \x7b\n\n"
          ++ "\n".intercalate (pieces.map Piece.code) ++ "\n\x7d // namespace tide\n\n")
        ++ render ((commands program).run .start).1 := by
  refine ⟨_, _, neededBy_noted program, ?_⟩
  rw [Program.emit, includes, supportSection, Requirements.support_eq_map]
  simp [noted]

end Emit

end Tide
