import Tide.Proofs.Emit.CommandTexts
import Tide.Proofs.Emit.NestedBlocks
import Tide.Proofs.Emit.Reliance

/-!
# Lines of code that start with an equals sign

What a program splices into its code can start with an equals sign.  It is indented, though, since
it stands in a function or in `main`, and the lines at the margin start with words, comments and
braces.  So no line of the emitted code starts with an equals sign.
-/

namespace Tide

open Text
open Text.Terminal (StartsPlain startsPlain_append)

theorem head?_ne_of_startsPlain {text : String} (htext : StartsPlain text) :
    text.toList.head? ≠ some '=' := by
  obtain ⟨first, rest, hlist, -, hfirst⟩ := htext
  simpa [hlist] using hfirst

namespace Emit

/-! ## The margin -/

/-- No line that is written at the margin starts with an equals sign. -/
def ClearMargin : (depth : Nat) → List Command → Prop
  | _, [] => True
  | depth, command :: rest =>
    (command.level depth = 0 → command.content.toList.head? ≠ some '=') ∧
      ClearMargin (command.depthAfter depth) rest

theorem clearMargin_append (depth : Nat) (front back : List Command) :
    ClearMargin depth (front ++ back) ↔
      ClearMargin depth front ∧ ClearMargin (depthBehind depth front) back := by
  induction front generalizing depth with
  | nil => simp [ClearMargin, depthBehind]
  | cons command front ih =>
      rw [List.cons_append, ClearMargin, ClearMargin, ih, and_assoc]
      rfl

theorem clearMargin_of_heads {lines : List Command}
    (hlines : ∀ command ∈ lines, command.content.toList.head? ≠ some '=') (depth : Nat) :
    ClearMargin depth lines := by
  induction lines generalizing depth with
  | nil => trivial
  | cons command rest ih =>
      obtain ⟨hcommand, hrest⟩ := List.forall_mem_cons.mp hlines
      exact ⟨fun _ => hcommand, ih hrest _⟩

/-- Lines that close what they open stay away from the margin if they start away from it. -/
theorem clearMargin_of_supported {lines : List Command} (hsupported : Supported 0 [] lines)
    {depth : Nat} (hdepth : 0 < depth) : ClearMargin depth lines := by
  have hlevels : ∀ level ∈ levels depth lines, 0 < level := fun level hlevel =>
    lt_of_lt_of_le hdepth (le_of_mem_levels hsupported hlevel)
  clear hsupported hdepth
  induction lines generalizing depth with
  | nil => trivial
  | cons command rest ih =>
      obtain ⟨hlevel, hrest⟩ := List.forall_mem_cons.mp hlevels
      exact ⟨fun hzero => absurd hzero hlevel.ne', ih hrest⟩

theorem clearLines_of_mem_renderFrom {lines : List Command} (hlines : OneLiners lines)
    {depth : Nat} (hmargin : ClearMargin depth lines) :
    ∀ text ∈ renderFrom depth lines, ClearLines text := by
  induction lines generalizing depth with
  | nil => nofun
  | cons command rest ih =>
      obtain ⟨honeLine, hrest⟩ := oneLiners_cons.mp hlines
      refine List.forall_mem_cons.mpr ⟨?_, ih hrest hmargin.2⟩
      have hindented : ∀ level content, OnOneLine content →
          (level = 0 → content.toList.head? ≠ some '=') →
            ClearLines (Command.indented level content) := by
        intro level content hcontent hhead
        apply clearLines_line
        · simpa [OnOneLine] using hcontent
        · cases level with
          | zero => simpa using hhead rfl
          | succ level => simp [Nat.mul_succ, List.replicate_succ]
      cases command with
      | line text | indent text | dedent text | outer text =>
          exact hindented _ text honeLine hmargin.1
      | blank => exact clearLines_line (by decide : OnOneLine "") (by decide)

/-- The lines leave the margin clear and come back to it. -/
structure AtMargin (lines : List Command) : Prop where
  clear : ClearMargin 0 lines
  depthBehind_eq : depthBehind 0 lines = 0

theorem AtMargin.append {front back : List Command} (hfront : AtMargin front)
    (hback : AtMargin back) : AtMargin (front ++ back) where
  clear := by
    rw [clearMargin_append, hfront.depthBehind_eq]
    exact ⟨hfront.clear, hback.clear⟩
  depthBehind_eq := by
    rw [depthBehind_append, hfront.depthBehind_eq, hback.depthBehind_eq]

theorem atMargin_enclosed {opening closing : String} (hopening : StartsPlain opening)
    (hclosing : StartsPlain closing) {lines : List Command} (hlines : ClearMargin 1 lines)
    (hdepth : depthBehind 1 lines = 1) :
    AtMargin (.indent opening :: lines ++ [.dedent closing]) where
  clear := by
    rw [List.cons_append, ClearMargin, clearMargin_append]
    refine ⟨fun _ => head?_ne_of_startsPlain hopening, hlines, ?_, trivial⟩
    exact fun _ => head?_ne_of_startsPlain hclosing
  depthBehind_eq := by
    rw [depthBehind_append]
    change Command.depthAfter (depthBehind 1 lines) (.dedent closing) = 0
    rw [hdepth]
    rfl

theorem atMargin_lines {texts : List String} (htexts : ∀ text ∈ texts, StartsPlain text) :
    AtMargin (texts.map .line) where
  clear := by
    refine clearMargin_of_heads (List.forall_mem_map.mpr fun text htext => ?_) 0
    exact head?_ne_of_startsPlain (htexts text htext)
  depthBehind_eq := by
    induction texts with
    | nil => rfl
    | cons first rest ih => exact ih fun text htext => htexts text (List.mem_cons_of_mem _ htext)

/-! ## Declarations and `main` -/

theorem startsPlain_of_joinsWords {text : String} (htext : Lexeme.JoinsWords text) :
    StartsPlain text := by
  obtain ⟨first, rest, hlist, -⟩ := htext.exists_cons
  exact ⟨first, rest, hlist, htext.isPlain (by simp [hlist])⟩

theorem startsPlain_typeText {type : TypeName} (htype : Lexeme.JoinsWords type) :
    StartsPlain (typeText type) := by
  unfold typeText
  split_ifs
  · exact ⟨'d', _, rfl, by decide⟩
  · exact ⟨'l', _, rfl, by decide⟩
  · exact ⟨'s', _, rfl, by decide⟩
  · exact ⟨'b', _, rfl, by decide⟩
  · exact startsPlain_of_joinsWords htype

theorem startsPlain_resultType {result : Option TypeName}
    (hresult : ∀ type ∈ result, Lexeme.JoinsWords type) (flavor : FunctionFlavor) :
    StartsPlain ((resultType flavor result).getD "auto") := by
  cases result with
  | some type => exact startsPlain_typeText (hresult type rfl)
  | none =>
      cases flavor with
      | routine => exact ⟨'v', _, rfl, by decide⟩
      | function | method => exact ⟨'a', _, rfl, by decide⟩

/-- The lines in front of the body of a function that is declared at top level. -/
theorem exists_functionOpening (flavor : FunctionFlavor) (name : String)
    (parameters : List Parameter) {result : Option TypeName}
    (hresult : ∀ type ∈ result, Lexeme.JoinsWords type) (overlays : List Overlay) :
    ∃ (texts : List String) (opening : String),
      functionOpening .free flavor name parameters result overlays =
        texts.map .line ++ [.indent opening] ∧
      (∀ text ∈ texts, StartsPlain text) ∧ StartsPlain opening := by
  have hoptional : ∀ (left : Bool) (text : String), StartsPlain text → ∃ texts : List String,
      (if left then [] else [Command.line text]) = texts.map .line ∧
        ∀ text ∈ texts, StartsPlain text := by
    intro left text htext
    cases left
    · exact ⟨[text], rfl, by simpa using htext⟩
    · exact ⟨[], rfl, nofun⟩
  obtain ⟨comment, hcomment, hstarts⟩ := hoptional overlays.isEmpty
    ("// overlays: " ++ commentSafe (", ".intercalate (overlays.map (·.name))))
    (startsPlain_append ⟨'/', _, rfl, by decide⟩)
  obtain ⟨template, htemplate, htemplateStarts⟩ := hoptional (templateTypes parameters).isEmpty
    ("template <" ++ ", ".intercalate (templateTypes parameters) ++ ">")
    (startsPlain_append (startsPlain_append ⟨'t', _, rfl, by decide⟩))
  have hopening : StartsPlain ((resultType flavor result).getD "auto" ++ " " ++ name ++ "("
      ++ ", ".intercalate (templateParameters 0 parameters) ++ ") " ++ "\x7b") := by
    iterate 6 apply startsPlain_append
    exact startsPlain_resultType hresult flavor
  refine ⟨comment ++ template, _, ?_, List.forall_mem_append.mpr ⟨hstarts, htemplateStarts⟩,
    hopening⟩
  rw [List.map_append, ← hcomment, ← htemplate, List.append_assoc]
  rfl

theorem depthBehind_block (body : Block) (emission : Emission) (depth : Nat) :
    depthBehind depth ((block body).run emission).1 = depth :=
  ((writtenBlock body false emission).laidOut depth).depthBehind_eq

theorem atMargin_function {declaration : FunctionDecl}
    (hresult : ∀ type ∈ declaration.result, Lexeme.JoinsWords type) (emission : Emission) :
    AtMargin ((function .free declaration).run emission).1 := by
  rcases declaration with ⟨line, flavor, name, parameters, result, overlays, body⟩
  obtain ⟨texts, opening, hopening, htexts, hstarts⟩ := exists_functionOpening flavor name
    parameters.parameters hresult overlays
  have hbody := atMargin_enclosed hstarts (⟨'\x7d', [], rfl, by decide⟩ : StartsPlain "\x7d")
    (clearMargin_of_supported (supported_block body emission) (by decide))
    (depthBehind_block body emission 1)
  have hlines := (atMargin_lines htexts).append hbody
  simp only [function, run_bind, run_pure, hopening, functionClosing, closeBrace]
  simpa using hlines

theorem clearMargin_members (found : List ClassMember) (current : Access) (emission : Emission) :
    ClearMargin 1 ((members current found).run emission).1 ∧
      depthBehind 1 ((members current found).run emission).1 = 1 := by
  induction found generalizing current emission with
  | nil => exact ⟨trivial, rfl⟩
  | cons first rest ih =>
      have hlabel : ∀ access, ClearMargin 1 (accessLabel current access) ∧
          depthBehind 1 (accessLabel current access) = 1 := by
        intro access
        rw [accessLabel]
        split_ifs
        · exact ⟨trivial, rfl⟩
        · exact ⟨clearMargin_of_heads (by cases access <;> simp +decide) 1, rfl⟩
      cases first with
      | field access binding =>
          obtain ⟨hclear, hdepth⟩ := ih access emission
          simp only [members, run_bind, run_pure, clearMargin_append, depthBehind_append, hlabel]
          exact ⟨⟨trivial, fun hlevel => absurd hlevel Nat.one_ne_zero, hclear⟩, hdepth⟩
      | method access declaration =>
          obtain ⟨hclear, hdepth⟩ := ih access ((function .member declaration).run emission).2
          have hwrites : Writes false _ _ _ _ :=
            writes_function .member (writtenBlock declaration.body) emission
          have hfunction := clearMargin_of_supported (hwrites.supported 0 (by simp)) Nat.one_pos
          simp only [members, run_bind, run_pure, clearMargin_append, depthBehind_append, hlabel,
            (hwrites.laidOut 1).depthBehind_eq]
          exact ⟨⟨⟨trivial, hfunction⟩, hclear⟩, hdepth⟩

theorem atMargin_classDecl (declaration : ClassDecl) (emission : Emission) :
    AtMargin ((classDecl declaration).run emission).1 := by
  rcases declaration with ⟨line, kind, name, bases, found⟩
  obtain ⟨hclear, hdepth⟩ := clearMargin_members found kind.defaultAccess emission
  have hkind : StartsPlain kind.text := by
    cases kind with
    | classKind => exact ⟨'c', _, rfl, by decide⟩
    | structKind => exact ⟨'s', _, rfl, by decide⟩
  simp only [classDecl, run_bind, run_pure]
  exact atMargin_enclosed (startsPlain_append (startsPlain_append (startsPlain_append
    (startsPlain_append (startsPlain_append hkind))))) ⟨'\x7d', _, rfl, by decide⟩ hclear hdepth

theorem atMargin_declarations {α : Type} {emitOne : α → Emitter (List Command)} {found : List α}
    (heach : ∀ declaration ∈ found, Gives (emitOne declaration) AtMargin) :
    Gives (declarations emitOne found) AtMargin := by
  induction found with
  | nil => exact gives_pure ⟨trivial, rfl⟩
  | cons first rest ih =>
      obtain ⟨hfirst, hrest⟩ := List.forall_mem_cons.mp heach
      have hblank : AtMargin [.blank] := ⟨⟨fun _ => by decide, trivial⟩, rfl⟩
      exact hfirst.bind fun lines hlines => (ih hrest).bind fun after hafter =>
        gives_pure (hlines.append (hblank.append hafter))

theorem atMargin_main (statements : List Stmt) (emission : Emission) :
    AtMargin (openBrace "int main() " :: .line "std::cout << std::boolalpha;"
      :: ((stmts none statements).run emission).1 ++ [.line "return 0;", closeBrace]) := by
  have hwrites := ((writes_stmts statements emission).lineThen
    "std::cout << std::boolalpha;").thenLine "return 0;"
  have hmain := atMargin_enclosed
    (⟨'i', _, rfl, by decide⟩ : StartsPlain "int main() \x7b")
    (⟨'\x7d', [], rfl, by decide⟩ : StartsPlain "\x7d")
    (clearMargin_of_supported (hwrites.supported 0 nofun) Nat.one_pos)
    (hwrites.laidOut 1).depthBehind_eq
  simpa [openBrace, closeBrace] using hmain

theorem gives_atMargin {program : Program} (hspelt : program.Spelt) :
    Gives (commands program) AtMargin := by
  have hclasses : Gives (declarations classDecl (topClasses program)) AtMargin :=
    atMargin_declarations fun declaration _ => atMargin_classDecl declaration
  have hfunctions : Gives (declarations (function .free) (topFunctions program)) AtMargin := by
    refine atMargin_declarations fun declaration hdeclaration => atMargin_function ?_
    obtain ⟨line, hmem⟩ := mem_topFunctions_iff.mp hdeclaration
    have hall := Program.forall_withDescendants hspelt hmem
    rw [Stmt.withDescendants_function] at hall
    have hwords := (hall _ List.mem_cons_self).words
    simp only [Stmt.words, FunctionDecl.words, List.cons_append, List.forall_mem_cons,
      List.forall_mem_append, Option.mem_toList] at hwords
    exact hwords.2.1
  have hbody : Gives (stmts none (topStatements program)) fun body =>
      AtMargin (openBrace "int main() " :: .line "std::cout << std::boolalpha;"
        :: body ++ [.line "return 0;", closeBrace]) :=
    atMargin_main (topStatements program)
  refine hclasses.bind fun classes hclasses => hfunctions.bind fun functions hfunctions =>
    hbody.bind fun body hbody => gives_pure ?_
  simpa using (hclasses.append hfunctions).append hbody

/-! ## Whole programs -/

theorem Piece.clearLines_code (piece : Piece) : ClearLines piece.code := by
  have hcode : ∀ lines : List String,
      (∀ line ∈ lines, OnOneLine line ∧ line.toList.head? ≠ some '=') →
        ClearLines (Support.code lines) := fun lines hlines =>
    clearLines_join (List.forall_mem_map.mpr fun line hline =>
      clearLines_line (hlines line hline).1 (hlines line hline).2)
  cases piece with
  | toText | files | channel | runList => exact hcode _ (by decide +kernel)

theorem clearLines_supportSection (requirements : Requirements) :
    ClearLines (supportSection requirements) := by
  rw [supportSection]
  split_ifs
  · exact clearLines_empty
  · have hopening : ClearLines ("namespace tide \x7b" ++ "\n") :=
      clearLines_line (by decide) (by decide)
    have hclosing : ClearLines ("\x7d // namespace tide" ++ "\n") :=
      clearLines_line (by decide) (by decide)
    have hpieces : ClearLines ("\n".intercalate requirements.support) := by
      rw [Requirements.support_eq_map]
      exact clearLines_intercalate (List.forall_mem_map.mpr fun piece _ => piece.clearLines_code)
    exact ((hopening.append clearLines_feed).append hpieces).append
      ((clearLines_feed.append hclosing).append clearLines_feed)

theorem clearLines_heading (options : Options) : ClearLines (heading options) := by
  have hsource : ClearLines ("// Generated by " ++ compilerName ++ " from "
      ++ commentSafe options.origin ++ "\n") := by
    refine clearLines_line ?_ (head?_ne_of_startsPlain ?_)
    · simp +decide [onOneLine_commentSafe]
    · iterate 3 apply startsPlain_append
      exact ⟨'/', _, rfl, by decide⟩
  refine hsource.append ?_
  cases options.metadata with
  | none => exact clearLines_empty
  | some metadata =>
      refine clearLines_line ?_ (head?_ne_of_startsPlain ?_)
      · simp +decide [onOneLine_commentSafe]
      · exact startsPlain_append ⟨'/', _, rfl, by decide⟩

theorem clearLines_metadataConstant (options : Options) :
    ClearLines (metadataConstant options) := by
  rw [metadataConstant]
  cases options.metadata with
  | none => exact clearLines_empty
  | some metadata =>
      have hline : ClearLines ("[[maybe_unused]] static const char* const TIDE_METADATA = \""
          ++ escape metadata ++ "\";" ++ "\n") := by
        refine clearLines_line ?_ (head?_ne_of_startsPlain ?_)
        · simp +decide [onOneLine_escape]
        · iterate 2 apply startsPlain_append
          exact ⟨'[', _, rfl, by decide⟩
      have hend : "\";\n\n" = "\";" ++ "\n" ++ "\n" := rfl
      rw [Option.map_some, Option.getD_some, hend, ← String.append_assoc, ← String.append_assoc]
      exact hline.append clearLines_feed

theorem clearLines_includes (program : Program) : ClearLines (includes (noted program)) := by
  refine clearLines_join (List.forall_mem_map.mpr fun header hheader => ?_)
  have honeLine : OnOneLine header := by
    have hkinds : ∀ kind : Kind, ∀ header ∈ kind.headers, OnOneLine header := by
      intro kind
      cases kind <;> decide
    rcases ((neededBy_noted program).mem_headers header).mp hheader with halways | ⟨kind, -, hkind⟩
    · have hstandard : ∀ header ∈ ["cmath", "iostream", "string"], OnOneLine header := by decide
      exact hstandard header halways
    · exact hkinds kind header hkind
  have hend : ">\n" = ">" ++ "\n" := rfl
  rw [hend, ← String.append_assoc]
  refine clearLines_line ?_ (head?_ne_of_startsPlain ?_)
  · simp +decide [honeLine]
  · iterate 2 apply startsPlain_append
    exact ⟨'#', _, rfl, by decide⟩

end Emit

/-- No line of the code starts with an equals sign, if the program is spelt as a source can spell
it. -/
theorem Program.Spelt.isClear_emit {program : Program} (hspelt : program.Spelt)
    (options : Emit.Options) : IsClear (program.emit options) := by
  have hrender : ClearLines (Emit.render ((Emit.commands program).run .start).1) :=
    clearLines_join (Emit.clearLines_of_mem_renderFrom (Emit.gives_commands hspelt .start)
      (Emit.gives_atMargin hspelt .start).clear)
  have hincludes := Emit.clearLines_includes program
  have hsupport := Emit.clearLines_supportSection (Emit.noted program)
  have hfront := ((Emit.clearLines_heading options).append clearLines_feed).append hincludes
  have hmiddle := (hfront.append clearLines_feed).append
    (Emit.clearLines_metadataConstant options)
  exact ((hmiddle.append hsupport).append hrender).toIsClear

end Tide
