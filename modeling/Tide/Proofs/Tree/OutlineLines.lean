import Tide.Proofs.Number.Characters
import Tide.Proofs.Tree.Spelling

/-!
# Lines of an outline

Every line of the outline of a legible program starts with a word, and is one line on a terminal.
In front of that word stand spaces and a colour at most.  So no line that the outline shows starts
with an equals sign.
-/

namespace Tide

open Text Text.Terminal

/-! ## Texts that stand in a line -/

namespace Text

theorem notMem_quotedChar (char : Char) :
    '\n' ∉ quotedChar char ∧ '\x1b' ∉ quotedChar char := by
  have hescape : ∀ char, '\n' ∉ codePointEscape char ∧ '\x1b' ∉ codePointEscape char := by
    intro char
    have hplain : ∀ other ∈ codePointEscape char, IsPlain other := by
      have hslash : IsPlain '\\' := by decide
      have hletter : IsPlain 'u' := by decide
      have hopen : IsPlain '\x7b' := by decide
      have hclose : IsPlain '\x7d' := by decide
      have hdigits : ∀ other ∈ Nat.toDigits 16 char.toNat, IsPlain other :=
        fun _ => isPlain_of_mem_toDigits (by decide) (by decide)
      simp only [codePointEscape]
      grind
    exact ⟨fun hmem => absurd (hplain _ hmem) (by decide),
      fun hmem => absurd (hplain _ hmem) (by decide)⟩
  by_cases hchar : char = '\x1b'
  · rw [hchar]
    exact hescape _
  · fun_cases quotedChar char with
    | case7 => exact hescape char
    | case8 hshown hquote hslash hfeed =>
        exact ⟨by simpa using Ne.symm hfeed, by simpa using Ne.symm hchar⟩
    | _ => simp

theorem inert_quoted (text : String) : Inert (quoted text) := by
  rw [Inert, quoted, String.toList_ofList]
  simp [notMem_quotedChar]

namespace Style

theorem reopen_of_notMem (style : Style) {text : List Char} (htext : '\x1b' ∉ text) :
    style.reopen text = text := by
  fun_induction reopen style text with
  | case1 => simp at htext
  | case2 char rest hother ih => rw [ih (List.ne_and_not_mem_of_not_mem_cons htext).2]
  | case3 => rfl

theorem notMem_opening (style : Style) : '\n' ∉ style.opening := by
  rcases style with ⟨bold, colour⟩
  cases bold <;> cases colour <;> decide

theorem notMem_reopen (style : Style) {text : List Char} (htext : '\n' ∉ text) :
    '\n' ∉ style.reopen text := by
  fun_induction reopen style text with
  | case1 rest ih =>
      have hrest := ih (by simp_all)
      simp [closing, style.notMem_opening, hrest]
  | case2 char rest hother ih =>
      obtain ⟨hchar, hrest⟩ := List.ne_and_not_mem_of_not_mem_cons htext
      simp [hchar, ih hrest]
  | case3 => exact htext

end Style

/-- Switching every style off leaves no escape character behind. -/
theorem settles_closing : Settles Style.closing :=
  (settles_singleton (by decide)).append ['\x1b', '[', '0']

/-- The text starts with two letters, and all of it is printable ASCII. -/
def isTag (text : String) : Bool :=
  2 ≤ text.toList.length && (text.toList.take 2).all Lexeme.startsWord &&
    text.toList.all fun char => decide (IsPlain char)

theorem exists_of_isTag {text : String} (htext : isTag text = true) :
    ∃ first second rest, text.toList = first :: second :: rest ∧
      Lexeme.startsWord first = true ∧ Lexeme.startsWord second = true ∧
        ∀ char ∈ text.toList, IsPlain char := by
  simp only [isTag, Bool.and_eq_true, decide_eq_true_eq, List.all_eq_true] at htext
  obtain ⟨⟨hlength, hwords⟩, hplain⟩ := htext
  match hlist : text.toList, hlength with
  | first :: second :: rest, _ =>
      rw [hlist] at hwords hplain
      exact ⟨first, second, rest, rfl, hwords first (by simp), hwords second (by simp), hplain⟩

theorem ne_equalsSign_of_startsWord {char : Char} (hchar : Lexeme.startsWord char = true) :
    char ≠ '=' := by
  rintro rfl
  exact absurd hchar (by decide)

theorem isLine_of_isTag {text : String} (htext : isTag text = true) : IsLine text.toList := by
  obtain ⟨first, second, rest, hlist, hfirst, hsecond, hplain⟩ := exists_of_isTag htext
  have hinert := inert_of_isPlain hplain
  have hbounds := Lexeme.startsWord_toNat hfirst
  rw [hlist] at hplain
  refine ⟨hinert.1, ?_, ?_⟩
  · rw [hlist]
    exact leads_cons_cons hbounds.1 hbounds.2 (hplain second (by simp))
      (ne_equalsSign_of_startsWord hsecond) rest
  · intro state
    have hrest := hinert.2
    rw [hlist] at hrest ⊢
    exact settled_of_notMem (settles_singleton (hplain first (by simp)) state)
      (List.ne_and_not_mem_of_not_mem_cons hrest).2

variable (palette : Palette) (colour : Colour)

theorem isLine_colour {text : String} (htext : isTag text = true) :
    IsLine (palette.colour colour text).toList := by
  rw [Palette.colour, Palette.paint]
  split_ifs with hcolours
  · obtain ⟨first, second, rest, hlist, hfirst, -, hplain⟩ := exists_of_isTag htext
    have hinert := inert_of_isPlain hplain
    rw [String.toList_ofList, Style.reopen_of_notMem _ hinert.2]
    refine ⟨?_, ?_, settles_closing.append _⟩
    · simp [Style.notMem_opening, hinert.1, Style.closing]
    · rw [hlist, List.append_assoc, List.cons_append]
      rw [hlist] at hplain
      exact leads_opening _ (hplain first (by simp)) (ne_equalsSign_of_startsWord hfirst) _
  · exact isLine_of_isTag htext

theorem inline_colour {text : String} (htext : Inline text) :
    Inline (palette.colour colour text) := by
  rw [Palette.colour, Palette.paint]
  split_ifs with hcolours
  · apply inline_of_settles
    · rw [OnOneLine, String.toList_ofList]
      simp [Style.notMem_opening, Style.notMem_reopen _ htext.oneLine, Style.closing]
    · rw [String.toList_ofList]
      exact settles_closing.append _
  · exact htext

end Text

/-! ## Expressions and names -/

section

variable (palette : Palette)

theorem Lexeme.JoinsWords.inline {text : String} (htext : JoinsWords text) : Inline text :=
  inline_of_inert (inert_of_isPlain fun _ hchar => (htext.isPlain hchar).1)

theorem Literal.inline_shown (value : Literal) : Inline (value.shown palette) := by
  cases value with
  | number value => exact inline_colour _ _ (inline_of_inert value.inert_plainText)
  | string text => exact inline_colour _ _ (inline_of_inert (inert_quoted text))
  | boolean value => cases value <;> exact inline_colour _ _ (inline_of_inert (by decide))

theorem Pattern.inline_shown (pattern : Pattern) : Inline (pattern.shown palette) := by
  cases pattern with
  | literal value => exact value.inline_shown palette
  | wildcard =>
      rw [shown]
      exact inline_of_inert (by decide)

theorem UnaryOp.inert_text (operator : UnaryOp) : Inert operator.text := by
  cases operator <;> decide

theorem BinaryOp.inert_text (operator : BinaryOp) : Inert operator.text := by
  cases operator <;> decide

theorem WriteMode.inert_text (mode : WriteMode) : Inert mode.text := by
  cases mode <;> decide

theorem TimeUnit.inert_text (unit : TimeUnit) : Inert unit.text := by
  cases unit <;> decide

theorem Expr.Spelt.inline_shown {expression : Expr} (hspelt : expression.Spelt) :
    Inline (expression.shown palette) := by
  induction expression with
  | literal line value => exact value.inline_shown palette
  | name line text => exact (hspelt text (by simp [names])).inline
  | unary line operator operand ih =>
      rw [shown]
      exact inline_append (inline_of_inert operator.inert_text) (ih hspelt)
  | binary line operator left right ihLeft ihRight =>
      obtain ⟨hleft, hright⟩ := List.forall_mem_append.mp hspelt
      rw [shown]
      apply_rules [inline_append, ihLeft hleft, ihRight hright, inline_of_inert,
        operator.inert_text] <;> decide
  | ternary line condition positive negative ihCondition ihPositive ihNegative =>
      obtain ⟨hfront, hnegative⟩ := List.forall_mem_append.mp hspelt
      obtain ⟨hcondition, hpositive⟩ := List.forall_mem_append.mp hfront
      rw [shown]
      apply_rules [inline_append, ihCondition hcondition, ihPositive hpositive,
        ihNegative hnegative, inline_of_inert] <;> decide
  | call line callee arguments ihCallee ihArguments =>
      obtain ⟨hcallee, harguments⟩ := List.forall_mem_append.mp hspelt
      rw [namesAll_eq_flatMap, List.forall_mem_flatMap] at harguments
      have hshown : Inline (", ".intercalate (arguments.map (·.shown palette))) :=
        inline_intercalate (inline_of_inert (by decide)) <|
          List.forall_mem_map.mpr fun argument hargument =>
            ihArguments argument hargument (harguments argument hargument)
      rw [shown, shownAll_eq_map]
      apply_rules [inline_append, ihCallee hcallee, hshown, inline_of_inert] <;> decide
  | index line target place ihTarget ihPlace =>
      obtain ⟨htarget, hplace⟩ := List.forall_mem_append.mp hspelt
      rw [shown]
      apply_rules [inline_append, ihTarget htarget, ihPlace hplace, inline_of_inert] <;> decide
  | member line target field ih =>
      obtain ⟨htarget, hfield⟩ := List.forall_mem_append.mp hspelt
      have hname := (hfield field (by simp)).inline
      rw [shown]
      apply_rules [inline_append, ih htarget, hname, inline_of_inert]
      decide

theorem isLine_name_append {name rest : String} (hname : Lexeme.JoinsWords name)
    (hrest : Inline rest) (hstarts : StartsPlain rest) : IsLine (name ++ rest).toList := by
  obtain ⟨first, more, hlist, hfirst, -⟩ := hname.exists_cons
  have hplain : ∀ char ∈ first :: more, IsPlain char ∧ char ≠ '=' := fun char hchar =>
    hname.isPlain (hlist ▸ hchar)
  have hbounds := Lexeme.startsWord_toNat hfirst
  refine ⟨(inline_append hname.inline hrest).oneLine, ?_, ?_⟩
  · -- The second character is in the name, or it is the first one behind it.
    obtain ⟨head, tail, hhead, hsecond, hsign⟩ := hstarts
    rw [String.toList_append, hlist, hhead]
    cases more with
    | nil => exact leads_cons_cons hbounds.1 hbounds.2 hsecond hsign tail
    | cons second more =>
        obtain ⟨hsecond, hsign⟩ := hplain second (by simp)
        exact leads_cons_cons hbounds.1 hbounds.2 hsecond hsign _
  · intro state
    rw [String.toList_append, after_append, hlist]
    apply hrest.settled
    have hnone : '\x1b' ∉ more := fun hmem =>
      absurd (hplain _ (List.mem_cons_of_mem _ hmem)).1 (by decide)
    exact settled_of_notMem (settles_singleton (hplain first (by simp)).1 state) hnone

/-- What is assigned to starts with its name. -/
theorem Expr.Spelt.isLine_shown_append {target : Expr} (hspelt : target.Spelt)
    (hroot : target.rootName.isSome = true) {rest : String} (hrest : Inline rest)
    (hstarts : StartsPlain rest) : IsLine (target.shown palette ++ rest).toList := by
  induction target generalizing rest with
  | name line text => exact isLine_name_append (hspelt text (by simp [names])) hrest hstarts
  | index line target place ihTarget ihPlace =>
      obtain ⟨htarget, hplace⟩ := List.forall_mem_append.mp hspelt
      have hopened : StartsPlain "[" := ⟨'[', [], rfl, by decide⟩
      have hinline : Inline ("[" ++ place.shown palette ++ "]" ++ rest) := by
        apply_rules [inline_append, Spelt.inline_shown palette hplace, hrest, inline_of_inert] <;>
          decide
      simpa [shown, String.append_assoc] using ihTarget htarget hroot hinline
        (startsPlain_append (startsPlain_append (startsPlain_append hopened)))
  | member line target field ih =>
      obtain ⟨htarget, hfield⟩ := List.forall_mem_append.mp hspelt
      have hopened : StartsPlain "." := ⟨'.', [], rfl, by decide⟩
      have hinline : Inline ("." ++ field ++ rest) :=
        inline_append (inline_append (inline_of_inert (by decide))
          (hfield field (by simp)).inline) hrest
      simpa [shown, String.append_assoc] using ih htarget hroot hinline
        (startsPlain_append (startsPlain_append hopened))
  | literal | unary | binary | ternary | call => cases hroot

theorem inline_map_getD {α : Type} {found : Option α} {text : α → String}
    (hfound : ∀ value ∈ found, Inline (text value)) : Inline ((found.map text).getD "") := by
  cases found with
  | none =>
      rw [Option.map_none, Option.getD_none]
      exact inline_of_inert (by decide)
  | some value => exact hfound value rfl

theorem Overlay.inline_shownAll {overlays : List Overlay}
    (hnames : ∀ overlay ∈ overlays, Lexeme.JoinsWords overlay.name) :
    Inline (shownAll palette overlays) := by
  apply inline_colour
  refine inline_intercalate (inline_of_inert (by decide)) (List.forall_mem_map.mpr ?_)
  intro overlay hoverlay
  have hname := (hnames overlay hoverlay).inline
  have harguments : Inline (" ".intercalate (overlay.arguments.map (·.shown palette))) :=
    inline_intercalate (inline_of_inert (by decide)) <|
      List.forall_mem_map.mpr fun value _ => value.inline_shown palette
  simp only [shown]
  split_ifs
  all_goals apply_rules [inline_append, inline_of_inert] <;> decide

/-! ## Lines -/

theorem isLine_append {front rest : String} (hfront : IsLine front.toList) (hrest : Inline rest) :
    IsLine (front ++ rest).toList := by
  rw [String.toList_append]
  exact hfront.append hrest

theorem Local.isLine_shown {binding : Local}
    (hwords : ∀ word ∈ binding.texts, Lexeme.JoinsWords word)
    (hvalue : ∀ value ∈ binding.value, value.Spelt) : IsLine (binding.shown palette).toList := by
  obtain ⟨hname, htype⟩ := List.forall_mem_cons.mp hwords
  have hkeyword : IsLine
      (palette.colour .cyan (if binding.constant then "const" else "let")).toList :=
    isLine_colour _ _ (by cases binding.constant <;> decide)
  refine isLine_append (isLine_append (isLine_append (isLine_append hkeyword ?_) hname.inline)
    (inline_map_getD fun type hmem => ?_)) (inline_map_getD fun value hmem => ?_)
  · exact inline_of_inert (by decide)
  · exact inline_append (inline_of_inert (by decide))
      (htype type (Option.mem_toList.mpr hmem)).inline
  · exact inline_append (inline_of_inert (by decide)) ((hvalue value hmem).inline_shown palette)

namespace Outline

/-- The line of an action starts with its tag, or with the name of what it assigns to. -/
theorem isLine_actionText {line : Nat} {action : Action}
    (hlegible : (Stmt.simple line action).Legible) : IsLine (actionText palette action).toList := by
  have htag : IsLine (palette.colour .cyan action.tag).toList :=
    isLine_colour _ _ (by cases action <;> simp only [Action.tag] <;> decide)
  have hblank : Inline " " := inline_of_inert (by decide)
  have htagged := isLine_append htag hblank
  have hspelt := hlegible.toSpelt
  have hspeltOwn : ∀ expression ∈ action.expressions, expression.Spelt :=
    fun expression hmem => hspelt.names expression (List.mem_append_left _ hmem)
  have hshown : ∀ expression ∈ action.expressions, Inline (expression.shown palette) :=
    fun expression hmem => (hspeltOwn expression hmem).inline_shown palette
  have hwords : ∀ word ∈ action.words, Inline word :=
    fun word hmem => (hspelt.words word hmem).inline
  cases action with
  | declare binding =>
      exact Local.isLine_shown palette hspelt.words fun value hvalue =>
        hspeltOwn value (Option.mem_toList.mpr hvalue)
  | directive overlays =>
      exact isLine_append htagged (Overlay.inline_shownAll palette (List.forall_mem_map.mp
        hspelt.words))
  | assign target operator value =>
      have hstarts : StartsPlain " " := ⟨' ', [], rfl, by decide⟩
      have hoperator : Inert operator.text := by cases operator <;> decide
      have hvalue : Inline (value.shown palette) := hshown value (by simp [Action.expressions])
      have hrest : Inline (" " ++ operator.text ++ " " ++ value.shown palette) :=
        inline_append (inline_append (inline_append hblank (inline_of_inert hoperator)) hblank)
          hvalue
      simpa [actionText, String.append_assoc] using
        (hspeltOwn target List.mem_cons_self).isLine_shown_append palette
          (hspelt.target target rfl) hrest
          (startsPlain_append (startsPlain_append (startsPlain_append hstarts)))
  | step target operator =>
      have hoperator : Inert operator.text := by cases operator <;> decide
      have hstarts : StartsPlain operator.text := by
        cases operator <;> exact ⟨_, _, rfl, by decide⟩
      exact (hspeltOwn target List.mem_cons_self).isLine_shown_append palette
        (hspelt.target target rfl) (inline_of_inert hoperator) hstarts
  | leave value | print value =>
      cases value with
      | none => exact htag
      | some value => exact isLine_append htagged (hshown value List.mem_cons_self)
  | breakLoop | continueLoop | sync => exact htag
  | channel name element =>
      have hname : Inline name := hwords name List.mem_cons_self
      have helement : Inline (element.getD "number") :=
        inline_getD (fun type htype => hwords type
          (by simp [Action.words, Action.texts, Option.mem_def.mp htype]))
          (inline_of_inert (by decide))
      have hcolon : Inline ": " := inline_of_inert (by decide)
      exact isLine_append (isLine_append (isLine_append htagged hname) hcolon) helement
  | checkpoint label =>
      exact isLine_append htagged (inline_getD
        (fun text htext => inline_of_keepsToLine (hlegible.label text htext))
        (inline_of_inert (by decide)))
  | splice text => exact isLine_append htagged (inline_of_inert (inert_quoted text))
  | unknown kind text =>
      have hred : IsLine (palette.colour .red "unknown").toList := isLine_colour _ _ (by decide)
      have hkind : Inline kind := hwords kind List.mem_cons_self
      have hquoted : Inline (quoted text) := inline_of_inert (inert_quoted text)
      exact isLine_append (isLine_append (isLine_append (isLine_append hred hblank) hkind) hblank)
        hquoted
  | mutate | raise | evaluate | input | readInto | writeOut | send | receive | scale | bounds
  | duration | derivative =>
      -- Behind the tag there are only words, expressions, and plain texts of the outline's own.
      simp only [Action.words, Action.texts, Action.expressions,
        List.forall_mem_cons] at hwords hshown
      simp only [actionText, String.append_assoc]
      refine isLine_append htag ?_
      repeat' apply inline_append
      all_goals
        simp +decide only [inline_of_inert, hwords, hshown, WriteMode.inert_text,
          TimeUnit.inert_text]

/-- Whatever stands in parentheses, the closing one settles the terminal. -/
theorem inline_parenthesized {text : String} (htext : OnOneLine text) :
    Inline ("(" ++ text ++ ")") := by
  refine inline_of_settles (by simp +decide [htext]) ?_
  rw [String.toList_append]
  exact (settles_singleton (by decide)).append _

theorem isLine_headText {tag : String} (htag : isTag tag = true) {expression : Expr}
    (hspelt : expression.Spelt) : IsLine (headText palette tag expression).toList :=
  isLine_append (isLine_append (isLine_colour _ _ htag) (inline_of_inert (by decide)))
    (hspelt.inline_shown palette)

theorem isLine_openerText {line : Nat} {opener : Opener} {body : Block}
    (hspelt : (Stmt.nested line opener body).Spelt) :
    IsLine (openerText palette opener).toList := by
  have htag : IsLine (palette.colour .cyan opener.tag).toList :=
    isLine_colour _ _ (by cases opener <;> simp only [Opener.tag] <;> decide)
  have hblank : Inline " " := inline_of_inert (by decide)
  cases opener with
  | block | pureRegion => exact htag
  | whileLoop expression | schedule expression =>
      have hexpression : expression.Spelt :=
        hspelt.names expression (by simp [Stmt.allExpressions, Stmt.ownExpressions,
          Opener.expressions])
      exact isLine_append (isLine_append htag hblank) (hexpression.inline_shown palette)
  | forLoop header =>
      have hheader := inline_parenthesized (hspelt.copied header (by simp [Stmt.copied]))
      have hline := isLine_append (isLine_append htag hblank) hheader
      have htext : " " ++ "(" = " (" := rfl
      simpa [openerText, ← String.append_assoc, htext] using hline

theorem isLine_functionText {declaration : FunctionDecl}
    (hwords : ∀ word ∈ declaration.words, Lexeme.JoinsWords word)
    (hparameters : OnOneLine declaration.parameters.shown) :
    IsLine (functionText palette declaration.flavor declaration.name declaration.parameters
      declaration.result declaration.overlays).toList := by
  simp only [FunctionDecl.words, List.cons_append, List.forall_mem_cons, List.forall_mem_append,
    Option.mem_toList, List.forall_mem_map] at hwords
  obtain ⟨hname, hresult, hoverlays⟩ := hwords
  have hflavor : IsLine (palette.colour .magenta declaration.flavor.text).toList :=
    isLine_colour _ _ (by cases declaration.flavor <;> decide)
  have hblank : Inline " " := inline_of_inert (by decide)
  have hshown : Inline (if declaration.overlays.isEmpty then ""
      else " " ++ Overlay.shownAll palette declaration.overlays) := by
    split_ifs
    · exact inline_of_inert (by decide)
    · exact inline_append hblank (Overlay.inline_shownAll palette hoverlays)
  have hline := isLine_append (isLine_append (isLine_append (isLine_append
    (isLine_append hflavor hblank) (inline_colour palette .blue hname.inline))
    (inline_parenthesized hparameters)) (inline_map_getD fun type htype =>
      inline_append (inline_of_inert (by decide : Inert " -> ")) (hresult type htype).inline))
    hshown
  simpa [functionText, String.append_assoc] using hline

theorem isLine_classText (kind : ClassKind) {name : String} (hname : Lexeme.JoinsWords name)
    {bases : List String} (hbases : ∀ base ∈ bases, Lexeme.JoinsWords base) :
    IsLine (classText palette kind name bases).toList := by
  have hkind : IsLine (palette.colour .magenta kind.text).toList :=
    isLine_colour _ _ (by cases kind <;> decide)
  refine isLine_append (isLine_append (isLine_append hkind (inline_of_inert (by decide)))
    (inline_colour palette .blue hname.inline)) ?_
  split_ifs
  · exact inline_of_inert (by decide)
  · exact inline_append (inline_of_inert (by decide)) (inline_intercalate
      (inline_of_inert (by decide)) fun base hbase => (hbases base hbase).inline)

/-! ## Trees -/

/-- The text is a line with its end. -/
def Drawn (text : String) : Prop := ∃ content, IsLine content ∧ text.toList = content ++ ['\n']

theorem drawn_line {text : String} (htext : IsLine text.toList) (depth : Nat) :
    Drawn (line depth text) :=
  ⟨_, htext.indent (2 * depth), by simp [line]⟩

/-- The statement is drawn as lines at every depth. -/
def DrawsLines (found : Stmt) : Prop :=
  ∀ depth, ∀ text ∈ statement palette depth found, Drawn text

theorem statements_eq_flatMap (depth : Nat) (found : List Stmt) :
    statements palette depth found = found.flatMap (statement palette depth) := by
  induction found with
  | nil => rfl
  | cons first rest ih => rw [statements, ih, List.flatMap_cons]

theorem cases_eq_flatMap (depth : Nat) (clauses : List SwitchCase) :
    cases palette depth clauses = clauses.flatMap fun clause =>
      line depth ("case " ++ clause.label.shown palette) ::
        block palette (depth + 1) clause.body := by
  induction clauses with
  | nil => rfl
  | cons clause rest ih =>
      rcases clause with ⟨label, body⟩
      rw [cases, ih, List.flatMap_cons]

theorem arms_eq_flatMap (depth : Nat) (clauses : List MatchArm) :
    arms palette depth clauses = clauses.flatMap fun clause =>
      line depth ("case " ++ " | ".intercalate (clause.patterns.map (·.shown palette))) ::
        block palette (depth + 1) clause.body := by
  induction clauses with
  | nil => rfl
  | cons clause rest ih =>
      rcases clause with ⟨patterns, body⟩
      rw [arms, ih, List.flatMap_cons]

/-- The lines of a member of a class. -/
def member (depth : Nat) : ClassMember → List String
  | .field access binding => [line depth (access.text ++ " " ++ binding.shown palette)]
  | .method access declaration =>
    line depth (access.text ++ ":") :: function palette (depth + 1) declaration

theorem members_eq_flatMap (depth : Nat) (found : List ClassMember) :
    members palette depth found = found.flatMap (member palette depth) := by
  induction found with
  | nil => rfl
  | cons first rest ih =>
      cases first with
      | field access binding => rw [members, ih, List.flatMap_cons, member, List.singleton_append]
      | method access declaration => rw [members, ih, List.flatMap_cons, member]

section

variable {palette}

theorem drawn_block {body : Block} (hbody : body.Forall (DrawsLines palette)) (depth : Nat) :
    ∀ text ∈ block palette depth body, Drawn text := by
  rcases body with ⟨line, found⟩
  rw [block, statements_eq_flatMap, List.forall_mem_flatMap]
  exact fun inner hinner => hbody inner hinner depth

/-- A head and the block under it. -/
theorem drawn_headed {head : String} (hhead : IsLine head.toList) {body : Block}
    (hbody : body.Forall (DrawsLines palette)) (depth : Nat) :
    ∀ text ∈ line depth head :: block palette (depth + 1) body, Drawn text :=
  List.forall_mem_cons.mpr ⟨drawn_line hhead depth, drawn_block hbody (depth + 1)⟩

theorem drawn_function {declaration : FunctionDecl}
    (hbody : declaration.body.Forall (DrawsLines palette))
    (hwords : ∀ word ∈ declaration.words, Lexeme.JoinsWords word)
    (hparameters : OnOneLine declaration.parameters.shown) (depth : Nat) :
    ∀ text ∈ function palette depth declaration, Drawn text := by
  have hhead := isLine_functionText palette hwords hparameters
  rcases declaration with ⟨line, flavor, name, parameters, result, overlays, body⟩
  exact drawn_headed hhead hbody depth

theorem drawn_fallbackBlock {fallback : Option Block}
    (hbodies : ∀ body ∈ fallback, body.Forall (DrawsLines palette)) (depth : Nat) :
    ∀ text ∈ fallbackBlock palette depth fallback, Drawn text := by
  cases fallback with
  | none => nofun
  | some body => exact drawn_headed (isLine_of_isTag (by decide)) (hbodies body rfl) depth

theorem drawn_member {found : ClassMember}
    (hbody : ∀ access method, found = .method access method →
      method.body.Forall (DrawsLines palette))
    (hwords : ∀ word ∈ found.words, Lexeme.JoinsWords word)
    (hcopied : ∀ text ∈ found.copied, OnOneLine text)
    (hvalues : ∀ value ∈ found.fieldValues, value.Spelt) (depth : Nat) :
    ∀ text ∈ member palette depth found, Drawn text := by
  have haccess : ∀ access : Access, IsLine access.text.toList := fun access =>
    isLine_of_isTag (by cases access <;> decide)
  cases found with
  | field access binding =>
      have hbinding := Local.isLine_shown palette hwords fun value hvalue =>
        hvalues value (Option.mem_toList.mpr hvalue)
      have hline := isLine_append (isLine_append (haccess access)
        (inline_of_inert (by decide : Inert " "))) hbinding.inline
      exact List.forall_mem_singleton.mpr (drawn_line hline depth)
  | method access declaration =>
      have hhead := isLine_append (haccess access) (inline_of_inert (by decide : Inert ":"))
      exact List.forall_mem_cons.mpr ⟨drawn_line hhead depth,
        drawn_function (hbody access declaration rfl) hwords (hcopied _ List.mem_cons_self)
          (depth + 1)⟩

theorem drawsLines_classDecl {line : Nat} {declaration : ClassDecl}
    (hspelt : (Stmt.classDecl line declaration).Spelt)
    (hbodies : ∀ access method, .method access method ∈ declaration.members →
      method.body.Forall (DrawsLines palette)) :
    DrawsLines palette (.classDecl line declaration) := by
  intro depth
  rcases declaration with ⟨classLine, kind, name, bases, found⟩
  have hwords := hspelt.words
  simp only [Stmt.words, List.cons_append, List.forall_mem_cons, List.forall_mem_append,
    List.forall_mem_flatMap] at hwords
  obtain ⟨hname, hbases, hmembers⟩ := hwords
  rw [statement, members_eq_flatMap, List.forall_mem_cons, List.forall_mem_flatMap]
  refine ⟨drawn_line (isLine_classText palette kind hname hbases) depth, fun member hmember => ?_⟩
  refine drawn_member ?_ (hmembers member hmember) ?_ ?_ (depth + 1)
  · rintro access method rfl
    exact hbodies access method hmember
  · exact fun text htext => hspelt.copied text (List.mem_flatMap.mpr ⟨member, hmember, htext⟩)
  · exact fun value hvalue => hspelt.names value (List.mem_append_right _
      (List.mem_flatMap.mpr ⟨member, hmember, hvalue⟩))

theorem drawsLines_of_legible {found : Stmt}
    (hlegible : ∀ inner ∈ found.withDescendants, inner.Legible) : DrawsLines palette found := by
  refine Stmt.induction_of_forall ?simple ?function ?classDecl ?nested ?branch ?switch ?select
    ?attempt found hlegible
  case simple =>
    intro line action hown depth
    exact List.forall_mem_singleton.mpr (drawn_line (isLine_actionText palette hown) depth)
  case function =>
    intro line declaration hown hbody depth
    exact drawn_function hbody hown.words (hown.copied _ List.mem_cons_self) depth
  case classDecl =>
    intro line declaration hown hbodies
    exact drawsLines_classDecl hown.toSpelt hbodies
  case nested =>
    intro line opener body hown hbody depth
    exact drawn_headed (isLine_openerText palette hown.toSpelt) hbody depth
  case branch =>
    intro line condition positive negative hown hpositive hnegative depth
    have hcondition : condition.Spelt :=
      hown.names condition (List.mem_append_left _ List.mem_cons_self)
    refine List.forall_mem_append.mpr
      ⟨drawn_headed (isLine_headText palette (by decide) hcondition) hpositive depth, ?_⟩
    cases negative with
    | none => nofun
    | some negative =>
        exact List.forall_mem_cons.mpr ⟨drawn_line (isLine_colour _ _ (by decide)) depth,
          hnegative negative rfl (depth + 1)⟩
  case switch =>
    intro line scrutinee clauses fallback hown hclauses hfallback depth
    have hscrutinee : scrutinee.Spelt :=
      hown.names scrutinee (List.mem_append_left _ List.mem_cons_self)
    rw [statement, cases_eq_flatMap, List.forall_mem_append, List.forall_mem_cons,
      List.forall_mem_flatMap]
    refine ⟨⟨drawn_line (isLine_headText palette (by decide) hscrutinee) depth, ?_⟩,
      drawn_fallbackBlock hfallback (depth + 1)⟩
    intro clause hclause
    exact drawn_headed (isLine_append (isLine_of_isTag (by decide))
      (clause.label.inline_shown palette)) (hclauses clause hclause) (depth + 1)
  case select =>
    intro line scrutinee clauses fallback hown hclauses hfallback depth
    have hscrutinee : scrutinee.Spelt :=
      hown.names scrutinee (List.mem_append_left _ List.mem_cons_self)
    rw [statement, arms_eq_flatMap, List.forall_mem_append, List.forall_mem_cons,
      List.forall_mem_flatMap]
    refine ⟨⟨drawn_line (isLine_headText palette (by decide) hscrutinee) depth, ?_⟩,
      drawn_fallbackBlock hfallback (depth + 1)⟩
    intro clause hclause
    have hpatterns : Inline (" | ".intercalate (clause.patterns.map (·.shown palette))) :=
      inline_intercalate (inline_of_inert (by decide)) <|
        List.forall_mem_map.mpr fun pattern _ => pattern.inline_shown palette
    exact drawn_headed (isLine_append (isLine_of_isTag (by decide)) hpatterns)
      (hclauses clause hclause) (depth + 1)
  case attempt =>
    intro line body binding handler hown hbody hhandler depth
    have hbinding : Inline (binding.getD "_") :=
      inline_getD (fun name hname => (hown.words name (Option.mem_toList.mpr hname)).inline)
        (inline_of_inert (by decide))
    exact List.forall_mem_append.mpr
      ⟨drawn_headed (isLine_colour _ _ (by decide)) hbody depth,
        drawn_headed (isLine_append (isLine_of_isTag (by decide)) hbinding) hhandler depth⟩

end

end Outline

/-- No line of the outline of a legible program starts with an equals sign, as a terminal shows
it. -/
theorem Program.Legible.isClear_outline {program : Program} (hlegible : program.Legible) :
    IsClear (stripSequences (program.outline palette)) := by
  refine ⟨?_⟩
  rw [stripSequences, String.toList_ofList, Program.outline, String.toList_join]
  refine unmarked_shown (List.forall_mem_map.mpr ?_) (fun _ => rfl)
  rw [Outline.statements_eq_flatMap, List.forall_mem_flatMap]
  exact fun statement hstatement =>
    Outline.drawsLines_of_legible (Program.forall_withDescendants hlegible hstatement) 0

end

end Tide
