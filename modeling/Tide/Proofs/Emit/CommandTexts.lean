import Tide.Proofs.Emit.Escaping
import Tide.Proofs.Emit.Writing
import Tide.Proofs.Number.Characters
import Tide.Proofs.Tree.Spelling

/-!
# Lines of code are lines

Whatever a program that was read makes emission write in one line has no line feed: names and types
are words, strings are escaped, comments are made safe, and a splice is written line by line.
-/

namespace Tide

open Text

/-! ## Texts -/

theorem onOneLine_repr (number : Nat) : OnOneLine number.repr := by
  rw [OnOneLine, Nat.toList_repr]
  intro hmem
  exact absurd (isPlain_of_mem_toDigits (by decide) (by decide) hmem) (by decide)

theorem onOneLine_int_repr (number : Int) : OnOneLine number.repr := by
  cases number with
  | ofNat number => exact onOneLine_repr number
  | negSucc number =>
      rw [Int.repr, onOneLine_append]
      exact ⟨by decide, onOneLine_repr (number + 1)⟩

namespace Emit

/-- A line feed in a string is written as an escape. -/
theorem onOneLine_escape (text : String) : OnOneLine (escape text) := by
  rw [OnOneLine, escape, String.toList_ofList, List.mem_flatMap]
  rintro ⟨char, -, hmem⟩
  have hcontrol := control_mem_spells (spells_escapedChar char) hmem (.inl (by decide))
  exact absurd hcontrol.2 (by decide)

/-- A line feed in a comment is written as a blank. -/
theorem onOneLine_commentSafe (text : String) : OnOneLine (commentSafe text) := by
  rw [OnOneLine, commentSafe, String.toList_ofList, List.mem_map]
  rintro ⟨char, -, heq⟩
  split_ifs at heq with hend
  · cases heq
  · exact hend (.inl heq)

theorem onOneLine_typeText {type : TypeName} (htype : OnOneLine type) :
    OnOneLine (typeText type) := by
  unfold typeText
  split_ifs
  · decide
  · decide
  · decide
  · decide
  · exact htype

end Emit

theorem Literal.onOneLine_cppText (value : Literal) : OnOneLine value.cppText := by
  cases value with
  | number value => exact value.inert_cppText.1
  | string text => simp +decide [cppText, Emit.onOneLine_escape]
  | boolean value => cases value <;> decide

namespace Expr

/-- Names are words and strings are escaped, so an expression is on one line. -/
theorem Spelt.onOneLine_cppText {expression : Expr} (hspelt : expression.Spelt) :
    OnOneLine expression.cppText := by
  induction expression with
  | literal line value => exact value.onOneLine_cppText
  | name line text => exact (hspelt text (by simp [names])).onOneLine
  | unary line operator operand ih =>
      have hoperator : OnOneLine operator.text := by cases operator <;> decide
      simp +decide [cppText, hoperator, ih hspelt]
  | binary line operator left right ihLeft ihRight =>
      obtain ⟨hleft, hright⟩ := List.forall_mem_append.mp hspelt
      cases operator <;> simp +decide [cppText, BinaryOp.text, ihLeft hleft, ihRight hright]
  | ternary line condition positive negative ihCondition ihPositive ihNegative =>
      obtain ⟨hfront, hnegative⟩ := List.forall_mem_append.mp hspelt
      obtain ⟨hcondition, hpositive⟩ := List.forall_mem_append.mp hfront
      simp +decide [cppText, ihCondition hcondition, ihPositive hpositive, ihNegative hnegative]
  | call line callee arguments ihCallee ihArguments =>
      obtain ⟨hcallee, harguments⟩ := List.forall_mem_append.mp hspelt
      rw [namesAll_eq_flatMap, List.forall_mem_flatMap] at harguments
      have htexts : OnOneLine (", ".intercalate (arguments.map cppText)) :=
        onOneLine_intercalate (by decide) <| List.forall_mem_map.mpr fun argument hargument =>
          ihArguments argument hargument (harguments argument hargument)
      simp +decide [cppText, cppTexts_eq_map, ihCallee hcallee, htexts]
  | index line target place ihTarget ihPlace =>
      obtain ⟨htarget, hplace⟩ := List.forall_mem_append.mp hspelt
      simp +decide [cppText, ihTarget htarget, ihPlace hplace]
  | member line target field ih =>
      obtain ⟨htarget, hfield⟩ := List.forall_mem_append.mp hspelt
      have hname := (hfield field (by simp)).onOneLine
      simp +decide [cppText, ih htarget, hname]

theorem Spelt.of_mem_chain {expression : Expr} (hspelt : expression.Spelt) :
    ∀ operand ∈ expression.chain, operand.Spelt := by
  fun_induction chain expression with
  | case1 line left right ih =>
      obtain ⟨hleft, hright⟩ := List.forall_mem_append.mp hspelt
      exact List.forall_mem_append.mpr ⟨ih hleft, List.forall_mem_singleton.mpr hright⟩
  | case2 => exact List.forall_mem_singleton.mpr hspelt

theorem Spelt.of_mem_printed {expression : Expr} (hspelt : expression.Spelt) :
    ∀ operand ∈ expression.printed, operand.Spelt := by
  rw [printed]
  split_ifs
  · exact hspelt.of_mem_chain
  · exact List.forall_mem_singleton.mpr hspelt

end Expr

/-! ## Parameters -/

namespace ParameterList

/-- The words of a parameter have no line feeds, and those of a list that is shown on one line have
none either. -/
theorem onOneLine_of_mem_parameters {found : ParameterList} (hshown : OnOneLine found.shown)
    {parameter : Parameter} (hparameter : parameter ∈ found.parameters) :
    OnOneLine parameter.name ∧ ∀ type ∈ parameter.type, OnOneLine type := by
  cases found with
  | raw text =>
      obtain ⟨fragment, -, hfragment⟩ := List.mem_filterMap.mp hparameter
      exact Parameter.onOneLine_of_ofFragment? hfragment
  | listed parameters =>
      exact parameter.onOneLine_shown_iff.mp
        (onOneLine_of_mem hshown (List.mem_map_of_mem hparameter))

end ParameterList

namespace Emit

section

variable {parameters : List Parameter}
variable (hparameters : ∀ parameter ∈ parameters,
  OnOneLine parameter.name ∧ ∀ type ∈ parameter.type, OnOneLine type)

include hparameters

theorem onOneLine_lambdaParameters : OnOneLine (lambdaParameters parameters) := by
  refine onOneLine_intercalate (by decide) (List.forall_mem_map.mpr fun parameter hmem => ?_)
  obtain ⟨hname, htype⟩ := hparameters parameter hmem
  cases hfound : parameter.type with
  | none => simp +decide [hname]
  | some type => simp +decide [hname, onOneLine_typeText (htype type hfound)]

/-- A parameter is on one line, under its own type or under a template type. -/
theorem onOneLine_templateParameters (next : Nat) :
    ∀ text ∈ templateParameters next parameters, OnOneLine text := by
  induction parameters generalizing next with
  | nil => nofun
  | cons first rest ih =>
      obtain ⟨⟨hname, htype⟩, hrest⟩ := List.forall_mem_cons.mp hparameters
      rcases first with ⟨name, type⟩
      cases type with
      | none =>
          refine List.forall_mem_cons.mpr ⟨?_, ih hrest (next + 1)⟩
          simp +decide [hname, onOneLine_repr]
      | some type =>
          refine List.forall_mem_cons.mpr ⟨?_, ih hrest next⟩
          simp +decide [hname, onOneLine_typeText (htype type rfl)]

end

theorem onOneLine_templateTypes (parameters : List Parameter) :
    ∀ text ∈ templateTypes parameters, OnOneLine text :=
  List.forall_mem_map.mpr fun number _ => by simp +decide [onOneLine_repr]

/-! ## Actions -/

section

variable {binding : Local} (hwords : ∀ word ∈ binding.texts, Lexeme.JoinsWords word)
variable (hvalue : ∀ value ∈ binding.value, value.Spelt)

include hwords hvalue

/-- A declaration is on one line, with a type or without. -/
theorem onOneLine_localDeclaration : OnOneLine (localDeclaration binding) := by
  rcases binding with ⟨name, constant, type, value⟩
  obtain ⟨hname, htype⟩ := List.forall_mem_cons.mp hwords
  have hconstant : OnOneLine (if constant then "const " else "") := by cases constant <;> decide
  cases type with
  | none =>
      cases value with
      | none => simp +decide [localDeclaration, hconstant, hname.onOneLine]
      | some value =>
          simp +decide [localDeclaration, hconstant, hname.onOneLine,
            (hvalue value rfl).onOneLine_cppText]
  | some type =>
      have htext := onOneLine_typeText (htype type (by simp)).onOneLine
      cases value with
      | none => simp +decide [localDeclaration, hconstant, hname.onOneLine, htext]
      | some value =>
          simp +decide [localDeclaration, hconstant, hname.onOneLine, htext,
            (hvalue value rfl).onOneLine_cppText]

theorem onOneLine_fieldDeclaration : OnOneLine (fieldDeclaration binding) := by
  rcases binding with ⟨name, constant, type, value⟩
  obtain ⟨hname, htype⟩ := List.forall_mem_cons.mp hwords
  have hconstant : OnOneLine (if constant then "const " else "") := by cases constant <;> decide
  have hfield : OnOneLine (fieldType ⟨name, constant, type, value⟩) := by
    cases type with
    | some type => exact onOneLine_typeText (htype type (by simp)).onOneLine
    | none =>
        unfold fieldType
        split
        · next heq => cases heq
        all_goals decide
  cases value with
  | none => simp +decide [fieldDeclaration, hconstant, hname.onOneLine, hfield]
  | some value =>
      simp +decide [fieldDeclaration, hconstant, hname.onOneLine, hfield,
        (hvalue value rfl).onOneLine_cppText]

end

/-- The lines of a text have no line feeds. -/
theorem onOneLine_of_mem_lines {text line : List Char} (hline : line ∈ Text.lines text) :
    OnOneLine (String.ofList line) := by
  have hpiece : ∀ piece ∈ split (· == '\n') text, '\n' ∉ piece := fun piece hpiece hmem =>
    absurd (isCut_of_mem_split hpiece hmem) (by decide)
  have hended : ∀ piece ∈ (split (· == '\n') text).dropLast.map fun piece =>
      if piece.getLast? = some '\r' then piece.dropLast else piece, '\n' ∉ piece := by
    refine List.forall_mem_map.mpr fun piece hmem => ?_
    have hnone := hpiece piece (List.dropLast_subset _ hmem)
    split_ifs
    · exact fun hfeed => hnone (List.dropLast_subset _ hfeed)
    · exact hnone
  rw [OnOneLine, String.toList_ofList]
  simp only [Text.lines] at hline
  split at hline
  · exact hended line hline
  · exact hended line hline
  next last hne hlast =>
    rcases List.mem_append.mp hline with hmem | hmem
    · exact hended line hmem
    · rw [List.mem_singleton.mp hmem]
      exact hpiece last (List.mem_of_getLast? hlast)

/-- Of all actions only a splice can take several lines, and it is cut at them. -/
theorem onOneLine_actionLines {line : Nat} {found : Action}
    (hspelt : (Stmt.simple line found).Spelt) : ∀ text ∈ actionLines found, OnOneLine text := by
  have hword : ∀ word ∈ found.words, OnOneLine word := fun word hmem =>
    (hspelt.words word hmem).onOneLine
  have hcode : ∀ expression ∈ found.expressions, OnOneLine expression.cppText :=
    fun expression hmem => (hspelt.names expression (List.mem_append_left _ hmem)).onOneLine_cppText
  cases found with
  | declare binding =>
      refine List.forall_mem_singleton.mpr (onOneLine_localDeclaration hspelt.words ?_)
      exact fun value hvalue =>
        hspelt.names value (List.mem_append_left _ (Option.mem_toList.mpr hvalue))
  | directive overlays => simp +decide [actionLines, onOneLine_commentSafe]
  | assign target operator value =>
      simp only [Action.expressions, List.forall_mem_cons] at hcode
      cases operator <;> simp +decide [actionLines, assignment, AssignOp.text, hcode]
  | step target operator =>
      simp only [Action.expressions, List.forall_mem_cons] at hcode
      cases operator <;> simp +decide [actionLines, StepOp.text, hcode]
  | leave value =>
      cases value with
      | none => exact List.forall_mem_singleton.mpr (by decide)
      | some value =>
          have hvalue := hcode value (by simp [Action.expressions])
          simp +decide [actionLines, hvalue]
  | print value =>
      cases value with
      | none => exact List.forall_mem_singleton.mpr (by decide)
      | some value =>
          have hvalue : value.Spelt :=
            hspelt.names value (List.mem_append_left _ List.mem_cons_self)
          have hprinted : OnOneLine (" << ".intercalate (value.printed.map Expr.cppText)) :=
            onOneLine_intercalate (by decide) <| List.forall_mem_map.mpr fun operand hoperand =>
              (hvalue.of_mem_printed operand hoperand).onOneLine_cppText
          simp +decide [actionLines, hprinted]
  | breakLoop | continueLoop | sync => exact List.forall_mem_singleton.mpr (by decide)
  | splice text =>
      exact List.forall_mem_map.mpr fun line hline => onOneLine_of_mem_lines hline
  | derivative name body argument => exact List.forall_mem_nil _
  | unknown kind text => simp +decide [actionLines, onOneLine_commentSafe]
  | checkpoint label => simp +decide [actionLines, onOneLine_escape]
  | writeOut path value mode =>
      simp only [Action.expressions, List.forall_mem_cons] at hcode
      cases mode <;> simp +decide [actionLines, booleanText, hcode]
  | channel name element =>
      have hname := hword name (by simp [Action.words, Action.texts])
      cases element with
      | none => simp +decide [actionLines, hname]
      | some type =>
          have htype := onOneLine_typeText (hword type (by simp [Action.words, Action.texts]))
          simp +decide [actionLines, hname, htype]
  | duration name amount unit =>
      simp only [Action.expressions, Action.words, Action.texts, List.forall_mem_cons]
        at hcode hword
      cases unit <;> simp +decide [actionLines, unitRatio, hcode, hword]
  | _ =>
      simp only [Action.expressions, Action.words, Action.texts, List.forall_mem_cons]
        at hcode hword
      simp +decide [actionLines, scaling, hcode, hword]

/-! ## What emission gives -/

/-- Whatever was emitted before, the emitter gives a value with the property. -/
def Gives {α : Type} (emitter : Emitter α) (property : α → Prop) : Prop :=
  ∀ emission, property (emitter.run emission).1

theorem gives_pure {α : Type} {property : α → Prop} {value : α} (hvalue : property value) :
    Gives (pure value) property :=
  fun _ => hvalue

/-- What follows may use what is known of the first value. -/
theorem Gives.bind {α β : Type} {first : Emitter α} {next : α → Emitter β} {found : α → Prop}
    {property : β → Prop} (hfirst : Gives first found)
    (hnext : ∀ value, found value → Gives (next value) property) :
    Gives (first >>= next) property :=
  fun emission => hnext _ (hfirst emission) _

/-- Notes change nothing of what follows. -/
theorem gives_rely {β : Type} {note : Requirements → Requirements} {next : Unit → Emitter β}
    {property : β → Prop} (hnext : Gives (next ()) property) :
    Gives (rely note >>= next) property :=
  fun _ => hnext _

theorem gives_fresh {label : String} (hlabel : OnOneLine label) :
    Gives (fresh label) OnOneLine := by
  intro emission
  have hname : OnOneLine (temporary label emission.temporaries.length) := by
    simp +decide [temporary, hlabel, onOneLine_repr]
  exact hname

/-- What the line says. -/
def Command.content : Command → String
  | line text | indent text | dedent text | outer text => text
  | blank => ""

/-- Every command writes a single line. -/
def OneLiners (lines : List Command) : Prop := ∀ command ∈ lines, OnOneLine command.content

section

variable {lines front back : List Command} {command : Command}

@[simp]
theorem oneLiners_nil : OneLiners [] := nofun

@[simp]
theorem oneLiners_cons : OneLiners (command :: lines) ↔
    OnOneLine command.content ∧ OneLiners lines :=
  List.forall_mem_cons

@[simp]
theorem oneLiners_append : OneLiners (front ++ back) ↔ OneLiners front ∧ OneLiners back :=
  List.forall_mem_append

@[simp]
theorem onOneLine_openBrace {text : String} :
    OnOneLine (openBrace text).content ↔ OnOneLine text := by
  simp +decide [openBrace, Command.content]

@[simp]
theorem onOneLine_closeBrace : OnOneLine closeBrace.content := by decide

@[simp]
theorem onOneLine_line {text : String} :
    OnOneLine (Command.line text).content ↔ OnOneLine text := Iff.rfl

@[simp]
theorem onOneLine_dedent {text : String} :
    OnOneLine (Command.dedent text).content ↔ OnOneLine text := Iff.rfl

@[simp]
theorem onOneLine_outer {text : String} :
    OnOneLine (Command.outer text).content ↔ OnOneLine text := Iff.rfl

end

/-- Parts that are written in single lines are so one after the other. -/
theorem gives_eachOf {α : Type} {emitOne : α → Emitter (List Command)} {parts : List α}
    (heach : ∀ part ∈ parts, Gives (emitOne part) OneLiners) :
    Gives (eachOf emitOne parts) OneLiners := by
  induction parts with
  | nil => exact gives_pure oneLiners_nil
  | cons first rest ih =>
      obtain ⟨hfirst, hrest⟩ := List.forall_mem_cons.mp heach
      exact hfirst.bind fun lines hlines => (ih hrest).bind fun after hafter =>
        gives_pure (oneLiners_append.mpr ⟨hlines, hafter⟩)

/-! ## Statements -/

/-- An action is written in single lines. -/
theorem gives_action {line : Nat} {found : Action} (hspelt : (Stmt.simple line found).Spelt) :
    Gives (action found) OneLiners := by
  refine gives_rely ?_
  cases found with
  | derivative name body argument =>
      have hname := (hspelt.words name (by simp [Stmt.words, Action.words, Action.texts])).onOneLine
      have hargument :=
        (hspelt.words argument (by simp [Stmt.words, Action.words, Action.texts])).onOneLine
      have hbody :=
        (hspelt.names body (List.mem_append_left _ List.mem_cons_self)).onOneLine_cppText
      refine (gives_fresh (by decide)).bind fun origin horigin =>
        (gives_fresh (by decide)).bind fun base hbase =>
        (gives_fresh (by decide)).bind fun shifted hshifted => gives_pure ?_
      simp +decide [derivativeStep, hname, hargument, hbody, horigin, hbase, hshifted]
  | _ => exact gives_pure (List.forall_mem_map.mpr (onOneLine_actionLines hspelt))

/-- The statement is written in single lines, also behind an else. -/
structure WritesLines (statement : Stmt) : Prop where
  asStmt : Gives (stmt statement) OneLiners
  asElse : Gives (negative (some statement)) OneLiners
  asTask : ∀ line priority body, statement = .nested line (.schedule priority) body →
    OnOneLine priority.cppText ∧ Gives (block body) OneLiners

theorem oneLiners_closeRunList {list : Option String} (hlist : ∀ name ∈ list, OnOneLine name) :
    OneLiners (closeRunList list) := by
  cases list with
  | none => exact oneLiners_nil
  | some name => simp +decide [closeRunList, hlist name rfl]

theorem oneLiners_task {list : String} (hlist : OnOneLine list) {priority : Expr}
    (hpriority : OnOneLine priority.cppText) {body : List Command} (hbody : OneLiners body) :
    OneLiners (task list priority body) := by
  simp +decide [task, hlist, hpriority, hbody]

theorem gives_newRunList : Gives newRunList OnOneLine :=
  gives_rely (gives_fresh (by decide))

/-- Tasks in a row go into one run list, whose name is on one line. -/
theorem gives_stmts {found : List Stmt} (hfound : ∀ statement ∈ found, WritesLines statement)
    {list : Option String} (hlist : ∀ name ∈ list, OnOneLine name) :
    Gives (stmts list found) OneLiners := by
  induction found generalizing list with
  | nil =>
      rw [stmts]
      exact gives_pure (oneLiners_closeRunList hlist)
  | cons first rest ih =>
      obtain ⟨hfirst, hrest⟩ := List.forall_mem_cons.mp hfound
      by_cases htask : isTask first
      · obtain ⟨line, priority, body, rfl⟩ := exists_of_isTask htask
        obtain ⟨hpriority, hbody⟩ := hfirst.asTask line priority body rfl
        cases list with
        | some list =>
            have hname := hlist list rfl
            rw [stmts]
            refine hbody.bind fun inside hinside => (ih hrest hlist).bind fun after hafter =>
              gives_pure (oneLiners_append.mpr ⟨oneLiners_task hname hpriority hinside, hafter⟩)
        | none =>
            rw [stmts]
            refine gives_newRunList.bind fun list hname => hbody.bind fun inside hinside =>
              (ih hrest (by simpa using hname)).bind fun after hafter => gives_pure ?_
            have hlines := oneLiners_task hname hpriority hinside
            simp +decide [openRunList, hname, hlines, hafter]
      · rw [stmts_cons (Bool.eq_false_iff.mpr htask)]
        refine hfirst.asStmt.bind fun lines hlines => (ih hrest (by simp)).bind fun after hafter =>
          gives_pure ?_
        simp [oneLiners_closeRunList hlist, hlines, hafter]

theorem gives_block {body : Block} (hbody : body.Forall WritesLines) :
    Gives (block body) OneLiners := by
  rcases body with ⟨line, found⟩
  rw [block]
  exact gives_stmts hbody (by simp)

/-- A statement that starts a line of its own behind the else. -/
theorem WritesLines.ofStmt {statement : Stmt} (hplain : joinsElse statement = false)
    (hstmt : Gives (stmt statement) OneLiners)
    (htask : ∀ line priority body, statement = .nested line (.schedule priority) body →
      OnOneLine priority.cppText ∧ Gives (block body) OneLiners) : WritesLines statement where
  asStmt := hstmt
  asElse := by
    rw [negative_some hplain]
    exact hstmt.bind fun inside hinside => gives_pure (by simp +decide [hinside])
  asTask := htask

theorem onOneLine_resultType {result : Option TypeName}
    (hresult : ∀ type ∈ result, OnOneLine type) (flavor : FunctionFlavor) :
    ∀ type ∈ resultType flavor result, OnOneLine type := by
  cases result with
  | some type => simpa [resultType] using onOneLine_typeText (hresult type rfl)
  | none =>
      cases flavor with
      | routine => simpa [resultType] using (by decide : OnOneLine "void")
      | function | method => nofun

theorem oneLiners_functionOpening (placement : Placement) (flavor : FunctionFlavor) {name : String}
    (hname : OnOneLine name) {parameters : List Parameter}
    (hparameters : ∀ parameter ∈ parameters,
      OnOneLine parameter.name ∧ ∀ type ∈ parameter.type, OnOneLine type)
    {result : Option TypeName} (hresult : ∀ type ∈ result, OnOneLine type)
    (overlays : List Overlay) :
    OneLiners (functionOpening placement flavor name parameters result overlays) := by
  have htype := onOneLine_resultType hresult flavor
  have hcomment : OneLiners (if overlays.isEmpty then [] else
      [.line ("// overlays: " ++ commentSafe (", ".intercalate (overlays.map (·.name))))]) := by
    split_ifs
    · exact oneLiners_nil
    · simp +decide [onOneLine_commentSafe]
  refine oneLiners_append.mpr ⟨hcomment, ?_⟩
  cases placement with
  | inBlock =>
      have harrow : OnOneLine (((resultType flavor result).map (" -> " ++ ·)).getD "") := by
        cases hfound : resultType flavor result with
        | none => decide
        | some type => simp +decide [htype type hfound]
      simp +decide [hname, onOneLine_lambdaParameters hparameters, harrow]
  | free | member =>
      have htemplate : OneLiners (if (templateTypes parameters).isEmpty then []
          else [.line ("template <" ++ ", ".intercalate (templateTypes parameters) ++ ">")]) := by
        split_ifs
        · exact oneLiners_nil
        · simp +decide [onOneLine_intercalate _ (onOneLine_templateTypes parameters)]
      have hlist := onOneLine_intercalate (by decide : OnOneLine ", ")
        (onOneLine_templateParameters hparameters 0)
      have hauto := onOneLine_getD htype (by decide : OnOneLine "auto")
      refine oneLiners_append.mpr ⟨htemplate, ?_⟩
      simp +decide [hname, hlist, hauto]

/-- A function is written in single lines if its body is. -/
theorem gives_function (placement : Placement) {declaration : FunctionDecl}
    (hbody : declaration.body.Forall WritesLines)
    (hwords : ∀ word ∈ declaration.words, Lexeme.JoinsWords word)
    (hshown : OnOneLine declaration.parameters.shown) :
    Gives (function placement declaration) OneLiners := by
  rcases declaration with ⟨line, flavor, name, parameters, result, overlays, body⟩
  simp only [FunctionDecl.words, List.cons_append, List.forall_mem_cons, List.forall_mem_append,
    Option.mem_toList] at hwords
  have hopening := oneLiners_functionOpening placement flavor hwords.1.onOneLine
    (fun parameter => ParameterList.onOneLine_of_mem_parameters hshown)
    (fun type htype => (hwords.2.1 type htype).onOneLine) overlays
  have hclosing : OnOneLine (functionClosing placement).content := by cases placement <;> decide
  rw [function]
  refine (gives_block hbody).bind fun inside hinside => gives_pure ?_
  simp [hopening, hinside, hclosing]

/-- The section that is open changes no more than where a label stands. -/
theorem gives_members {found : List ClassMember}
    (hbodies : ∀ access method, .method access method ∈ found → method.body.Forall WritesLines)
    (hwords : ∀ member ∈ found, ∀ word ∈ member.words, Lexeme.JoinsWords word)
    (hcopied : ∀ member ∈ found, ∀ text ∈ member.copied, OnOneLine text)
    (hvalues : ∀ member ∈ found, ∀ value ∈ member.fieldValues, value.Spelt) (current : Access) :
    Gives (members current found) OneLiners := by
  induction found generalizing current with
  | nil => exact gives_pure oneLiners_nil
  | cons first rest ih =>
      obtain ⟨hfirstWords, hwords⟩ := List.forall_mem_cons.mp hwords
      obtain ⟨hfirstCopied, hcopied⟩ := List.forall_mem_cons.mp hcopied
      obtain ⟨hfirstValues, hvalues⟩ := List.forall_mem_cons.mp hvalues
      have hrest := ih (fun access method hmem => hbodies access method
        (List.mem_cons_of_mem _ hmem)) hwords hcopied hvalues
      have hlabel : ∀ access, OneLiners (accessLabel current access) := by
        intro access
        rw [accessLabel]
        cases access <;> split_ifs <;> simp +decide
      cases first with
      | field access binding =>
          have hfield := onOneLine_fieldDeclaration hfirstWords fun value hvalue =>
            hfirstValues value (Option.mem_toList.mpr hvalue)
          rw [members]
          refine (hrest access).bind fun after hafter => gives_pure ?_
          simp [hlabel, hfield, hafter]
      | method access declaration =>
          have hfunction := gives_function .member
            (hbodies access declaration List.mem_cons_self) hfirstWords
            (hfirstCopied _ List.mem_cons_self)
          rw [members]
          refine hfunction.bind fun inside hinside => (hrest access).bind fun after hafter =>
            gives_pure ?_
          simp [hlabel, hinside, hafter]

theorem gives_classDecl {line : Nat} {declaration : ClassDecl}
    (hspelt : (Stmt.classDecl line declaration).Spelt)
    (hbodies : ∀ access method, .method access method ∈ declaration.members →
      method.body.Forall WritesLines) : Gives (classDecl declaration) OneLiners := by
  rcases declaration with ⟨classLine, kind, name, bases, found⟩
  have hwords := hspelt.words
  simp only [Stmt.words, List.cons_append, List.forall_mem_cons, List.forall_mem_append,
    List.forall_mem_flatMap] at hwords
  obtain ⟨hname, hbases, hmembers⟩ := hwords
  have hinherited : OnOneLine (if bases.isEmpty then ""
      else " : " ++ ", ".intercalate (bases.map ("public " ++ ·))) := by
    split_ifs
    · decide
    · rw [onOneLine_append]
      refine ⟨by decide, onOneLine_intercalate (by decide) (List.forall_mem_map.mpr ?_)⟩
      intro base hbase
      simp +decide [(hbases base hbase).onOneLine]
  have hopening : OnOneLine (classOpening kind name bases).content := by
    have hkind : OnOneLine kind.text := by cases kind <;> decide
    simp only [classOpening, onOneLine_openBrace, onOneLine_append]
    exact ⟨⟨⟨⟨hkind, by decide⟩, hname.onOneLine⟩, hinherited⟩, by decide⟩
  rw [classDecl]
  refine (gives_members hbodies hmembers ?_ ?_ kind.defaultAccess).bind fun inside hinside =>
    gives_pure (by simp +decide [hopening, hinside])
  · exact List.forall_mem_flatMap.mp hspelt.copied
  · exact List.forall_mem_flatMap.mp fun value hvalue =>
      hspelt.names value (List.mem_append_right _ hvalue)

theorem writesLines_nested {line : Nat} {opener : Opener} {body : Block}
    (hspelt : (Stmt.nested line opener body).Spelt) (hbody : body.Forall WritesLines) :
    WritesLines (.nested line opener body) := by
  have hlines := gives_block hbody
  have hcode : ∀ expression ∈ opener.expressions, OnOneLine expression.cppText :=
    fun expression hmem =>
      (hspelt.names expression (List.mem_append_left _ hmem)).onOneLine_cppText
  cases opener with
  | block =>
      refine ⟨?_, ?_, by simp⟩
      · rw [stmt]
        exact hlines.bind fun inside hinside => gives_pure (by simp +decide [hinside])
      · rw [negative]
        exact hlines.bind fun inside hinside => gives_pure (by simp +decide [hinside])
  | pureRegion =>
      refine .ofStmt rfl ?_ (by simp)
      rw [stmt]
      exact hlines.bind fun inside hinside => gives_pure (by simp +decide [hinside])
  | whileLoop condition =>
      have hcondition := hcode condition (by simp [Opener.expressions])
      refine .ofStmt rfl ?_ (by simp)
      rw [stmt]
      exact hlines.bind fun inside hinside => gives_pure (by simp +decide [hinside, hcondition])
  | forLoop header =>
      have hheader := hspelt.copied header (by simp [Stmt.copied])
      refine .ofStmt rfl ?_ (by simp)
      rw [stmt]
      exact hlines.bind fun inside hinside => gives_pure (by simp +decide [hinside, hheader])
  | schedule priority =>
      have hpriority := hcode priority (by simp [Opener.expressions])
      refine .ofStmt rfl ?_ ?_
      · rw [stmt]
        refine gives_newRunList.bind fun list hlist => hlines.bind fun inside hinside =>
          gives_pure ?_
        have htask := oneLiners_task hlist hpriority hinside
        have hclose : OneLiners (closeRunList (some list)) :=
          oneLiners_closeRunList (by simpa using hlist)
        simp +decide [openRunList, hlist, htask, hclose]
      · rintro _ _ _ ⟨⟩
        exact ⟨hpriority, hlines⟩

theorem writesLines_branch {line : Nat} {condition : Expr} {positive : Block}
    {branch : Option Stmt} (hspelt : (Stmt.branch line condition positive branch).Spelt)
    (hpositive : positive.Forall WritesLines) (hbranch : ∀ found ∈ branch, WritesLines found) :
    WritesLines (.branch line condition positive branch) := by
  have hlines := gives_block hpositive
  have hcondition := (hspelt.names condition
    (List.mem_append_left _ List.mem_cons_self)).onOneLine_cppText
  have htail : Gives (negative branch) OneLiners := by
    cases branch with
    | none =>
        rw [negative]
        exact gives_pure (by simp)
    | some found => exact (hbranch found rfl).asElse
  refine ⟨?_, ?_, by simp⟩
  · rw [stmt]
    exact hlines.bind fun inside hinside => htail.bind fun tail htail =>
      gives_pure (by simp +decide [hinside, htail, hcondition])
  · rw [negative]
    exact hlines.bind fun inside hinside => htail.bind fun tail htail =>
      gives_pure (by simp +decide [hinside, htail, hcondition])

theorem gives_testedClause {value matched : String} (hvalue : OnOneLine value)
    (hmatched : OnOneLine matched) (patterns : List Pattern) {body : Block}
    (hbody : body.Forall WritesLines) :
    Gives (testedClause value matched patterns body) OneLiners := by
  have hcondition : OnOneLine (armCondition value patterns) := by
    rw [armCondition]
    split_ifs
    · decide
    · refine onOneLine_intercalate (by decide) (List.forall_mem_map.mpr fun pattern _ => ?_)
      cases pattern with
      | literal found => simp +decide [patternCondition, hvalue, found.onOneLine_cppText]
      | wildcard =>
          rw [patternCondition]
          decide
  refine (gives_block hbody).bind fun inside hinside => gives_pure ?_
  simp +decide [armOpening, hmatched, hcondition, hinside]

theorem gives_testedFallback {matched : String} (hmatched : OnOneLine matched)
    {fallback : Option Block} (hfallback : ∀ body ∈ fallback, body.Forall WritesLines) :
    Gives (testedFallback matched fallback) OneLiners := by
  cases fallback with
  | none => exact gives_pure oneLiners_nil
  | some body =>
      exact (gives_block (hfallback body rfl)).bind fun inside hinside =>
        gives_pure (by simp +decide [hmatched, hinside])

/-- A switch that is tested clause by clause keeps its value under a fresh name. -/
theorem gives_tested {scrutinee : Expr} (hscrutinee : OnOneLine scrutinee.cppText)
    {clauses : String → String → Emitter (List Command)}
    (hclauses : ∀ value matched, OnOneLine value → OnOneLine matched →
      Gives (clauses value matched) OneLiners)
    {fallback : Option Block} (hfallback : ∀ body ∈ fallback, body.Forall WritesLines) :
    Gives (tested scrutinee clauses fallback) OneLiners := by
  refine (gives_fresh (by decide)).bind fun value hvalue =>
    (gives_fresh (by decide)).bind fun matched hmatched =>
    (hclauses value matched hvalue hmatched).bind fun inside hinside =>
    (gives_testedFallback hmatched hfallback).bind fun tail htail => gives_pure ?_
  simp +decide [hscrutinee, hvalue, hmatched, hinside, htail]

theorem gives_native {clauses : List SwitchCase}
    (hclauses : ∀ clause ∈ clauses, clause.body.Forall WritesLines) :
    Gives (eachOf nativeCase clauses) OneLiners :=
  gives_eachOf fun clause hclause => (gives_block (hclauses clause hclause)).bind
    fun inside hinside => gives_pure (by
      simp +decide [caseLabelText, onOneLine_int_repr, hinside])

/-- Statements write single lines, by induction on what they hold. -/
theorem writesLines_of_spelt {statement : Stmt}
    (hspelt : ∀ inner ∈ statement.withDescendants, inner.Spelt) : WritesLines statement := by
  refine Stmt.induction_of_forall ?simple ?function ?classDecl ?nested ?branch ?switch ?select
    ?attempt statement hspelt
  case simple =>
    intro line found hown
    refine .ofStmt rfl ?_ (by simp)
    rw [stmt]
    exact gives_action hown
  case function =>
    intro line declaration hown hbody
    refine .ofStmt rfl ?_ (by simp)
    rw [stmt]
    exact gives_function .inBlock hbody hown.words (hown.copied _ List.mem_cons_self)
  case classDecl =>
    intro line declaration hown hbodies
    refine .ofStmt rfl ?_ (by simp)
    rw [stmt]
    exact gives_classDecl hown hbodies
  case nested =>
    intro line opener body hown hbody
    exact writesLines_nested hown hbody
  case branch =>
    intro line condition positive negative hown hpositive hnegative
    exact writesLines_branch hown hpositive hnegative
  case switch =>
    intro line scrutinee clauses fallback hown hclauses hfallback
    have hscrutinee := (hown.names scrutinee
      (List.mem_append_left _ List.mem_cons_self)).onOneLine_cppText
    refine .ofStmt rfl ?_ (by simp)
    cases hnative : isNative clauses with
    | false =>
        rw [stmt_switch_of_not_native hnative]
        exact gives_tested hscrutinee (fun value matched hvalue hmatched =>
          gives_eachOf fun clause hclause =>
            gives_testedClause hvalue hmatched _ (hclauses clause hclause)) hfallback
    | true =>
        rw [stmt_switch_of_native hnative]
        have htail : Gives (nativeFallback fallback) OneLiners := by
          cases fallback with
          | none => exact gives_pure oneLiners_nil
          | some body =>
              exact (gives_block (hfallback body rfl)).bind fun inside hinside =>
                gives_pure (by simp +decide [hinside])
        exact (gives_native hclauses).bind fun inside hinside => htail.bind fun tail htail =>
          gives_pure (by simp +decide [hscrutinee, hinside, htail])
  case select =>
    intro line scrutinee clauses fallback hown hclauses hfallback
    have hscrutinee := (hown.names scrutinee
      (List.mem_append_left _ List.mem_cons_self)).onOneLine_cppText
    refine .ofStmt rfl ?_ (by simp)
    rw [stmt_select]
    exact gives_tested hscrutinee (fun value matched hvalue hmatched =>
      gives_eachOf fun clause hclause =>
        gives_testedClause hvalue hmatched _ (hclauses clause hclause)) hfallback
  case attempt =>
    intro line body binding handler hown hbody hhandler
    refine .ofStmt rfl ?_ (by simp)
    rw [stmt]
    refine gives_rely ((gives_block hbody).bind fun inside hinside =>
      (gives_block hhandler).bind fun handling hhandling => gives_pure ?_)
    have hbound : OneLiners (binding.toList.map fun name =>
        .line ("std::string " ++ name ++ " = tide_error.what();")) := by
      refine List.forall_mem_map.mpr fun name hname => ?_
      simp +decide [(hown.words name hname).onOneLine]
    simp +decide [hinside, hhandling, hbound]

/-! ## Programs -/

/-- The empty line behind a declaration is a single line as well. -/
theorem gives_declarations {α : Type} {emitOne : α → Emitter (List Command)} {found : List α}
    (heach : ∀ declaration ∈ found, Gives (emitOne declaration) OneLiners) :
    Gives (declarations emitOne found) OneLiners := by
  rw [declarations_eq_eachOf]
  refine gives_eachOf fun declaration hmem => (heach declaration hmem).bind fun lines hlines =>
    gives_pure ?_
  simpa [Command.content] using ⟨hlines, by decide⟩

/-- Every line of a program that is spelt as a source can spell it is a single line. -/
theorem gives_commands {program : Program} (hspelt : program.Spelt) :
    Gives (commands program) OneLiners := by
  have hall : ∀ {statement}, statement ∈ program → ∀ inner ∈ statement.withDescendants,
      inner.Spelt := Program.forall_withDescendants hspelt
  have hclasses : Gives (declarations classDecl (topClasses program)) OneLiners := by
    refine gives_declarations fun declaration hdeclaration => ?_
    obtain ⟨line, hmem⟩ := mem_topClasses_iff.mp hdeclaration
    have hclass := (writesLines_of_spelt (hall hmem)).asStmt
    rwa [stmt] at hclass
  have hfunctions : Gives (declarations (function .free) (topFunctions program)) OneLiners := by
    refine gives_declarations fun declaration hdeclaration => ?_
    obtain ⟨line, hmem⟩ := mem_topFunctions_iff.mp hdeclaration
    have hfound := hall hmem
    rw [Stmt.withDescendants_function, List.forall_mem_cons] at hfound
    exact gives_function .free
      (Block.forall_of_descendants (fun _ _ => writesLines_of_spelt) hfound.2) hfound.1.words
      (hfound.1.copied _ List.mem_cons_self)
  have hbody : Gives (stmts none (topStatements program)) OneLiners :=
    gives_stmts (fun statement hmem => writesLines_of_spelt (hall (List.mem_of_mem_filter hmem)))
      (by simp)
  refine hclasses.bind fun classes hclasses => hfunctions.bind fun functions hfunctions =>
    hbody.bind fun body hbody => gives_pure ?_
  simp +decide [hclasses, hfunctions, hbody]

end Emit

end Tide
