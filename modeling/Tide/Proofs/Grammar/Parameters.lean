import Tide.Analysis.FunctionTable
import Tide.Proofs.Text.Words
import Tide.Proofs.Token.RawText

/-!
# Parameter lists in parentheses

The commas outside of any inner parentheses part the tokens of a list into groups.  Its parameters
are read from its text, though, which is cut at every comma.  So each group declares parameters of
its own: none if it is empty, one if no comma is written in it, and two or more if a comma stands in
inner parentheses or in a string.  A parameter has its written position among the parameters of the
function exactly when no group before it has such a comma.
-/

namespace Tide

/-! ## Parameters of a text -/

/-- The last word is the name, and the words before it make up the type. -/
def Parameter.ofWords? (words : List String) : Option Parameter :=
  words.getLast?.map fun name =>
    { name
      type := if words.dropLast.isEmpty then none else some (" ".intercalate words.dropLast) }

theorem Parameter.ofFragment?_eq (fragment : List Char) :
    ofFragment? fragment = ofWords? ((Text.words fragment).map String.ofList) := by
  rw [ofFragment?, ofWords?, List.getLast?_map, ← List.map_dropLast, Option.map_map,
    List.isEmpty_map]
  rfl

theorem Parameter.isSome_ofWords?_iff {words : List String} :
    (ofWords? words).isSome = true ↔ words ≠ [] := by
  rw [ofWords?, Option.isSome_map, List.getLast?_isSome]

namespace ParameterList

/-- The parameters that a text declares. -/
def declaredIn (text : List Char) : List Parameter :=
  (Text.split (· == ',') text).filterMap Parameter.ofFragment?

theorem declaredIn_append (left right : List Char) :
    declaredIn (left ++ ',' :: right) = declaredIn left ++ declaredIn right := by
  rw [declaredIn, Text.split_append rfl, List.filterMap_append]
  rfl

theorem declaredIn_eq_of_map_words {left right : List Char}
    (hwords : (Text.split (· == ',') left).map Text.words =
      (Text.split (· == ',') right).map Text.words) :
    declaredIn left = declaredIn right := by
  have hfragment : Parameter.ofFragment? =
      (fun words => Parameter.ofWords? (words.map String.ofList)) ∘ Text.words :=
    funext Parameter.ofFragment?_eq
  rw [declaredIn, declaredIn, hfragment, ← List.filterMap_map, hwords, List.filterMap_map]

theorem declaredIn_space_cons (text : List Char) : declaredIn (' ' :: text) = declaredIn text :=
  declaredIn_eq_of_map_words (Text.map_words_split_cons (by decide) (by decide) text)

theorem declaredIn_concat_space (text : List Char) : declaredIn (text ++ [' ']) = declaredIn text :=
  declaredIn_eq_of_map_words (Text.map_words_split_concat (by decide) (by decide) text)

theorem declaredIn_of_not_mem {text : List Char} (hcomma : ',' ∉ text) :
    declaredIn text = (Parameter.ofFragment? text).toList := by
  have hcut : ∀ char ∈ text, (char == ',') = false := by
    intro char hchar
    rw [beq_eq_false_iff_ne]
    rintro rfl
    exact hcomma hchar
  rw [declaredIn, Text.split_eq_splitOnP, List.splitOnP_eq_singleton hcut]
  cases hparameter : Parameter.ofFragment? text <;> simp [hparameter]

/-- Neither a blank nor a comma. -/
def isSolid (char : Char) : Bool := !Text.isBlank char && char != ','

theorem declaredIn_ne_nil {text : List Char} {char : Char} (hmem : char ∈ text)
    (hsolid : isSolid char = true) : declaredIn text ≠ [] := by
  obtain ⟨hblank, hcomma⟩ : Text.isBlank char = false ∧ (char == ',') = false := by
    simpa [isSolid] using hsolid
  obtain ⟨fragment, hfragment, hmem⟩ :
      ∃ fragment ∈ Text.split (· == ',') text, char ∈ fragment := by
    apply Text.exists_mem_split _ hmem
    exact hcomma
  have hsome : (Parameter.ofFragment? fragment).isSome = true := by
    rw [Parameter.ofFragment?_eq, Parameter.isSome_ofWords?_iff]
    simpa using Text.words_ne_nil hmem hblank
  obtain ⟨parameter, hparameter⟩ := Option.isSome_iff_exists.mp hsome
  exact List.ne_nil_of_mem (List.mem_filterMap.mpr ⟨fragment, hfragment, hparameter⟩)

/-- A comma with something on both sides parts at least two parameters. -/
theorem two_le_length_declaredIn {text more before : List Char} {first last : Char}
    (hcomma : ',' ∈ text) (hstart : text = ' ' :: first :: more) (hfirst : isSolid first = true)
    (hend : text = before ++ [last]) (hlast : isSolid last = true) :
    2 ≤ (declaredIn text).length := by
  obtain ⟨left, right, rfl⟩ := List.append_of_mem hcomma
  have hleft : first ∈ left := by
    match left, hstart with
    | [], hstart => cases hstart
    | [_], hstart =>
        cases hstart
        exact absurd hfirst (by decide)
    | _ :: _ :: _, hstart =>
        cases hstart
        simp
  have hright : last ∈ right := by
    rcases List.eq_nil_or_concat' right with rfl | ⟨front, char, rfl⟩
    · obtain ⟨-, hsame⟩ := List.append_inj' hend rfl
      cases hsame
      exact absurd hlast (by decide)
    · rw [← List.cons_append, ← List.append_assoc] at hend
      obtain ⟨-, hsame⟩ := List.append_inj' hend rfl
      cases hsame
      simp
  rw [declaredIn_append, List.length_append]
  have hpositive := List.length_pos_of_ne_nil (declaredIn_ne_nil hleft hfirst)
  have hmore := List.length_pos_of_ne_nil (declaredIn_ne_nil hright hlast)
  omega

end ParameterList

/-! ## Text of the tokens -/

theorem Lexeme.isSolid_of_continuesWord {char : Char} (hword : continuesWord char = true) :
    ParameterList.isSolid char = true := by
  have hcomma : char ≠ ',' := by
    rintro rfl
    exact absurd hword (by decide)
  simp [ParameterList.isSolid, isBlank_of_continuesWord hword, hcomma]

theorem Symbol.all_isSolid_text {sign : Symbol} (hsign : sign ≠ .comma) :
    sign.text.toList.all ParameterList.isSolid = true := by
  cases sign <;> first | exact absurd rfl hsign | rfl

namespace Token

/-- A comma is written with the token: it is the sign, or a string that has one. -/
def writesComma (token : Token) : Bool :=
  token.isSymbol .comma || (token.kind = .string && token.text.toList.contains ',')

/-- The words of the token's source text.  Only a string may have blanks in it. -/
def words (token : Token) : List String :=
  if token.kind = .string then (Text.words token.sourceText.toList).map String.ofList
  else [token.text]

variable {token : Token} {lexeme : List Char}

theorem sourceText_of_kind_ne (hkind : token.kind ≠ .string) : token.sourceText = token.text := by
  unfold sourceText
  split
  case h_1 hstring => exact absurd hstring hkind
  case h_2 => rfl

theorem toList_sourceText_of_kind_eq (hkind : token.kind = .string) :
    token.sourceText.toList = '"' :: (token.text.toList.flatMap requotedChar ++ ['"']) := by
  rw [sourceText, hkind]
  exact String.toList_ofList

/-- Apart from strings and the comma itself, what is written is neither a blank nor a comma. -/
theorem isSolid_of_writtenAs (hlexeme : token.spelling.WrittenAs lexeme)
    (hkind : token.kind ≠ .string) (hcomma : token.isSymbol .comma = false) {char : Char}
    (hmem : char ∈ token.text.toList) : ParameterList.isSolid char = true := by
  obtain ⟨kind, text, line⟩ := token
  simp only [spelling] at hlexeme
  cases hlexeme with
  | identifier hword | keyword hword =>
      exact Lexeme.isSolid_of_continuesWord
        (List.all_eq_true.mp (Lexeme.all_of_isWord hword) char hmem)
  | number hnumeral =>
      rcases hnumeral.continuesWord_or hmem with hword | hsign
      · exact Lexeme.isSolid_of_continuesWord hword
      · have hsolid : ['.', '+', '-'].all ParameterList.isSolid = true := rfl
        exact List.all_eq_true.mp hsolid char hsign
  | symbol sign =>
      have hsign : sign ≠ .comma := by simpa [isSymbol] using hcomma
      exact List.all_eq_true.mp (Symbol.all_isSolid_text hsign) char hmem
  | string => exact absurd rfl hkind

/-- The first and the last character that are written are neither blanks nor commas. -/
theorem exists_edges (hlexeme : token.spelling.WrittenAs lexeme)
    (hcomma : token.isSymbol .comma = false) :
    (∃ first more, token.sourceText.toList = first :: more ∧
      ParameterList.isSolid first = true) ∧
    ∃ before last, token.sourceText.toList = before ++ [last] ∧
      ParameterList.isSolid last = true := by
  by_cases hkind : token.kind = .string
  · rw [toList_sourceText_of_kind_eq hkind]
    exact ⟨⟨_, _, rfl, rfl⟩, ⟨_, _, (List.cons_append ..).symm, rfl⟩⟩
  · have hsolid : ∀ char ∈ token.sourceText.toList, ParameterList.isSolid char = true := by
      rw [sourceText_of_kind_ne hkind]
      exact fun char => isSolid_of_writtenAs hlexeme hkind hcomma
    obtain ⟨first, more, htext, -⟩ := Lexeme.writtenAs_first (writtenAs_sourceText hlexeme)
    refine ⟨⟨first, more, htext, hsolid first (by simp [htext])⟩, ?_⟩
    rcases List.eq_nil_or_concat' token.sourceText.toList with hnil | ⟨before, last, hconcat⟩
    · exact absurd (hnil.symm.trans htext) (by simp)
    · exact ⟨before, last, hconcat, hsolid last (by simp [hconcat])⟩

theorem mem_flatMap_requotedChar_iff {value : List Char} :
    ',' ∈ value.flatMap requotedChar ↔ ',' ∈ value := by
  rw [List.mem_flatMap]
  constructor
  · rintro ⟨char, hchar, hmem⟩
    unfold requotedChar at hmem
    split at hmem
    case h_6 =>
      rw [List.mem_singleton.mp hmem]
      exact hchar
    all_goals simp at hmem
  · exact fun hmem => ⟨',', hmem, List.mem_singleton_self _⟩

theorem text_of_isSymbol {sign : Symbol} (hlexeme : token.spelling.WrittenAs lexeme)
    (hsign : token.isSymbol sign = true) : token.text = sign.text := by
  obtain ⟨kind, text, line⟩ := token
  obtain rfl : kind = .symbol sign := by simpa [isSymbol] using hsign
  simp only [spelling] at hlexeme
  cases hlexeme with
  | symbol sign => rfl

theorem comma_mem_sourceText_iff (hlexeme : token.spelling.WrittenAs lexeme) :
    ',' ∈ token.sourceText.toList ↔ token.writesComma = true := by
  by_cases hkind : token.kind = .string
  · rw [toList_sourceText_of_kind_eq hkind, List.mem_cons, List.mem_append,
      mem_flatMap_requotedChar_iff]
    simp [writesComma, isSymbol, hkind]
  · rw [sourceText_of_kind_ne hkind]
    cases hcomma : token.isSymbol .comma with
    | true =>
        rw [text_of_isSymbol hlexeme hcomma, writesComma, hcomma, Bool.true_or]
        exact iff_of_true (List.mem_singleton_self _) rfl
    | false =>
        have hnot : ',' ∉ token.text.toList := by
          intro hmem
          exact absurd (isSolid_of_writtenAs hlexeme hkind hcomma hmem) (by decide)
        simp [writesComma, hcomma, hkind, hnot]

/-- The words of a token are those of its source text. -/
theorem words_eq (hlexeme : token.spelling.WrittenAs lexeme)
    (hcomma : token.isSymbol .comma = false) :
    token.words = (Text.words token.sourceText.toList).map String.ofList := by
  unfold words
  split
  case isTrue => rfl
  case isFalse hkind =>
    have hblank : ∀ char ∈ token.text.toList, Text.isBlank char = false := by
      intro char hmem
      have hsolid := isSolid_of_writtenAs hlexeme hkind hcomma hmem
      exact (Bool.not_eq_true' _).mp (Bool.and_eq_true_iff.mp hsolid).1
    obtain ⟨⟨first, more, htext, -⟩, -⟩ := exists_edges hlexeme hcomma
    rw [sourceText_of_kind_ne hkind] at htext ⊢
    rw [Text.words_of_none hblank (by simp [htext]), List.map_singleton, String.ofList_toList]

theorem words_ne_nil (token : Token) : token.words ≠ [] := by
  unfold words
  split
  case isTrue hkind =>
    rw [toList_sourceText_of_kind_eq hkind, ne_eq, List.map_eq_nil_iff]
    exact Text.words_ne_nil (List.mem_cons_self ..) rfl
  case isFalse => exact List.cons_ne_nil _ _

end Token

/-- The parameter that a group of tokens is meant to declare. -/
def Parameter.ofGroup? (group : List Token) : Option Parameter :=
  ofWords? (group.flatMap Token.words)

theorem Parameter.isSome_ofGroup? (group : List Token) :
    (ofGroup? group).isSome = !group.isEmpty := by
  rw [Bool.eq_iff_iff, ofGroup?, isSome_ofWords?_iff]
  cases group with
  | nil => simp
  | cons token group => simp [Token.words_ne_nil]

namespace Parser

/-- The source texts of some tokens, each behind a space. -/
def spacedText (tokens : List Token) : List Char :=
  tokens.flatMap fun token => ' ' :: token.sourceText.toList

theorem spacedText_cons (token : Token) (tokens : List Token) :
    spacedText (token :: tokens) = ' ' :: (token.sourceText.toList ++ spacedText tokens) :=
  rfl

theorem spacedText_cons_eq_joinedText (token : Token) (tokens : List Token) :
    spacedText (token :: tokens) = ' ' :: (joinedText (token :: tokens)).toList := by
  induction tokens generalizing token with
  | nil => simp [spacedText, joinedText]
  | cons next tokens ih =>
      rw [spacedText_cons, ih]
      simp [joinedText, String.toList_intercalate]

/-- The parameters that the text of some tokens declares. -/
def declared (tokens : List Token) : List Parameter :=
  (ParameterList.raw (joinedText tokens)).parameters

theorem declared_eq (tokens : List Token) :
    declared tokens = ParameterList.declaredIn (spacedText tokens) := by
  cases tokens with
  | nil => rfl
  | cons token tokens =>
      rw [spacedText_cons_eq_joinedText, ParameterList.declaredIn_space_cons]
      rfl

/-- The two sides of a comma declare parameters of their own. -/
theorem declared_append {left right : List Token} {comma : Token} {lexeme : List Char}
    (hlexeme : comma.spelling.WrittenAs lexeme) (hcomma : comma.isSymbol .comma = true) :
    declared (left ++ comma :: right) = declared left ++ declared right := by
  have htext : comma.sourceText = "," := by
    have hkind : comma.kind = .symbol .comma := by simpa [Token.isSymbol] using hcomma
    rw [Token.sourceText_of_kind_ne (by simp [hkind]), Token.text_of_isSymbol hlexeme hcomma]
    rfl
  have hspaced : spacedText (left ++ comma :: right) =
      (spacedText left ++ [' ']) ++ ',' :: spacedText right := by
    simp [spacedText, htext]
  rw [declared_eq, hspaced, ParameterList.declaredIn_append, ParameterList.declaredIn_concat_space,
    declared_eq, declared_eq]

theorem words_append_spacedText (text : List Char) (tokens : List Token) :
    Text.words (text ++ spacedText tokens) =
      Text.words text ++ tokens.flatMap fun token => Text.words token.sourceText.toList := by
  induction tokens generalizing text with
  | nil => simp [spacedText]
  | cons token tokens ih =>
      rw [spacedText_cons, Text.words_append (by decide), ih, List.flatMap_cons]

theorem words_spacedText {tokens : List Token}
    (htokens : ∀ token ∈ tokens, ∃ lexeme, token.spelling.WrittenAs lexeme)
    (hcommas : ∀ token ∈ tokens, token.writesComma = false) :
    (Text.words (spacedText tokens)).map String.ofList = tokens.flatMap Token.words := by
  rw [← List.nil_append (spacedText tokens), words_append_spacedText, List.map_append,
    List.map_flatMap]
  refine List.flatMap_congr fun token htoken => ?_
  obtain ⟨lexeme, hlexeme⟩ := htokens token htoken
  exact (Token.words_eq hlexeme (Bool.or_eq_false_iff.mp (hcommas token htoken)).1).symm

theorem comma_mem_spacedText_iff {tokens : List Token}
    (htokens : ∀ token ∈ tokens, ∃ lexeme, token.spelling.WrittenAs lexeme) :
    ',' ∈ spacedText tokens ↔ ∃ token ∈ tokens, token.writesComma = true := by
  rw [spacedText, List.mem_flatMap]
  refine exists_congr fun token => and_congr_right fun htoken => ?_
  obtain ⟨lexeme, hlexeme⟩ := htokens token htoken
  rw [List.mem_cons, Token.comma_mem_sourceText_iff hlexeme]
  exact or_iff_right (by decide)

/-! ## Groups -/

/-- How many parentheses are open after the token. -/
def depthAfter (depth : Nat) (token : Token) : Nat :=
  if token.isSymbol .openParen then depth + 1
  else if token.isSymbol .closeParen then depth - 1
  else depth

/-- The groups of tokens between the commas at which no parenthesis is open, of which there are
`depth` at the start. -/
def groupsFrom : (depth : Nat) → List Token → List (List Token)
  | _, [] => [[]]
  | depth, token :: rest =>
    if depth = 0 ∧ token.isSymbol .comma = true then [] :: groupsFrom depth rest
    else (groupsFrom (depthAfter depth token) rest).modifyHead (token :: ·)

/-- The groups of tokens between the commas outside of any parentheses. -/
def topGroups (tokens : List Token) : List (List Token) := groupsFrom 0 tokens

theorem modifyHead_nil_append (groups : List (List Token)) :
    groups.modifyHead ([] ++ ·) = groups :=
  congrFun List.modifyHead_id groups

theorem groupsFrom_cons {depth : Nat} {token : Token}
    (hstays : depth ≠ 0 ∨ token.isSymbol .comma = false) (rest : List Token) :
    groupsFrom depth (token :: rest) =
      (groupsFrom (depthAfter depth token) rest).modifyHead (token :: ·) := by
  rw [groupsFrom, if_neg]
  rintro ⟨hdepth, hcomma⟩
  simp_all

section

variable {opening closing : Token} {inside : List Token}

/-- An inner pair of parentheses goes into a group whole if what is between them does. -/
theorem groupsFrom_nested (hopening : opening.isSymbol .openParen = true)
    (hclosing : closing.isSymbol .closeParen = true)
    (hinside : ∀ depth rest, groupsFrom (depth + 1) (inside ++ rest) =
      (groupsFrom (depth + 1) rest).modifyHead (inside ++ ·))
    (depth : Nat) (rest : List Token) :
    groupsFrom depth (opening :: (inside ++ closing :: rest)) =
      (groupsFrom depth rest).modifyHead fun group => opening :: (inside ++ closing :: group) := by
  have hdeeper : depthAfter depth opening = depth + 1 := if_pos hopening
  have hback : depthAfter (depth + 1) closing = depth := by
    simp [depthAfter, isSymbol_openParen_of_closeParen hclosing, hclosing]
  have hcomma : opening.isSymbol .comma = false := by simp_all [Token.isSymbol]
  rw [groupsFrom_cons (.inr hcomma), hdeeper, hinside, groupsFrom_cons (.inl (by simp)), hback,
    List.modifyHead_modifyHead, List.modifyHead_modifyHead]
  rfl

/-- Balanced tokens in parentheses are in one group. -/
theorem Balanced.groupsFrom_append (hinside : Balanced inside) (depth : Nat) (rest : List Token) :
    groupsFrom (depth + 1) (inside ++ rest) =
      (groupsFrom (depth + 1) rest).modifyHead (inside ++ ·) := by
  induction hinside generalizing depth rest with
  | nil => rw [List.nil_append, modifyHead_nil_append]
  | @token token more hopen hclose hmore ih =>
      have hdepth : depthAfter (depth + 1) token = depth + 1 := by
        simp [depthAfter, hopen, hclose]
      rw [List.cons_append, groupsFrom_cons (.inl (by simp)), hdepth, ih,
        List.modifyHead_modifyHead]
      rfl
  | nested hopening hinside hclosing hmore ihInside ih =>
      rw [List.cons_append, List.append_assoc, List.cons_append,
        groupsFrom_nested hopening hclosing ihInside, ih, List.modifyHead_modifyHead]
      congr 1
      funext group
      simp

end

/-- Balanced tokens whose commas are in inner parentheses. -/
inductive IsGroup : List Token → Prop
  | nil : IsGroup []
  | token {token : Token} {rest : List Token} (hopen : token.isSymbol .openParen = false)
      (hclose : token.isSymbol .closeParen = false) (hcomma : token.isSymbol .comma = false)
      (hrest : IsGroup rest) : IsGroup (token :: rest)
  | nested {opening closing : Token} {inside rest : List Token}
      (hopening : opening.isSymbol .openParen = true) (hinside : Balanced inside)
      (hclosing : closing.isSymbol .closeParen = true) (hrest : IsGroup rest) :
      IsGroup (opening :: (inside ++ closing :: rest))

theorem forall_mem_modifyHead {property : List Token → Prop} {groups : List (List Token)}
    {change : List Token → List Token} (hgroups : ∀ group ∈ groups, property group)
    (hchange : ∀ group, property group → property (change group)) :
    ∀ group ∈ groups.modifyHead change, property group := by
  cases groups with
  | nil => simp
  | cons first groups => simp_all

theorem Balanced.isGroup_of_mem {tokens : List Token} (htokens : Balanced tokens) :
    ∀ group ∈ topGroups tokens, IsGroup group := by
  unfold topGroups
  induction htokens with
  | nil => simpa [groupsFrom] using IsGroup.nil
  | @token token rest hopen hclose hrest ih =>
      cases hcomma : token.isSymbol .comma with
      | true =>
          rw [groupsFrom, if_pos ⟨rfl, hcomma⟩]
          simpa [IsGroup.nil] using ih
      | false =>
          have hdepth : depthAfter 0 token = 0 := by simp [depthAfter, hopen, hclose]
          rw [groupsFrom_cons (.inr hcomma), hdepth]
          exact forall_mem_modifyHead ih fun group => .token hopen hclose hcomma
  | nested hopening hinside hclosing hrest ihInside ih =>
      rw [groupsFrom_nested hopening hclosing hinside.groupsFrom_append]
      exact forall_mem_modifyHead ih fun group => .nested hopening hinside hclosing

theorem subset_of_mem_groupsFrom {depth : Nat} {tokens : List Token} :
    ∀ group ∈ groupsFrom depth tokens, group ⊆ tokens := by
  induction tokens generalizing depth with
  | nil => simp [groupsFrom]
  | cons token rest ih =>
      have hlonger : ∀ depth, ∀ group ∈ groupsFrom depth rest, group ⊆ token :: rest :=
        fun depth group hgroup => List.subset_cons_of_subset token (ih group hgroup)
      rw [groupsFrom]
      split
      · simpa using hlonger depth
      · exact forall_mem_modifyHead (hlonger _) fun group hgroup =>
          List.cons_subset.mpr ⟨List.mem_cons_self .., hgroup⟩

/-- A group starts and ends with something other than a comma. -/
theorem IsGroup.exists_edges {group : List Token} (hgroup : IsGroup group) (hne : group ≠ []) :
    (∃ first more, group = first :: more ∧ first.isSymbol .comma = false) ∧
      ∃ before last, group = before ++ [last] ∧ last.isSymbol .comma = false := by
  constructor
  · cases hgroup with
    | nil => exact absurd rfl hne
    | token hopen hclose hcomma hrest => exact ⟨_, _, rfl, hcomma⟩
    | nested hopening hinside hclosing hrest =>
        exact ⟨_, _, rfl, by simp_all [Token.isSymbol]⟩
  · induction hgroup with
    | nil => exact absurd rfl hne
    | @token token rest hopen hclose hcomma hrest ih =>
        by_cases hmore : rest = []
        · exact ⟨[], token, by simp [hmore], hcomma⟩
        · obtain ⟨before, last, rfl, hlast⟩ := ih hmore
          exact ⟨token :: before, last, rfl, hlast⟩
    | @nested opening closing inside rest hopening hinside hclosing hrest ih =>
        by_cases hmore : rest = []
        · exact ⟨opening :: inside, closing, by simp [hmore], by simp_all [Token.isSymbol]⟩
        · obtain ⟨before, last, rfl, hlast⟩ := ih hmore
          exact ⟨opening :: (inside ++ closing :: before), last, by simp, hlast⟩

/-! ## Parameters of the groups -/

/-- Each group declares parameters of its own. -/
theorem declared_append_eq_flatMap {tokens : List Token}
    (htokens : ∀ token ∈ tokens, ∃ lexeme, token.spelling.WrittenAs lexeme) (depth : Nat)
    (before : List Token) :
    declared (before ++ tokens) =
      ((groupsFrom depth tokens).modifyHead (before ++ ·)).flatMap declared := by
  -- The tokens of the group so far are in `before`.
  induction tokens generalizing depth before with
  | nil => simp [groupsFrom]
  | cons token rest ih =>
      have hrest := ih fun other hother => htokens other (by simp [hother])
      rw [groupsFrom]
      split
      case isTrue hcut =>
        obtain ⟨lexeme, hlexeme⟩ := htokens token (by simp)
        have hnext : declared rest = (groupsFrom depth rest).flatMap declared := by
          rw [← List.nil_append rest, hrest depth, modifyHead_nil_append, List.nil_append]
        rw [declared_append hlexeme hcut.2, hnext, List.modifyHead_cons, List.flatMap_cons,
          List.append_nil]
      case isFalse =>
        rw [List.append_cons, hrest (depthAfter depth token), List.modifyHead_modifyHead]
        congr 2
        funext group
        simp

theorem declared_eq_flatMap {tokens : List Token}
    (htokens : ∀ token ∈ tokens, ∃ lexeme, token.spelling.WrittenAs lexeme) :
    declared tokens = (topGroups tokens).flatMap declared := by
  rw [← List.nil_append tokens, declared_append_eq_flatMap htokens 0, modifyHead_nil_append,
    List.nil_append, topGroups]

/-- What a group declares: the parameter it is meant to, unless a comma is written in it. -/
structure Declares (group : List Token) : Prop where
  one : (∀ token ∈ group, token.writesComma = false) →
    declared group = (Parameter.ofGroup? group).toList
  more : (∃ token ∈ group, token.writesComma = true) → 2 ≤ (declared group).length

theorem IsGroup.declares {group : List Token} (hgroup : IsGroup group)
    (htokens : ∀ token ∈ group, ∃ lexeme, token.spelling.WrittenAs lexeme) : Declares group where
  one hcommas := by
    have hcomma : ',' ∉ spacedText group := by
      simpa [comma_mem_spacedText_iff htokens] using hcommas
    rw [declared_eq, ParameterList.declaredIn_of_not_mem hcomma, Parameter.ofFragment?_eq,
      words_spacedText htokens hcommas, Parameter.ofGroup?]
  more hcommas := by
    have hne : group ≠ [] := by
      rintro rfl
      simp at hcommas
    obtain ⟨⟨first, more, hfirst, hfirstComma⟩, before, last, hlast, hlastComma⟩ :=
      hgroup.exists_edges hne
    have hcomma := (comma_mem_spacedText_iff htokens).mpr hcommas
    obtain ⟨_, hfirstLexeme⟩ := htokens first (by simp [hfirst])
    obtain ⟨_, hlastLexeme⟩ := htokens last (by simp [hlast])
    obtain ⟨⟨start, behind, hstart, hstartSolid⟩, -⟩ :=
      Token.exists_edges hfirstLexeme hfirstComma
    obtain ⟨-, front, stop, hstop, hstopSolid⟩ := Token.exists_edges hlastLexeme hlastComma
    have hstartText : spacedText group = ' ' :: start :: (behind ++ spacedText more) := by
      rw [hfirst, spacedText_cons, hstart, List.cons_append]
    have hstopText : spacedText group = (spacedText before ++ ' ' :: front) ++ [stop] := by
      simp [hlast, spacedText, hstop]
    rw [declared_eq]
    exact ParameterList.two_le_length_declaredIn hcomma hstartText hstartSolid hstopText hstopSolid

/-- No comma is written in any of the groups. -/
def NoCommas (groups : List (List Token)) : Prop :=
  ∀ group ∈ groups, ∀ token ∈ group, token.writesComma = false

theorem noCommas_cons_iff {group : List Token} {groups : List (List Token)} :
    NoCommas (group :: groups) ↔
      (∀ token ∈ group, token.writesComma = false) ∧ NoCommas groups :=
  List.forall_mem_cons

/-- Groups declare at least one parameter for each that is not empty, and no more exactly when no
comma is written in them. -/
theorem length_flatMap_declared {groups : List (List Token)}
    (hgroups : ∀ group ∈ groups, Declares group) :
    groups.countP (!·.isEmpty) ≤ (groups.flatMap declared).length ∧
      ((groups.flatMap declared).length = groups.countP (!·.isEmpty) ↔ NoCommas groups) := by
  induction groups with
  | nil => simp [NoCommas]
  | cons group groups ih =>
      obtain ⟨hle, hiff⟩ := ih fun other hother => hgroups other (by simp [hother])
      have hdeclares := hgroups group (by simp)
      rw [List.flatMap_cons, List.length_append, List.countP_cons, noCommas_cons_iff, ← hiff]
      by_cases hcommas : ∀ token ∈ group, token.writesComma = false
      · have hlength : (declared group).length = if !group.isEmpty then 1 else 0 := by
          rw [hdeclares.one hcommas, ← Parameter.isSome_ofGroup?]
          cases Parameter.ofGroup? group <;> rfl
        constructor
        · omega
        · rw [iff_true_intro hcommas, true_and]
          omega
      · have hlength : 2 ≤ (declared group).length := hdeclares.more (by simpa using hcommas)
        have hone : (if !group.isEmpty then 1 else 0) ≤ 1 := by
          split <;> omega
        constructor
        · omega
        · rw [iff_false_intro hcommas, false_and, iff_false]
          omega

theorem flatMap_declared_eq_iff {groups : List (List Token)}
    (hgroups : ∀ group ∈ groups, Declares group) :
    groups.flatMap declared = groups.filterMap Parameter.ofGroup? ↔ NoCommas groups := by
  constructor
  · intro hequal
    rw [← (length_flatMap_declared hgroups).2, hequal, List.length_filterMap_eq_countP,
      funext Parameter.isSome_ofGroup?]
  · intro hcommas
    rw [List.filterMap_eq_flatMap_toList]
    exact List.flatMap_congr fun group hgroup => (hgroups group hgroup).one (hcommas group hgroup)

/-- What a list in parentheses declares is what its groups declare, one after the other.  That is
one parameter for each group that is not empty exactly when no comma is written inside a group.  The
parameter of a group without commas has its written position in the table of functions exactly when
the groups before it have none either. -/
theorem parameters_of_groups {source : String} {tokens : List Token}
    (hscan : Token.scan source = .ok tokens) {cursor after : Cursor}
    (hcursor : cursor.tokens <:+ tokens.dropLast) {name text : String} {fuel : Nat}
    (hlist : parameterList name fuel cursor = .ok (.raw text) after) :
    ∃ inside rest, Encloses cursor inside rest ∧ after = { cursor with tokens := rest } ∧
      (ParameterList.raw text).parameters = (topGroups inside).flatMap declared ∧
      (∀ group ∈ topGroups inside, IsGroup group ∧ Declares group) ∧
      ((ParameterList.raw text).parameters = (topGroups inside).filterMap Parameter.ofGroup? ↔
        NoCommas (topGroups inside)) ∧
      ∀ before group later parameter, topGroups inside = before ++ group :: later →
        NoCommas [group] → Parameter.ofGroup? group = some parameter →
        (∀ declaration isPure, declaration.parameters = .raw text →
          (FunctionInfo.ofDeclaration declaration isPure).parameters[
              (before.flatMap declared).length]? =
            some (parameter.name, .ofType? parameter.type)) ∧
        ((before.flatMap declared).length = before.countP (!·.isEmpty) ↔ NoCommas before) := by
  obtain ⟨inside, rest, hencloses, rfl, hafter⟩ := parameterList_eq_raw_iff.mp hlist
  obtain ⟨-, hlexemes⟩ := Token.exists_writtenAs_of_scan hscan
  have hinside : ∀ token ∈ inside, ∃ lexeme, token.spelling.WrittenAs lexeme :=
    fun token htoken => hlexemes token (hcursor.subset (hencloses.subset htoken))
  have hparameters : (ParameterList.raw (joinedText inside)).parameters =
      (topGroups inside).flatMap declared :=
    declared_eq_flatMap hinside
  have hgroups : ∀ group ∈ topGroups inside, IsGroup group ∧ Declares group := by
    obtain ⟨-, -, -, -, -, hbalanced⟩ := hencloses
    intro group hgroup
    have hisGroup := hbalanced.isGroup_of_mem group hgroup
    refine ⟨hisGroup, hisGroup.declares fun token htoken => ?_⟩
    exact hinside token (subset_of_mem_groupsFrom group hgroup htoken)
  have hdeclares : ∀ group ∈ topGroups inside, Declares group :=
    fun group hgroup => (hgroups group hgroup).2
  refine ⟨inside, rest, hencloses, hafter, hparameters, hgroups, ?_, ?_⟩
  · rw [hparameters]
    exact flatMap_declared_eq_iff hdeclares
  · intro before group later parameter hsplit hcommas hparameter
    rw [hsplit] at hparameters hdeclares
    constructor
    · intro declaration isPure hraw
      have hone := (hdeclares group (by simp)).one (hcommas group (by simp))
      rw [FunctionInfo.ofDeclaration, hraw, hparameters]
      simp [hone, hparameter]
    · have hbefore : ∀ earlier ∈ before, Declares earlier :=
        fun earlier hearlier => hdeclares earlier (by simp [hearlier])
      exact (length_flatMap_declared hbefore).2

/-- The tokens of `(vec(real) a, b)`. -/
def parenthesesInside : List Token :=
  [⟨.symbol .openParen, "(", 1⟩, ⟨.identifier, "vec", 1⟩, ⟨.symbol .openParen, "(", 1⟩,
   ⟨.identifier, "real", 1⟩, ⟨.symbol .closeParen, ")", 1⟩, ⟨.identifier, "a", 1⟩,
   ⟨.symbol .comma, ",", 1⟩, ⟨.identifier, "b", 1⟩, ⟨.symbol .closeParen, ")", 1⟩]

theorem parameters_of_groups_nested :
    Token.scan "(vec(real) a, b)" = .ok (parenthesesInside ++ [.finish 1]) ∧
      ∃ inside, Encloses ⟨parenthesesInside, .finish 1, []⟩ inside [] ∧
        (ParameterList.raw "vec ( real ) a , b").parameters =
          (topGroups inside).flatMap declared ∧
        (∀ group ∈ topGroups inside, IsGroup group ∧ Declares group) ∧
        ((ParameterList.raw "vec ( real ) a , b").parameters =
            (topGroups inside).filterMap Parameter.ofGroup? ↔
          NoCommas (topGroups inside)) := by
  have hscan : Token.scan "(vec(real) a, b)" = .ok (parenthesesInside ++ [.finish 1]) := by cbv
  have hlist : parameterList "f" 0 ⟨parenthesesInside, .finish 1, []⟩ =
      .ok (.raw "vec ( real ) a , b") ⟨[], .finish 1, []⟩ := rfl
  obtain ⟨inside, rest, hencloses, hafter, hparameters, hgroups, hiff, -⟩ :=
    parameters_of_groups hscan (List.suffix_refl _) hlist
  cases hafter
  exact ⟨hscan, inside, hencloses, hparameters, hgroups, hiff⟩

/-- The tokens of `map(k, v) m, n`. -/
def commaInside : List Token :=
  [⟨.identifier, "map", 1⟩, ⟨.symbol .openParen, "(", 1⟩, ⟨.identifier, "k", 1⟩,
   ⟨.symbol .comma, ",", 1⟩, ⟨.identifier, "v", 1⟩, ⟨.symbol .closeParen, ")", 1⟩,
   ⟨.identifier, "m", 1⟩, ⟨.symbol .comma, ",", 1⟩, ⟨.identifier, "n", 1⟩]

/-- A comma in inner parentheses makes two parameters of one, so that `n` is not the second. -/
theorem parameters_of_comma_inside :
    parameterList "f" 0 (.ofTokens (⟨.symbol .openParen, "(", 1⟩ :: commaInside ++
        [⟨.symbol .closeParen, ")", 1⟩])) =
      .ok (.raw "map ( k , v ) m , n") ⟨[], .finish 1, []⟩ ∧
    (topGroups commaInside).filterMap Parameter.ofGroup? =
      [⟨"m", some "map ( k , v )"⟩, ⟨"n", none⟩] ∧
    (ParameterList.raw "map ( k , v ) m , n").parameters =
      [⟨"k", some "map ("⟩, ⟨"m", some "v )"⟩, ⟨"n", none⟩] := by
  refine ⟨rfl, ?_, ?_⟩
  · decide +kernel
  · decide +kernel

end Parser

end Tide
