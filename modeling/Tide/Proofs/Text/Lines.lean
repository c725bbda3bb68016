import Tide.Proofs.Text.Words

/-!
# Lines of a text

Text that is put together from parts on one line is on one line itself.  In a text of several lines
a mark in front of some of them can be told from all else if no other line starts with it.
-/

namespace Tide.Text

/-! ## One line -/

/-- The text has no line feed. -/
def OnOneLine (text : String) : Prop := '\n' ∉ text.toList

instance (text : String) : Decidable (OnOneLine text) :=
  inferInstanceAs (Decidable ('\n' ∉ text.toList))

section

variable {first second text : String}

@[simp]
theorem onOneLine_append :
    OnOneLine (first ++ second) ↔ OnOneLine first ∧ OnOneLine second := by
  simp only [OnOneLine, String.toList_append, List.mem_append, not_or]

theorem mem_intercalate {char : Char} {separator : List Char} {texts : List (List Char)}
    (hmem : char ∈ separator.intercalate texts) :
    char ∈ separator ∨ ∃ text ∈ texts, char ∈ text := by
  induction texts with
  | nil => simp at hmem
  | cons text texts ih =>
      cases texts with
      | nil => exact .inr ⟨text, by simp, by simpa using hmem⟩
      | cons next texts =>
          rw [List.intercalate_cons_cons, List.mem_append, List.mem_append] at hmem
          rcases hmem with (hmem | hmem) | hmem
          · exact .inr ⟨text, by simp, hmem⟩
          · exact .inl hmem
          · exact (ih hmem).imp_right fun ⟨found, hfound, hmem⟩ =>
              ⟨found, List.mem_cons_of_mem _ hfound, hmem⟩

theorem onOneLine_intercalate {separator : String} {texts : List String}
    (hseparator : OnOneLine separator) (htexts : ∀ text ∈ texts, OnOneLine text) :
    OnOneLine (separator.intercalate texts) := by
  intro hmem
  rw [String.toList_intercalate] at hmem
  rcases mem_intercalate hmem with hmem | ⟨chars, hchars, hmem⟩
  · exact hseparator hmem
  · obtain ⟨text, htext, rfl⟩ := List.mem_map.mp hchars
    exact htexts text htext hmem

theorem onOneLine_of_mem_words {chars word : List Char} (hword : word ∈ words chars) :
    OnOneLine (String.ofList word) := by
  rw [OnOneLine, String.toList_ofList]
  intro hmem
  exact absurd (isCut_of_mem_split (List.mem_of_mem_filter hword) hmem) (by decide)

theorem onOneLine_of_mem {separator : String} {texts : List String}
    (honeLine : OnOneLine (separator.intercalate texts)) {text : String} (htext : text ∈ texts) :
    OnOneLine text := by
  induction texts with
  | nil => cases htext
  | cons first rest ih =>
      cases rest with
      | nil =>
          rw [List.mem_singleton.mp htext]
          rwa [String.intercalate_singleton] at honeLine
      | cons next rest =>
          rw [String.intercalate_cons_cons, onOneLine_append, onOneLine_append] at honeLine
          rcases List.mem_cons.mp htext with rfl | htext
          · exact honeLine.1.1
          · exact ih honeLine.2 htext

theorem onOneLine_getD {text : Option String} (htext : ∀ found ∈ text, OnOneLine found)
    {otherwise : String} (hotherwise : OnOneLine otherwise) :
    OnOneLine (text.getD otherwise) := by
  cases text with
  | none => exact hotherwise
  | some found => exact htext found rfl

end

/-! ## Lines that start with an equals sign -/

/-- Whether a line starts behind the text, where one starts before it if `fresh`. -/
def startsLine (fresh : Bool) : List Char → Bool
  | [] => fresh
  | char :: rest => startsLine (char == '\n') rest

/-- No line of the text starts with an equals sign.  The text itself starts a line if `fresh`. -/
def Unmarked (fresh : Bool) : List Char → Prop
  | [] => True
  | char :: rest => (fresh = true → char ≠ '=') ∧ Unmarked (char == '\n') rest

section

variable {fresh : Bool} {text : List Char}

theorem startsLine_append (front back : List Char) :
    startsLine fresh (front ++ back) = startsLine (startsLine fresh front) back := by
  induction front generalizing fresh with
  | nil => rfl
  | cons char front ih => exact ih

/-- Whether the second text starts a line is decided by the first. -/
theorem unmarked_append (front back : List Char) :
    Unmarked fresh (front ++ back) ↔
      Unmarked fresh front ∧ Unmarked (startsLine fresh front) back := by
  induction front generalizing fresh with
  | nil => simp [Unmarked, startsLine]
  | cons char front ih =>
      rw [List.cons_append, Unmarked, Unmarked, ih, and_assoc]
      rfl

theorem startsLine_of_notMem (htext : '\n' ∉ text) : startsLine false text = false := by
  induction text with
  | nil => rfl
  | cons char text ih =>
      obtain ⟨hchar, htext⟩ := List.ne_and_not_mem_of_not_mem_cons htext
      rw [startsLine, beq_eq_false_iff_ne.mpr (Ne.symm hchar)]
      exact ih htext

theorem unmarked_of_notMem (htext : '\n' ∉ text) : Unmarked false text := by
  induction text with
  | nil => trivial
  | cons char text ih =>
      obtain ⟨hchar, htext⟩ := List.ne_and_not_mem_of_not_mem_cons htext
      rw [Unmarked, beq_eq_false_iff_ne.mpr (Ne.symm hchar)]
      exact ⟨nofun, ih htext⟩

/-- The pieces of an unmarked text between line feeds are its lines. -/
theorem head?_ne_of_unmarked (htext : Unmarked fresh text) :
    ∃ line lines, split (· == '\n') text = line :: lines ∧
      (fresh = true → line.head? ≠ some '=') ∧ ∀ later ∈ lines, later.head? ≠ some '=' := by
  induction text generalizing fresh with
  | nil => exact ⟨[], [], rfl, nofun, nofun⟩
  | cons char text ih =>
      obtain ⟨hchar, htext⟩ := htext
      obtain ⟨line, lines, hsplit, hline, hlines⟩ := ih htext
      by_cases hfeed : char = '\n'
      · subst hfeed
        refine ⟨[], line :: lines, ?_, nofun, ?_⟩
        · rw [split, if_pos (beq_self_eq_true _), hsplit]
        · exact List.forall_mem_cons.mpr ⟨hline rfl, hlines⟩
      · refine ⟨char :: line, lines, ?_, fun hfresh => ?_, hlines⟩
        · rw [split, if_neg (by simpa using hfeed), hsplit]
        · simpa using hchar hfresh

end

/-! ## Whole lines -/

/-- No line of the text starts with an equals sign. -/
structure IsClear (text : String) : Prop where
  unmarked : Unmarked true text.toList

/-- Whole lines, none of which starts with an equals sign. -/
structure ClearLines (text : String) : Prop extends IsClear text where
  ended : startsLine true text.toList = true

theorem clearLines_empty : ClearLines "" := ⟨⟨trivial⟩, rfl⟩

theorem ClearLines.append {first second : String} (hfirst : ClearLines first)
    (hsecond : ClearLines second) : ClearLines (first ++ second) where
  unmarked := by
    rw [String.toList_append, unmarked_append, hfirst.ended]
    exact ⟨hfirst.unmarked, hsecond.unmarked⟩
  ended := by
    rw [String.toList_append, startsLine_append, hfirst.ended]
    exact hsecond.ended

theorem clearLines_join {texts : List String} (htexts : ∀ text ∈ texts, ClearLines text) :
    ClearLines (String.join texts) := by
  induction texts with
  | nil => exact clearLines_empty
  | cons first rest ih =>
      obtain ⟨hfirst, hrest⟩ := List.forall_mem_cons.mp htexts
      rw [String.join_cons]
      exact hfirst.append (ih hrest)

/-- A line is clear if it does not start with an equals sign. -/
theorem clearLines_line {text : String} (honeLine : OnOneLine text)
    (hhead : text.toList.head? ≠ some '=') : ClearLines (text ++ "\n") := by
  have hfeed : "\n".toList = ['\n'] := rfl
  have htext : Unmarked true text.toList := by
    rw [OnOneLine] at honeLine
    cases hlist : text.toList with
    | nil => trivial
    | cons first rest =>
        rw [hlist] at honeLine hhead
        obtain ⟨hfirst, hrest⟩ := List.ne_and_not_mem_of_not_mem_cons honeLine
        rw [Unmarked, beq_eq_false_iff_ne.mpr hfirst.symm]
        exact ⟨fun _ => by simpa using hhead, unmarked_of_notMem hrest⟩
  refine ⟨⟨?_⟩, ?_⟩
  · rw [String.toList_append, unmarked_append, hfeed]
    exact ⟨htext, fun _ => by decide, trivial⟩
  · rw [String.toList_append, startsLine_append, hfeed]
    rfl

theorem clearLines_feed : ClearLines "\n" :=
  clearLines_line (by decide : OnOneLine "") (by decide)

theorem clearLines_intercalate {texts : List String} (htexts : ∀ text ∈ texts, ClearLines text) :
    ClearLines ("\n".intercalate texts) := by
  induction texts with
  | nil => exact clearLines_empty
  | cons first rest ih =>
      obtain ⟨hfirst, hrest⟩ := List.forall_mem_cons.mp htexts
      cases rest with
      | nil => rwa [String.intercalate_singleton]
      | cons next rest =>
          rw [String.intercalate_cons_cons]
          exact (hfirst.append clearLines_feed).append (ih hrest)

end Tide.Text
