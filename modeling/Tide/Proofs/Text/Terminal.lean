import Tide.Proofs.Text.Lines
import Tide.Text.Style
import Tide.Text.Terminal

/-!
# What a terminal shows of a line

An escape character in a line can swallow what follows it, even the end of the line and the start of
the next.  A line feed is shown nevertheless where a sequence only waits for its last character.
Then the next line may lose its first character, but never more of it, unless the line feed stands
right behind an escape character.  So lines that leave no escape character behind, and that have no
equals sign at their first two places, are shown as lines without one at their first place.
-/

namespace Tide.Text

theorem utf8EncodeChar_of_lt {char : Char} (hascii : char.toNat < 0x80) :
    String.utf8EncodeChar char = [char.toUInt8] := by
  rw [String.utf8EncodeChar]
  exact if_pos (Nat.le_of_lt_succ hascii)

theorem toNat_toUInt8_of_lt {char : Char} (hascii : char.toNat < 0x80) :
    char.toUInt8.toNat = char.toNat :=
  (UInt32.toNat_toUInt8 char.val).trans (Nat.mod_eq_of_lt (hascii.trans (by decide)))

/-- The bytes of a character with more than one of them are all outside ASCII. -/
theorem toNat_of_mem_utf8EncodeChar {char : Char} {byte : UInt8}
    (hbyte : byte ∈ String.utf8EncodeChar char) :
    byte.toNat = char.toNat ∨ 0x80 ≤ byte.toNat := by
  have hval : char.val.toNat = char.toNat := rfl
  simp only [String.utf8EncodeChar, hval] at hbyte
  split_ifs at hbyte <;>
    simp only [List.mem_cons, List.not_mem_nil, or_false] at hbyte <;>
    grind [UInt8.toNat_ofNat']

/-- The text has no line feed, and every escape character in it is followed by some ASCII character
that is no control. -/
def KeepsToLine (text : List Char) : Prop :=
  '\n' ∉ text ∧ ∀ front back, text = front ++ '\x1b' :: back →
    ∃ char ∈ back, 0x20 ≤ char.toNat ∧ char.toNat < 0x7f

theorem keepsToLine_of_notMem {text : List Char} (hfeed : '\n' ∉ text)
    (hescape : '\x1b' ∉ text) : KeepsToLine text := by
  refine ⟨hfeed, ?_⟩
  rintro front back rfl
  simp at hescape

namespace Terminal

/-- Where the terminal stands after the text. -/
def after : Terminal → List Char → Terminal
  | state, [] => state
  | state, char :: rest => (state.read char).1.after rest

theorem after_append (state : Terminal) (front back : List Char) :
    state.after (front ++ back) = (state.after front).after back := by
  induction front generalizing state with
  | nil => rfl
  | cons char front ih => exact ih _

theorem shown_cons (state : Terminal) (char : Char) (rest : List Char) :
    state.shown (char :: rest) = (state.read char).2 ++ (state.read char).1.shown rest := rfl

theorem shown_append (state : Terminal) (front back : List Char) :
    state.shown (front ++ back) = state.shown front ++ (state.after front).shown back := by
  induction front generalizing state with
  | nil => rfl
  | cons char front ih =>
      rw [List.cons_append, shown_cons, shown_cons, ih, List.append_assoc, after]

/-! ## What one byte can do -/

theorem lineFeed_of_step {state : Terminal} {byte : Nat} (hfeed : (state.step byte).2 = true) :
    byte = 0x0a := by
  cases state <;> simp only [step] at hfeed <;> split_ifs at hfeed <;> simpa using hfeed

/-- Right behind an escape character is where that character leads, and where controls and bytes
outside ASCII stay. -/
theorem escape_of_step {state : Terminal} {byte : Nat} (hescape : (state.step byte).1 = escape) :
    byte = 0x1b ∨ state = escape ∧ (byte < 0x20 ∨ 0x7f ≤ byte) := by
  cases state <;> simp only [step] at hescape <;> split_ifs at hescape <;> grind

theorem readBytes_cons {state : Terminal} (hstate : state ≠ ground) (byte : Nat)
    (rest : List Nat) :
    state.readBytes (byte :: rest) =
      (((state.step byte).1.readBytes rest).1,
        if (state.step byte).2 then '\n' :: ((state.step byte).1.readBytes rest).2
        else ((state.step byte).1.readBytes rest).2) := by
  cases state with
  | ground => exact absurd rfl hstate
  | _ => rfl

theorem readBytes_ground (bytes : List Nat) :
    ground.readBytes bytes = (ground, bytes.flatMap printedStray) := by
  induction bytes with
  | nil => rfl
  | cons byte rest ih => rw [readBytes, ih, List.flatMap_cons]

theorem notMem_readBytes {state : Terminal} {bytes : List Nat} (hbytes : 0x0a ∉ bytes) :
    '\n' ∉ (state.readBytes bytes).2 := by
  induction bytes generalizing state with
  | nil => cases state <;> simp [readBytes]
  | cons byte rest ih =>
      obtain ⟨hbyte, hrest⟩ := List.ne_and_not_mem_of_not_mem_cons hbytes
      by_cases hground : state = ground
      · subst hground
        have hstray : '\n' ∉ printedStray byte := by
          unfold printedStray
          split_ifs <;> simp
        rw [readBytes, List.mem_append, not_or]
        exact ⟨hstray, ih hrest⟩
      · have hfeed : (state.step byte).2 = false :=
          Bool.eq_false_iff.mpr fun hfeed => hbyte (lineFeed_of_step hfeed).symm
        rw [readBytes_cons hground, hfeed]
        exact ih hrest

theorem escape_of_readBytes {state : Terminal} {bytes : List Nat}
    (hescape : (state.readBytes bytes).1 = escape) :
    0x1b ∈ bytes ∨ state = escape ∧ ∀ byte ∈ bytes, byte < 0x20 ∨ 0x7f ≤ byte := by
  induction bytes generalizing state with
  | nil =>
      refine .inr ⟨?_, nofun⟩
      cases state with
      | escape => rfl
      | _ => cases hescape
  | cons byte rest ih =>
      by_cases hground : state = ground
      · rw [hground, readBytes_ground] at hescape
        cases hescape
      · rw [readBytes_cons hground] at hescape
        rcases ih hescape with hmem | ⟨hstep, hrest⟩
        · exact .inl (List.mem_cons_of_mem _ hmem)
        · rcases escape_of_step hstep with rfl | ⟨hstate, hbyte⟩
          · exact .inl List.mem_cons_self
          · exact .inr ⟨hstate, List.forall_mem_cons.mpr ⟨hbyte, hrest⟩⟩

/-! ## What one character can do -/

theorem read_of_ne_ground {state : Terminal} (hstate : state ≠ ground) (char : Char) :
    state.read char = state.readBytes ((String.utf8EncodeChar char).map UInt8.toNat) := by
  cases state with
  | ground => exact absurd rfl hstate
  | _ => rfl

theorem notMem_read (state : Terminal) {char : Char} (hchar : char ≠ '\n') :
    '\n' ∉ (state.read char).2 := by
  by_cases hground : state = ground
  · subst hground
    simp only [read, printed]
    split_ifs <;> simp [Ne.symm hchar]
  · rw [read_of_ne_ground hground]
    apply notMem_readBytes
    intro hmem
    obtain ⟨byte, hbyte, hfeed⟩ := List.mem_map.mp hmem
    rcases toNat_of_mem_utf8EncodeChar hbyte with hcode | hcode
    · exact hchar (Char.toNat_inj.mp (hcode.symm.trans hfeed))
    · omega

theorem escape_of_read {state : Terminal} {char : Char} (hescape : (state.read char).1 = escape) :
    char = '\x1b' ∨ state = escape ∧ (char.toNat < 0x20 ∨ 0x7f ≤ char.toNat) := by
  by_cases hground : state = ground
  · subst hground
    simp only [read] at hescape
    split_ifs at hescape with hchar
    exact .inl hchar
  · rw [read_of_ne_ground hground] at hescape
    rcases escape_of_readBytes hescape with hmem | ⟨hstate, hbytes⟩
    · obtain ⟨byte, hbyte, hcode⟩ := List.mem_map.mp hmem
      rcases toNat_of_mem_utf8EncodeChar hbyte with hchar | hchar
      · exact .inl (Char.toNat_inj.mp (hchar.symm.trans hcode))
      · omega
    · refine .inr ⟨hstate, ?_⟩
      by_cases hascii : char.toNat < 0x80
      · apply hbytes
        rw [utf8EncodeChar_of_lt hascii, List.map_singleton, List.mem_singleton]
        exact (toNat_toUInt8_of_lt hascii).symm
      · omega

theorem notMem_shown (state : Terminal) {text : List Char} (htext : '\n' ∉ text) :
    '\n' ∉ state.shown text := by
  induction text generalizing state with
  | nil => exact htext
  | cons char text ih =>
      obtain ⟨hchar, htext⟩ := List.ne_and_not_mem_of_not_mem_cons htext
      rw [shown_cons, List.mem_append, not_or]
      exact ⟨state.notMem_read hchar.symm, ih _ htext⟩

/-! ## Starting a line -/

/-- Line feeds are shown, and the next letter ends the sequence, if there is one. -/
def isCalm : Terminal → Bool
  | ground | escapeIntermediate | controlSequence => true
  | _ => false

theorem read_lineFeed {state : Terminal} (hstate : state ≠ escape) :
    state.read '\n' = (state, if state.isCalm then ['\n'] else []) := by
  cases state with
  | escape => exact absurd rfl hstate
  | _ => rfl

theorem read_space {state : Terminal} (hcalm : state.isCalm = true) :
    state.read ' ' = (state, if state = ground then [' '] else []) := by
  cases state with
  | ground | escapeIntermediate | controlSequence => rfl
  | _ => cases hcalm

/-- An ASCII character that is no control. -/
def IsPlain (char : Char) : Prop := 0x20 ≤ char.toNat ∧ char.toNat < 0x7f

instance (char : Char) : Decidable (IsPlain char) :=
  inferInstanceAs (Decidable (0x20 ≤ char.toNat ∧ char.toNat < 0x7f))

theorem read_ground_of_isPlain {char : Char} (hplain : IsPlain char) :
    ground.read char = (ground, [char]) := by
  have hescape : char ≠ '\x1b' := by
    rintro rfl
    exact absurd hplain (by decide)
  obtain ⟨hlow, hhigh⟩ := hplain
  simp only [read, if_neg hescape, printed]
  rw [if_neg (by omega), if_neg]
  simp only [Bool.or_eq_true, decide_eq_true_eq, Bool.and_eq_true]
  omega

/-- The characters from `@` on end a sequence. -/
theorem read_of_ends {state : Terminal} (hcalm : state.isCalm = true) {char : Char}
    (hlow : 0x40 ≤ char.toNat) (hhigh : char.toNat < 0x7f) :
    state.read char = (ground, if state = ground then [char] else []) := by
  have hascii : char.toNat < 0x80 := by omega
  cases state with
  | ground => exact read_ground_of_isPlain ⟨by omega, hhigh⟩
  | escapeIntermediate | controlSequence =>
      refine (read_of_ne_ground (by decide) char).trans ?_
      rw [utf8EncodeChar_of_lt hascii, List.map_singleton, toNat_toUInt8_of_lt hascii]
      refine (readBytes_cons (by decide) char.toNat []).trans ?_
      grind [step, readBytes]
  | _ => cases hcalm

/-- At the start of a line, the first thing that the text shows is no equals sign. -/
def Leads (text : List Char) : Prop :=
  ∀ state : Terminal, state.isCalm = true →
    ∃ first rest, state.shown text = first :: rest ∧ first ≠ '='

theorem Leads.append {text : List Char} (hleads : Leads text) (rest : List Char) :
    Leads (text ++ rest) := by
  intro state hcalm
  obtain ⟨first, more, hshown, hfirst⟩ := hleads state hcalm
  rw [shown_append, hshown]
  exact ⟨first, _, rfl, hfirst⟩

theorem Leads.indent {text : List Char} (hleads : Leads text) (count : Nat) :
    Leads (List.replicate count ' ' ++ text) := by
  intro state hcalm
  induction count with
  | zero => exact hleads state hcalm
  | succ count ih =>
      rw [List.replicate_succ, List.cons_append, shown_cons, read_space hcalm]
      by_cases hground : state = ground
      · rw [if_pos hground]
        exact ⟨' ', _, rfl, by decide⟩
      · simpa [hground] using ih

/-- The text starts with a printable ASCII character other than an equals sign. -/
def StartsPlain (text : String) : Prop :=
  ∃ first rest, text.toList = first :: rest ∧ IsPlain first ∧ first ≠ '='

theorem startsPlain_append {text rest : String} (htext : StartsPlain text) :
    StartsPlain (text ++ rest) := by
  obtain ⟨first, more, hlist, hfirst⟩ := htext
  exact ⟨first, more ++ rest.toList, by simp [hlist], hfirst⟩

/-- A sequence that is open takes the first letter, and then the second character is shown. -/
theorem leads_cons_cons {first second : Char} (hlow : 0x40 ≤ first.toNat)
    (hhigh : first.toNat < 0x7f) (hsecond : IsPlain second) (hsign : second ≠ '=')
    (rest : List Char) : Leads (first :: second :: rest) := by
  intro state hcalm
  rw [shown_cons, shown_cons, read_of_ends hcalm hlow hhigh, read_ground_of_isPlain hsecond]
  by_cases hground : state = ground
  · rw [if_pos hground]
    refine ⟨first, _, rfl, ?_⟩
    rintro rfl
    exact absurd hlow (by decide)
  · rw [if_neg hground]
    exact ⟨second, _, rfl, hsign⟩

theorem read_escape (state : Terminal) : state.read '\x1b' = (escape, []) := by
  cases state <;> rfl

theorem leads_opening (style : Style) {first : Char} (hfirst : IsPlain first) (hsign : first ≠ '=')
    (rest : List Char) : Leads (style.opening ++ first :: rest) := by
  intro state _
  have hopening : state.after style.opening = ground ∧ state.shown style.opening = [] := by
    rcases style with ⟨bold, colour⟩
    simp only [Style.opening, List.cons_append, after, shown_cons, read_escape]
    cases bold <;> cases colour <;> exact ⟨rfl, rfl⟩
  rw [shown_append, hopening.1, hopening.2, shown_cons, read_ground_of_isPlain hfirst]
  exact ⟨first, _, rfl, hsign⟩

/-! ## Ending a line -/

/-- The text leaves no escape character behind. -/
def Settles (text : List Char) : Prop := ∀ state : Terminal, state.after text ≠ escape

theorem Settles.append {text : List Char} (hsettles : Settles text) (before : List Char) :
    Settles (before ++ text) := by
  intro state
  rw [after_append]
  exact hsettles _

theorem settles_singleton {char : Char} (hplain : IsPlain char) : Settles [char] := by
  intro state hescape
  rcases escape_of_read hescape with rfl | ⟨-, hchar⟩
  · exact absurd hplain (by decide)
  · obtain ⟨hlow, hhigh⟩ := hplain
    omega

theorem settled_of_notMem {state : Terminal} (hstate : state ≠ escape) {text : List Char}
    (htext : '\x1b' ∉ text) : state.after text ≠ escape := by
  induction text generalizing state with
  | nil => exact hstate
  | cons char text ih =>
      obtain ⟨hchar, htext⟩ := List.ne_and_not_mem_of_not_mem_cons htext
      refine ih (fun hescape => ?_) htext
      rcases escape_of_read hescape with heq | ⟨hbehind, -⟩
      · exact hchar heq.symm
      · exact hstate hbehind

theorem settled_of_keepsToLine {state : Terminal} (hstate : state ≠ escape) {text : List Char}
    (htext : KeepsToLine text) : state.after text ≠ escape := by
  by_cases hescape : '\x1b' ∈ text
  · -- A plain character behind the last escape character settles the text, and none follows it.
    obtain ⟨back, front, hreverse, hfree⟩ :=
      List.eq_append_cons_of_mem (List.mem_reverse.mpr hescape)
    have hlast : text = front.reverse ++ '\x1b' :: back.reverse := by
      rw [← List.reverse_inj, hreverse]
      simp
    obtain ⟨char, hchar, hplain⟩ := htext.2 _ _ hlast
    obtain ⟨before, behind, hback⟩ := List.append_of_mem hchar
    have hbehind : '\x1b' ∉ behind := by
      intro hmem
      refine hfree (List.mem_reverse.mp ?_)
      rw [hback]
      simp [hmem]
    have hparts : text = (front.reverse ++ '\x1b' :: before) ++ [char] ++ behind := by
      simp [hlast, hback]
    rw [hparts, after_append]
    exact settled_of_notMem ((settles_singleton hplain).append _ state) hbehind
  · exact settled_of_notMem hstate hescape

/-! ## Parts of lines -/

/-- The text can stand in a line: it has no line feed, and if no escape character was left behind
before it then none is after it. -/
structure Inline (text : String) : Prop where
  oneLine : OnOneLine text
  settled : ∀ state : Terminal, state ≠ escape → state.after text.toList ≠ escape

/-- Nothing in the text moves the terminal. -/
def Inert (text : String) : Prop := '\n' ∉ text.toList ∧ '\x1b' ∉ text.toList

instance (text : String) : Decidable (Inert text) :=
  inferInstanceAs (Decidable ('\n' ∉ text.toList ∧ '\x1b' ∉ text.toList))

section

variable {first second text : String}

theorem inert_of_isPlain (htext : ∀ char ∈ text.toList, IsPlain char) : Inert text :=
  ⟨fun hmem => absurd (htext _ hmem) (by decide), fun hmem => absurd (htext _ hmem) (by decide)⟩

theorem inline_of_inert (htext : Inert text) : Inline text :=
  ⟨htext.1, fun _ hstate => settled_of_notMem hstate htext.2⟩

theorem inline_of_keepsToLine (htext : KeepsToLine text.toList) : Inline text :=
  ⟨htext.1, fun _ hstate => settled_of_keepsToLine hstate htext⟩

theorem inline_of_settles (honeLine : OnOneLine text) (hsettles : Settles text.toList) :
    Inline text :=
  ⟨honeLine, fun state _ => hsettles state⟩

theorem inline_append (hfirst : Inline first) (hsecond : Inline second) :
    Inline (first ++ second) where
  oneLine := onOneLine_append.mpr ⟨hfirst.oneLine, hsecond.oneLine⟩
  settled state hstate := by
    rw [String.toList_append, after_append]
    exact hsecond.settled _ (hfirst.settled state hstate)

theorem inline_intercalate {separator : String} {texts : List String}
    (hseparator : Inline separator) (htexts : ∀ text ∈ texts, Inline text) :
    Inline (separator.intercalate texts) := by
  induction texts with
  | nil =>
      rw [String.intercalate_nil]
      exact inline_of_inert (by decide)
  | cons text texts ih =>
      obtain ⟨htext, hrest⟩ := List.forall_mem_cons.mp htexts
      cases texts with
      | nil => rwa [String.intercalate_singleton]
      | cons next texts =>
          rw [String.intercalate_cons_cons]
          exact inline_append (inline_append htext hseparator) (ih hrest)

theorem inline_getD {found : Option String} (hfound : ∀ text ∈ found, Inline text)
    {otherwise : String} (hotherwise : Inline otherwise) : Inline (found.getD otherwise) := by
  cases found with
  | none => exact hotherwise
  | some text => exact hfound text rfl

end

/-! ## Whole lines -/

/-- The text can be the text of a line. -/
structure IsLine (text : List Char) : Prop where
  oneLine : '\n' ∉ text
  leads : Leads text
  settles : Settles text

theorem IsLine.indent {text : List Char} (hline : IsLine text) (count : Nat) :
    IsLine (List.replicate count ' ' ++ text) where
  oneLine := by simp [hline.oneLine]
  leads := hline.leads.indent count
  settles := hline.settles.append _

theorem IsLine.append {text : List Char} (hline : IsLine text) {rest : String}
    (hrest : Inline rest) : IsLine (text ++ rest.toList) where
  oneLine := by simpa using ⟨hline.oneLine, hrest.oneLine⟩
  leads := hline.leads.append _
  settles state := by
    rw [after_append]
    exact hrest.settled _ (hline.settles state)

theorem IsLine.inline {text : String} (hline : IsLine text.toList) : Inline text :=
  inline_of_settles hline.oneLine hline.settles

variable {state : Terminal} {fresh : Bool}

/-- What a line shows is unmarked, and behind it the next line can start. -/
theorem IsLine.shown {text : List Char} (hline : IsLine text)
    (hfresh : fresh = true → state.isCalm = true) :
    Unmarked fresh (state.shown (text ++ ['\n'])) ∧
      (startsLine fresh (state.shown (text ++ ['\n'])) = true →
        (state.after (text ++ ['\n'])).isCalm = true) := by
  have hnone := state.notMem_shown hline.oneLine
  have htext : Unmarked fresh (state.shown text) ∧
      startsLine fresh (state.shown text) = false := by
    cases fresh with
    | false => exact ⟨unmarked_of_notMem hnone, startsLine_of_notMem hnone⟩
    | true =>
        obtain ⟨first, rest, hshown, hfirst⟩ := hline.leads state (hfresh rfl)
        rw [hshown] at hnone ⊢
        obtain ⟨hfeed, hrest⟩ := List.ne_and_not_mem_of_not_mem_cons hnone
        rw [Unmarked, startsLine, beq_eq_false_iff_ne.mpr hfeed.symm]
        exact ⟨⟨fun _ => hfirst, unmarked_of_notMem hrest⟩, startsLine_of_notMem hrest⟩
  have hend := read_lineFeed (hline.settles state)
  rw [shown_append, unmarked_append, startsLine_append, after_append, htext.2, shown_cons, after,
    hend]
  refine ⟨⟨htext.1, ?_⟩, ?_⟩
  · cases (state.after text).isCalm <;> simp [Unmarked, Terminal.shown]
  · cases hcalm : (state.after text).isCalm
    · simp [Terminal.shown, startsLine]
    · exact fun _ => hcalm

/-- Lines are shown as lines that do not start with an equals sign, whatever sequences are in
them. -/
theorem unmarked_shown {texts : List (List Char)}
    (htexts : ∀ text ∈ texts, ∃ line, IsLine line ∧ text = line ++ ['\n'])
    (hfresh : fresh = true → state.isCalm = true) :
    Unmarked fresh (state.shown texts.flatten) := by
  induction texts generalizing state fresh with
  | nil => trivial
  | cons text texts ih =>
      obtain ⟨⟨line, hline, rfl⟩, hrest⟩ := List.forall_mem_cons.mp htexts
      obtain ⟨hshown, hafter⟩ := hline.shown hfresh
      rw [List.flatten_cons, shown_append, unmarked_append]
      exact ⟨hshown, ih hrest hafter⟩

end Terminal

end Tide.Text
