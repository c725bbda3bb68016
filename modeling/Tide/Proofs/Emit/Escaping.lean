import Mathlib.Data.List.Forall2
import Tide.Proofs.Metadata.Embedding
import Tide.Proofs.Text.Terminal

/-!
# String literals

A C++ compiler reads a string literal from the left and takes for an octal escape as many octal
digits as there are, up to three.  Where an escape ends can therefore depend on what follows it.
The escapes of `Emit.escape` end where they were meant to whatever follows, so the literal stands
for the bytes of the text and for no others.
-/

namespace Tide.Emit

/-! ## Reading a literal -/

/-- The byte that an escape sequence stands for, from behind its backslash, and the number of its
characters there.  An octal escape takes up to three digits, and its code has to fit a byte. -/
def escapeSequence? (chars : List Char) : Option (UInt8 × Nat) :=
  let digits := ((chars.take 3).map octalDigit?).takeWhile Option.isSome
  if digits = [] then (chars.head?.bind simpleEscape?).map fun char => (char.toUInt8, 1)
  else
    let code := digits.reduceOption.foldl (8 * · + ·) 0
    if code < 256 then some (UInt8.ofNat code, digits.length) else none

example : escapeSequence? ['1', '7', '"'] = some (15, 2) := by decide

/-- The bytes of a string literal from behind its opening quote, and what follows its closing
quote.  A literal ends on the line it begins on. -/
def literalBytes : List Char → Option (List UInt8 × List Char)
  | [] => none
  | char :: rest =>
    if char = '"' then some ([], rest)
    else if char = '\n' then none
    else if char = '\\' then
      (escapeSequence? rest).bind fun read =>
        (literalBytes (rest.drop read.2)).map (.map (read.1 :: ·) id)
    else (literalBytes rest).map (.map (String.utf8EncodeChar char ++ ·) id)
termination_by chars => chars.length
decreasing_by
  · simp only [List.length_drop, List.length_cons]
    omega
  · exact Nat.lt_add_one _

/-- The control characters among the first 128 characters, and the 32 that follow these. -/
def IsControl (char : Char) : Prop :=
  char.toNat < 0x20 ∨ 0x7f ≤ char.toNat ∧ char.toNat < 0xa0

instance (char : Char) : Decidable (IsControl char) :=
  inferInstanceAs (Decidable (_ ∨ _))

/-- One character in a literal: as it is, or as an escape sequence that ends with the piece
whatever follows. -/
inductive Spells : Char → List Char → Prop
  | plain {char : Char} (hquote : char ≠ '"') (hbackslash : char ≠ '\\')
      (hcontrol : IsControl char → 0x80 ≤ char.toNat) : Spells char [char]
  | escape {char : Char} {letters : List Char} {byte : UInt8}
      (hbyte : String.utf8EncodeChar char = [byte])
      (hvisible : ∀ letter ∈ letters, ¬IsControl letter)
      (hends : ∀ rest, escapeSequence? (letters ++ rest) = some (byte, letters.length)) :
      Spells char ('\\' :: letters)

theorem literalBytes_spells {char : Char} {piece : List Char} (hspells : Spells char piece)
    (rest : List Char) :
    literalBytes (piece ++ rest) =
      (literalBytes rest).map (.map (String.utf8EncodeChar char ++ ·) id) := by
  cases hspells with
  | plain hquote hbackslash hcontrol =>
      have hfeed : char ≠ '\n' := by
        rintro rfl
        exact absurd (hcontrol (.inl (by decide))) (by decide)
      rw [List.singleton_append, literalBytes, if_neg hquote, if_neg hfeed, if_neg hbackslash]
  | escape hbyte _ hends =>
      rw [List.cons_append, literalBytes, if_neg (by decide), if_neg (by decide), if_pos rfl, hends,
        Option.bind_some, List.drop_left, hbyte]
      rfl

theorem control_mem_spells {char : Char} {piece : List Char} (hspells : Spells char piece)
    {letter : Char} (hletter : letter ∈ piece) (hcontrol : IsControl letter) :
    letter = char ∧ 0x80 ≤ letter.toNat := by
  cases hspells with
  | plain _ _ hhigh =>
      obtain rfl := List.mem_singleton.mp hletter
      exact ⟨rfl, hhigh hcontrol⟩
  | escape _ hvisible _ =>
      rcases List.mem_cons.mp hletter with rfl | hletter
      · exact absurd hcontrol (by decide)
      · exact absurd hcontrol (hvisible letter hletter)

/-! ## The pieces of an escaped text -/

theorem spells_simple (letter : Char) {char : Char} (hdigit : octalDigit? letter = none)
    (hletter : simpleEscape? letter = some char) (hascii : char.toNat < 0x80)
    (hvisible : ¬IsControl letter) : Spells char ['\\', letter] := by
  refine .escape (Text.utf8EncodeChar_of_lt hascii) (by simpa using hvisible) fun rest => ?_
  simp [escapeSequence?, hdigit, hletter]

theorem digitChar_visible : ∀ digit < 8, ¬IsControl (Nat.digitChar digit) := by
  decide

/-- Three digits are as many as an octal escape can have, so it ends with the last of them also
before another digit. -/
theorem spells_octal {char : Char} (hascii : char.toNat < 0x80) :
    Spells char ['\\', Nat.digitChar (char.toNat / 64), Nat.digitChar (char.toNat / 8 % 8),
      Nat.digitChar (char.toNat % 8)] := by
  have hcode : 8 * (8 * (char.toNat / 64) + char.toNat / 8 % 8) + char.toNat % 8 = char.toNat := by
    omega
  have hhigh : char.toNat / 64 < 8 := by omega
  have hmiddle : char.toNat / 8 % 8 < 8 := by omega
  have hlow : char.toNat % 8 < 8 := by omega
  refine .escape (Text.utf8EncodeChar_of_lt hascii) ?_ fun rest => ?_
  · simp [digitChar_visible _ hhigh, digitChar_visible _ hmiddle, digitChar_visible _ hlow]
  · have hbyte : char.toNat < 256 := by omega
    simp [escapeSequence?, octalDigit?_digitChar _ hhigh, octalDigit?_digitChar _ hmiddle,
      octalDigit?_digitChar _ hlow, List.reduceOption, hcode, hbyte]
    rfl

theorem spells_escapedChar (char : Char) : Spells char (escapedChar char) := by
  unfold escapedChar
  split
  · exact spells_simple '\\' rfl rfl (by decide) (by decide)
  · exact spells_simple '"' rfl rfl (by decide) (by decide)
  · exact spells_simple 'n' rfl rfl (by decide) (by decide)
  · exact spells_simple 't' rfl rfl (by decide) (by decide)
  · exact spells_simple 'r' rfl rfl (by decide) (by decide)
  next hbackslash hquote _ _ _ =>
    dsimp only
    split
    next hcontrol =>
      simp only [Bool.or_eq_true, decide_eq_true_eq] at hcontrol
      exact spells_octal (by omega)
    next hplain =>
      simp only [Bool.or_eq_true, decide_eq_true_eq, not_or] at hplain
      refine .plain hquote hbackslash fun hcontrol => ?_
      unfold IsControl at hcontrol
      omega

/-! ## The literal of a text -/

theorem literalBytes_pieces {chars : List Char} {pieces : List (List Char)}
    (hspells : List.Forall₂ Spells chars pieces) (rest : List Char) :
    literalBytes (pieces.flatten ++ '"' :: rest) =
      some (chars.flatMap String.utf8EncodeChar, rest) := by
  induction hspells with
  | nil => simp [literalBytes]
  | cons hpiece _ ih =>
      rw [List.flatten_cons, List.append_assoc, literalBytes_spells hpiece, ih]
      simp

theorem control_mem_pieces {chars : List Char} {pieces : List (List Char)}
    (hspells : List.Forall₂ Spells chars pieces) {char : Char} (hchar : char ∈ pieces.flatten)
    (hcontrol : IsControl char) : char ∈ chars ∧ 0x80 ≤ char.toNat := by
  induction hspells with
  | nil => simp at hchar
  | cons hpiece _ ih =>
      rw [List.flatten_cons, List.mem_append] at hchar
      rcases hchar with hchar | hchar
      · obtain ⟨rfl, hhigh⟩ := control_mem_spells hpiece hchar hcontrol
        exact ⟨.head _, hhigh⟩
      · obtain ⟨hmem, hhigh⟩ := ih hchar
        exact ⟨.tail _ hmem, hhigh⟩

theorem flatMap_utf8EncodeChar (text : String) :
    text.toList.flatMap String.utf8EncodeChar = text.toByteArray.data.toList := by
  rw [← String.utf8Encode_toList, List.utf8Encode, List.data_toByteArray]

/-- An escaped text is made of one piece for each character, and the only quotes and backslashes in
it are those of escape sequences.  Of the control characters, only those behind the first 128 stand
in it as they are.  Between quotes it is one literal, which stands for the bytes of the text. -/
theorem escape_spells (text : String) :
    (∃ pieces, (escape text).toList = pieces.flatten ∧ List.Forall₂ Spells text.toList pieces) ∧
    (∀ char ∈ (escape text).toList, IsControl char → char ∈ text.toList ∧ 0x80 ≤ char.toNat) ∧
    (∀ rest, literalBytes ((escape text).toList ++ '"' :: rest) =
      some (text.toByteArray.data.toList, rest)) ∧
    literalBytes ((Literal.string text).cppText.toList.drop "std::string(\"".length) =
      some (text.toByteArray.data.toList, [')']) := by
  have hbody : (escape text).toList = (text.toList.map escapedChar).flatten := by
    rw [escape, String.toList_ofList, List.flatMap_def]
  have hspells : List.Forall₂ Spells text.toList (text.toList.map escapedChar) := by
    rw [List.forall₂_map_right_iff]
    exact List.forall₂_same.mpr fun char _ => spells_escapedChar char
  have hread (rest : List Char) : literalBytes ((escape text).toList ++ '"' :: rest) =
      some (text.toByteArray.data.toList, rest) := by
    rw [hbody, literalBytes_pieces hspells, flatMap_utf8EncodeChar]
  refine ⟨⟨_, hbody, hspells⟩, fun char hchar hcontrol => ?_, hread, ?_⟩
  · exact control_mem_pieces hspells (hbody ▸ hchar) hcontrol
  · have hemitted : (Literal.string text).cppText.toList =
        "std::string(\"".toList ++ ((escape text).toList ++ '"' :: [')']) := by
      simp [Literal.cppText]
    rw [hemitted, ← String.length_toList, List.drop_left, hread]

/-- The control character for the next line stays as it is. -/
theorem escape_nextLine : '\u0085' ∈ (escape "\u0085").toList ∧ IsControl '\u0085' :=
  ⟨by decide, .inr (by decide)⟩

end Tide.Emit
