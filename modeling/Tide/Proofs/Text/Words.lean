import Mathlib
import Tide.Text.Blank

/-!
# Pieces and words of a text

A text with a cut in it is cut into the pieces of its two sides.  Blanks at its ends add no words to
any of its pieces.
-/

namespace Tide.Text

variable {isCut : Char → Bool} {char blank : Char}

theorem split_eq_splitOnP (isCut : Char → Bool) (text : List Char) :
    split isCut text = text.splitOnP isCut := by
  induction text with
  | nil => rw [split, List.splitOnP_nil]
  | cons char text ih =>
      rw [split, ih, List.splitOnP_cons_eq_if_modifyHead]
      cases hpieces : List.splitOnP isCut text with
      | nil => exact absurd hpieces (List.splitOnP_ne_nil isCut text)
      | cons piece pieces => rfl

theorem split_append {cut : Char} (hcut : isCut cut = true) (left right : List Char) :
    split isCut (left ++ cut :: right) = split isCut left ++ split isCut right := by
  simp only [split_eq_splitOnP, List.splitOnP_append_cons left right hcut]

/-- A character that is no cut goes into the first piece. -/
theorem exists_split_cons (hchar : isCut char = false) (text : List Char) :
    ∃ piece pieces, split isCut text = piece :: pieces ∧
      split isCut (char :: text) = (char :: piece) :: pieces := by
  cases hpieces : split isCut text with
  | nil =>
      rw [split_eq_splitOnP] at hpieces
      exact absurd hpieces (List.splitOnP_ne_nil isCut text)
  | cons piece pieces =>
      refine ⟨piece, pieces, rfl, ?_⟩
      rw [split, hpieces, if_neg (by simp [hchar])]

theorem exists_mem_split (hchar : isCut char = false) {text : List Char} (hmem : char ∈ text) :
    ∃ piece ∈ split isCut text, char ∈ piece := by
  induction text with
  | nil => simp at hmem
  | cons first text ih =>
      cases hfirst : isCut first with
      | true =>
          have hmem : char ∈ text := by
            apply List.mem_of_ne_of_mem _ hmem
            rintro rfl
            exact absurd (hfirst.symm.trans hchar) (by decide)
          obtain ⟨piece, hpiece, hmem⟩ := ih hmem
          exact ⟨piece, by simp [split, hfirst, hpiece], hmem⟩
      | false =>
          obtain ⟨head, tail, htext, hcons⟩ := exists_split_cons hfirst text
          rw [hcons]
          rcases List.mem_cons.mp hmem with rfl | hmem
          · exact ⟨char :: head, by simp, by simp⟩
          · obtain ⟨piece, hpiece, hmem⟩ := ih hmem
            rw [htext] at hpiece
            rcases List.mem_cons.mp hpiece with rfl | hpiece
            · exact ⟨first :: piece, by simp, by simp [hmem]⟩
            · exact ⟨piece, by simp [hpiece], hmem⟩

theorem isCut_of_mem_split {text piece : List Char} (hpiece : piece ∈ split isCut text)
    (hmem : char ∈ piece) : isCut char = false := by
  induction text generalizing piece with
  | nil =>
      cases List.mem_singleton.mp hpiece
      cases hmem
  | cons first text ih =>
      cases hfirst : isCut first with
      | true =>
          rw [split, if_pos hfirst] at hpiece
          rcases List.mem_cons.mp hpiece with rfl | hpiece
          · cases hmem
          · exact ih hpiece hmem
      | false =>
          obtain ⟨head, tail, htext, hcons⟩ := exists_split_cons hfirst text
          rw [hcons] at hpiece
          rw [htext] at ih
          rcases List.mem_cons.mp hpiece with rfl | hpiece
          · rcases List.mem_cons.mp hmem with rfl | hmem
            · exact hfirst
            · exact ih List.mem_cons_self hmem
          · exact ih (List.mem_cons_of_mem _ hpiece) hmem

/-! ## Words -/

theorem words_append (hblank : isBlank blank = true) (left right : List Char) :
    words (left ++ blank :: right) = words left ++ words right := by
  rw [words, split_append hblank, List.filter_append]
  rfl

theorem words_of_none {text : List Char} (htext : ∀ char ∈ text, isBlank char = false)
    (hne : text ≠ []) : words text = [text] := by
  rw [words, split_eq_splitOnP, List.splitOnP_eq_singleton htext]
  simpa using hne

theorem words_ne_nil {text : List Char} (hmem : char ∈ text) (hchar : isBlank char = false) :
    words text ≠ [] := by
  obtain ⟨word, hword, hmem⟩ := exists_mem_split hchar hmem
  have hne : (!word.isEmpty) = true := by
    simpa using List.ne_nil_of_mem hmem
  exact List.ne_nil_of_mem (List.mem_filter.mpr ⟨hword, hne⟩)

/-- A blank before a text adds no words to its pieces. -/
theorem map_words_split_cons (hblank : isBlank blank = true) (hcut : isCut blank = false)
    (text : List Char) :
    (split isCut (blank :: text)).map words = (split isCut text).map words := by
  obtain ⟨piece, pieces, htext, hcons⟩ := exists_split_cons hcut text
  have hpiece : words (blank :: piece) = words piece := words_append hblank [] piece
  rw [hcons, htext, List.map_cons, List.map_cons, hpiece]

/-- A blank after a text adds no words to its pieces. -/
theorem map_words_split_concat (hblank : isBlank blank = true) (hcut : isCut blank = false)
    (text : List Char) :
    (split isCut (text ++ [blank])).map words = (split isCut text).map words := by
  -- The words of a piece do not tell what they become when a character is put before the piece, so
  -- the induction is on the pieces themselves.
  have hpieces : List.Forall₂ (fun longer piece => longer = piece ∨ longer = piece ++ [blank])
      (split isCut (text ++ [blank])) (split isCut text) := by
    induction text with
    | nil => simp [split, hcut]
    | cons char text ih =>
        cases hchar : isCut char with
        | true =>
            rw [List.cons_append, split, if_pos hchar, split, if_pos hchar]
            exact .cons (.inl rfl) ih
        | false =>
            obtain ⟨longer, rest, hlonger, hconsLonger⟩ :=
              exists_split_cons hchar (text ++ [blank])
            obtain ⟨piece, pieces, htext, hcons⟩ := exists_split_cons hchar text
            rw [hlonger, htext] at ih
            rw [List.cons_append, hconsLonger, hcons]
            obtain ⟨hfirst, hrest⟩ := List.forall₂_cons.mp ih
            refine .cons ?_ hrest
            rcases hfirst with rfl | rfl
            · exact .inl rfl
            · exact .inr rfl
  rw [← List.forall₂_eq_eq_eq, List.forall₂_map_left_iff, List.forall₂_map_right_iff]
  refine hpieces.imp fun longer piece hlonger => ?_
  rcases hlonger with rfl | rfl
  · rfl
  · exact (words_append hblank piece []).trans (List.append_nil _)

end Tide.Text
