import Tide.Proofs.Token.Lexeme

/-!
# Lexemes and gaps

Reading loses nothing: a text is its lexemes and the gaps around them, one after the other, and the
line of a token counts the line feeds before its lexeme, wherever they stand.  A text that cannot be
read is so up to the place that is to blame.
-/

namespace Tide.Token

/-! ## Gaps -/

/-- A comment, without the line feed after it. -/
inductive IsComment : List Char → Prop
  | hash {body : List Char} (hbody : '\n' ∉ body) : IsComment ('#' :: body)
  | slashes {body : List Char} (hbody : '\n' ∉ body) : IsComment ('/' :: '/' :: body)

/-- Blanks and comments, each comment up to a line feed. -/
inductive IsGap : List Char → Prop
  | nil : IsGap []
  | blank {char : Char} {gap : List Char} (hblank : Text.isBlank char = true)
      (hgap : IsGap gap) : IsGap (char :: gap)
  | comment {comment gap : List Char} (hcomment : IsComment comment) (hgap : IsGap gap) :
      IsGap (comment ++ '\n' :: gap)

/-- What stands after the last lexeme: a gap, and perhaps a comment that ends with the text. -/
inductive IsEnding : List Char → Prop
  | gap {gap : List Char} (hgap : IsGap gap) : IsEnding gap
  | comment {gap comment : List Char} (hgap : IsGap gap) (hcomment : IsComment comment) :
      IsEnding (gap ++ comment)

/-! ## Steps of the scan -/

theorem scanFrom_nil (line : Nat) : scanFrom line [] = .ok [finish line] := by
  rw [scanFrom]

theorem scanFrom_blank (line : Nat) {char : Char} (hblank : Text.isBlank char = true)
    (rest : List Char) :
    scanFrom line (char :: rest) = scanFrom (line + Lexeme.lineFeed char) rest := by
  by_cases hline : char = '\n'
  · rw [scanFrom, if_pos hline, Lexeme.lineFeed, if_pos hline]
  · rw [scanFrom, if_neg hline, if_pos hblank, Lexeme.lineFeed, if_neg hline, Nat.add_zero]

theorem ne_lineFeed {char : Char} (hblank : Text.isBlank char = false) : char ≠ '\n' := by
  rintro rfl
  exact absurd hblank (by decide)

/-- The first character is neither blank nor does it start a comment. -/
def startsLexeme (first : Char) (rest : List Char) : Bool :=
  !Text.isBlank first && !startsComment first rest

theorem scanFrom_of_read (line : Nat) {first : Char} {rest : List Char} {lexeme : Lexeme}
    (hstarts : startsLexeme first rest = true) (hread : Lexeme.read first rest = .ok lexeme) :
    scanFrom line (first :: rest) =
      (scanFrom (line + lexeme.lineFeeds) lexeme.rest).map
        (⟨lexeme.kind, String.ofList lexeme.text, line⟩ :: ·) := by
  simp only [startsLexeme, Bool.and_eq_true, Bool.not_eq_true'] at hstarts
  rw [scanFrom, if_neg (ne_lineFeed hstarts.1), hstarts.1, hstarts.2, if_neg Bool.false_ne_true,
    if_neg Bool.false_ne_true]
  split
  case h_1 cause herror => cases hread.symm.trans herror
  case h_2 other hok =>
    cases hread.symm.trans hok
    cases scanFrom (line + lexeme.lineFeeds) lexeme.rest <;> rfl

theorem scanFrom_of_refused (line : Nat) {first : Char} {rest : List Char} {cause : LexCause}
    (hstarts : startsLexeme first rest = true) (hread : Lexeme.read first rest = .error cause) :
    scanFrom line (first :: rest) = .error ⟨line, cause⟩ := by
  simp only [startsLexeme, Bool.and_eq_true, Bool.not_eq_true'] at hstarts
  rw [scanFrom, if_neg (ne_lineFeed hstarts.1), hstarts.1, hstarts.2, if_neg Bool.false_ne_true,
    if_neg Bool.false_ne_true]
  split
  case h_1 other herror =>
    cases hread.symm.trans herror
    rfl
  case h_2 lexeme hok => cases hread.symm.trans hok

theorem dropWhile_comment {body rest : List Char} (hbody : '\n' ∉ body)
    (hrest : rest.head?.all (· == '\n') = true) :
    (body ++ rest).dropWhile (· != '\n') = rest := by
  apply Lexeme.dropWhile_append_of_stop
  · rw [List.all_eq_true]
    intro char hchar
    exact bne_iff_ne.mpr (ne_of_mem_of_not_mem hchar hbody)
  · cases rest with
    | nil => rfl
    | cons next rest => simpa using hrest

/-- The mark of a comment is seen whatever follows the comment. -/
theorem IsComment.exists_cons {comment : List Char} (hcomment : IsComment comment) :
    ∃ first body, comment = first :: body ∧ Text.isBlank first = false ∧ '\n' ∉ body ∧
      ∀ rest, startsComment first (body ++ rest) = true := by
  cases hcomment with
  | hash hbody => exact ⟨'#', _, rfl, by decide, hbody, fun rest => rfl⟩
  | slashes hbody => exact ⟨'/', _, rfl, by decide, by simpa using hbody, fun rest => rfl⟩

theorem scanFrom_comment (line : Nat) {comment rest : List Char} (hcomment : IsComment comment)
    (hrest : rest.head?.all (· == '\n') = true) :
    scanFrom line (comment ++ rest) = scanFrom line rest := by
  obtain ⟨first, body, rfl, hblank, hbody, hmark⟩ := hcomment.exists_cons
  rw [List.cons_append, scanFrom, if_neg (ne_lineFeed hblank), hblank, if_neg Bool.false_ne_true,
    if_pos (hmark rest), dropWhile_comment hbody hrest]

theorem IsComment.count_lineFeed {comment : List Char} (hcomment : IsComment comment) :
    comment.count '\n' = 0 := by
  cases hcomment with
  | hash hbody | slashes hbody => simpa using List.count_eq_zero.mpr hbody

/-- A gap is passed, and only its line feeds count. -/
theorem IsGap.scanFrom_append {gap : List Char} (hgap : IsGap gap) (line : Nat)
    (rest : List Char) :
    scanFrom line (gap ++ rest) = scanFrom (line + gap.count '\n') rest := by
  induction hgap generalizing line with
  | nil => rfl
  | @blank char gap hblank hgap ih =>
      rw [List.cons_append, scanFrom_blank line hblank, ih, Lexeme.count_lineFeed_cons,
        Nat.add_assoc]
  | @comment comment gap hcomment hgap ih =>
      rw [List.append_assoc, List.cons_append, scanFrom_comment line hcomment rfl,
        scanFrom_blank line (by decide), ih, List.count_append, Lexeme.count_lineFeed_cons,
        hcomment.count_lineFeed, Nat.zero_add, Nat.add_assoc]

/-- A comment goes to the end of the text or up to a line feed. -/
theorem isComment_or_exists_lineFeed {first : Char} {rest : List Char}
    (hcomment : startsComment first rest = true) :
    IsComment (first :: rest) ∨ ∃ body more, rest = body ++ '\n' :: more ∧
      IsComment (first :: body) := by
  have hbody : IsComment (first :: rest.takeWhile (· != '\n')) := by
    have hfree : ∀ text : List Char, '\n' ∉ text.takeWhile (· != '\n') := by
      intro text hmem
      simpa using List.mem_takeWhile_imp hmem
    simp only [startsComment, Bool.or_eq_true, Bool.and_eq_true, beq_iff_eq] at hcomment
    rcases hcomment with rfl | ⟨rfl, hslash⟩
    · exact IsComment.hash (hfree rest)
    · obtain ⟨more, rfl⟩ := List.head?_eq_some_iff.mp hslash
      exact IsComment.slashes (hfree more)
  have hsplit : rest.takeWhile (· != '\n') ++ rest.dropWhile (· != '\n') = rest :=
    List.takeWhile_append_dropWhile
  cases hdrop : rest.dropWhile (· != '\n') with
  | nil =>
      rw [hdrop, List.append_nil] at hsplit
      rw [hsplit] at hbody
      exact .inl hbody
  | cons next more =>
      have hnext : next = '\n' := by
        have hhead := List.head?_dropWhile_not (· != '\n') rest
        simpa [hdrop] using hhead
      rw [hdrop, hnext] at hsplit
      exact .inr ⟨_, more, hsplit.symm, hbody⟩

/-- Every text starts with a gap, and behind it stands nothing, a last comment or a lexeme. -/
theorem exists_gap (text : List Char) :
    ∃ gap rest, text = gap ++ rest ∧ IsGap gap ∧
      (rest = [] ∨ IsComment rest ∨
        ∃ first more, rest = first :: more ∧ startsLexeme first more = true) := by
  match text with
  | [] => exact ⟨[], [], rfl, IsGap.nil, .inl rfl⟩
  | first :: rest =>
    by_cases hblank : Text.isBlank first = true
    · obtain ⟨gap, after, rfl, hgap, hafter⟩ := exists_gap rest
      exact ⟨first :: gap, after, rfl, IsGap.blank hblank hgap, hafter⟩
    by_cases hcomment : startsComment first rest = true
    · rcases isComment_or_exists_lineFeed hcomment with hlast | ⟨body, more, rfl, hbody⟩
      · exact ⟨[], first :: rest, rfl, IsGap.nil, .inr (.inl hlast)⟩
      · obtain ⟨gap, after, rfl, hgap, hafter⟩ := exists_gap more
        exact ⟨_, after, by simp, IsGap.comment hbody hgap, hafter⟩
    · refine ⟨[], first :: rest, rfl, IsGap.nil, .inr (.inr ⟨first, rest, rfl, ?_⟩)⟩
      simp [startsLexeme, hblank, hcomment]
termination_by text.length

/-! ## Lexemes -/

theorem startsLexeme_of_continuesWord {first : Char} (hword : Lexeme.continuesWord first = true)
    (rest : List Char) : startsLexeme first rest = true := by
  have hhash : first ≠ '#' := by
    rintro rfl
    exact absurd hword (by decide)
  have hslash : first ≠ '/' := by
    rintro rfl
    exact absurd hword (by decide)
  simp [startsLexeme, startsComment, Lexeme.isBlank_of_continuesWord hword, hhash, hslash]

/-- A lexeme is neither blank nor taken for a comment, unless what follows makes it one. -/
theorem startsLexeme_of_writtenAs {spelling : Spelling} {written : List Char}
    (hwritten : spelling.WrittenAs written) {first : Char} {more : List Char}
    (hcons : written = first :: more) {rest : List Char}
    (hends : spelling.kind.endsBefore rest = true) :
    startsLexeme first (more ++ rest) = true := by
  cases hwritten with
  | identifier hword | keyword hword =>
      have hfirst := List.all_eq_true.mp (Lexeme.all_of_isWord hword) first (by simp [hcons])
      exact startsLexeme_of_continuesWord hfirst _
  | number hnumeral =>
      obtain ⟨_, _, hdigits, hdigit⟩ := hnumeral.exists_cons
      obtain ⟨rfl, rfl⟩ := List.cons.inj (hdigits.symm.trans hcons)
      exact startsLexeme_of_continuesWord (by simp [Lexeme.continuesWord, hdigit]) _
  | symbol sign =>
      -- Of the signs only `/` is the start of a comment, and only before another.
      by_cases hdivide : sign = .divide
      · subst hdivide
        obtain ⟨rfl, rfl⟩ : '/' = first ∧ [] = more := List.cons.inj hcons
        cases rest with
        | nil => rfl
        | cons next rest =>
            have hjoins : (!Symbol.divide.joins next) = true := hends
            have hnext : next ≠ '/' := by
              rintro rfl
              exact absurd hjoins (by decide)
            have hblank : Text.isBlank '/' = false := by decide
            simp [startsLexeme, startsComment, hblank, hnext]
      · cases sign with
        | divide => exact absurd rfl hdivide
        | _ =>
            cases hcons
            rfl
  | string hbody =>
      obtain ⟨rfl, rfl⟩ := List.cons.inj hcons
      rfl

/-- A lexeme gives its token before anything that does not go on with it. -/
theorem scanFrom_append (line : Nat) {spelling : Spelling} {written rest : List Char}
    (hwritten : spelling.WrittenAs written) (hends : spelling.kind.endsBefore rest = true) :
    scanFrom line (written ++ rest) =
      (scanFrom (line + written.count '\n') rest).map
        (⟨spelling.kind, spelling.text, line⟩ :: ·) := by
  obtain ⟨first, more, hcons, -⟩ := Lexeme.writtenAs_first hwritten
  have hstarts := startsLexeme_of_writtenAs hwritten hcons hends
  have hread := Lexeme.read_append hwritten hcons hends
  subst hcons
  rw [List.cons_append, scanFrom_of_read line hstarts hread]
  simp only [String.ofList_toList]

/-! ## Pieces -/

/-- A lexeme with the gap before it, and the token it is read as. -/
structure Piece where
  gap : List Char
  lexeme : List Char
  token : Token

namespace Piece

/-- The text of pieces that stand one after the other. -/
def join (pieces : List Piece) : List Char :=
  pieces.flatMap fun piece => piece.gap ++ piece.lexeme

/-- The piece stands in a text that starts on `line`, after the text `before`. -/
structure IsReadAfter (line : Nat) (before : List Char) (piece : Piece) : Prop where
  gap : IsGap piece.gap
  lexeme : piece.token.spelling.WrittenAs piece.lexeme
  line : piece.token.line = line + (before ++ piece.gap).count '\n'

/-- Each of the pieces of a text that starts on `line` is read after those before it. -/
def AreRead (line : Nat) (pieces : List Piece) : Prop :=
  ∀ before piece after, pieces = before ++ piece :: after →
    piece.IsReadAfter line (join before)

theorem areRead_nil (line : Nat) : AreRead line [] := by
  intro before piece after hpieces
  simp at hpieces

theorem AreRead.cons {line : Nat} {piece : Piece} {pieces : List Piece}
    (hpiece : piece.IsReadAfter line [])
    (hpieces : AreRead (line + (piece.gap ++ piece.lexeme).count '\n') pieces) :
    AreRead line (piece :: pieces) := by
  intro before other after hsplit
  cases before with
  | nil =>
      obtain ⟨rfl, rfl⟩ := List.cons.inj hsplit
      exact hpiece
  | cons first before =>
      obtain ⟨rfl, hrest⟩ := List.cons.inj hsplit
      obtain ⟨hgap, hlexeme, hline⟩ := hpieces before other after hrest
      refine ⟨hgap, hlexeme, ?_⟩
      rw [hline]
      simp only [join, List.flatMap_cons, List.count_append]
      omega

end Piece

/-- The text is pieces and an ending, and read from `line` on it gives these tokens. -/
def IsReadAs (line : Nat) (text : List Char) (tokens : List Token) : Prop :=
  ∃ pieces ending, text = Piece.join pieces ++ ending ∧ Piece.AreRead line pieces ∧
    IsEnding ending ∧
    tokens = pieces.map Piece.token ++ [finish (line + text.count '\n')]

/-- The text is pieces and a gap up to a place where no lexeme starts. -/
def IsRefusedWith (line : Nat) (text : List Char) (error : LexError) : Prop :=
  ∃ pieces gap first rest, text = Piece.join pieces ++ gap ++ first :: rest ∧
    Piece.AreRead line pieces ∧ IsGap gap ∧
    error.line = line + (Piece.join pieces ++ gap).count '\n' ∧ error.cause.Blames first rest

theorem IsReadAs.cons {line : Nat} {gap lexeme rest : List Char} {token : Token}
    {tokens : List Token} (hgap : IsGap gap) (hlexeme : token.spelling.WrittenAs lexeme)
    (hline : token.line = line + gap.count '\n')
    (hrest : IsReadAs (line + (gap ++ lexeme).count '\n') rest tokens) :
    IsReadAs line (gap ++ (lexeme ++ rest)) (token :: tokens) := by
  obtain ⟨pieces, ending, rfl, hpieces, hending, rfl⟩ := hrest
  refine ⟨⟨gap, lexeme, token⟩ :: pieces, ending, ?_, ?_, hending, ?_⟩
  · simp [Piece.join]
  · exact Piece.AreRead.cons ⟨hgap, hlexeme, hline⟩ hpieces
  · simp only [List.map_cons, List.cons_append, List.count_append, finish]
    rw [Nat.add_assoc, Nat.add_assoc]

theorem IsRefusedWith.cons {line : Nat} {gap lexeme rest : List Char} {token : Token}
    {error : LexError} (hgap : IsGap gap) (hlexeme : token.spelling.WrittenAs lexeme)
    (hline : token.line = line + gap.count '\n')
    (hrest : IsRefusedWith (line + (gap ++ lexeme).count '\n') rest error) :
    IsRefusedWith line (gap ++ (lexeme ++ rest)) error := by
  obtain ⟨pieces, last, first, more, rfl, hpieces, hlast, herror, hblames⟩ := hrest
  refine ⟨⟨gap, lexeme, token⟩ :: pieces, last, first, more, ?_, ?_, hlast, ?_, hblames⟩
  · simp [Piece.join]
  · exact Piece.AreRead.cons ⟨hgap, hlexeme, hline⟩ hpieces
  · rw [herror]
    simp only [Piece.join, List.flatMap_cons, List.count_append]
    omega

/-- What reading the text from `line` on may answer. -/
def Accounts (line : Nat) (text : List Char) : Except LexError (List Token) → Prop
  | .ok tokens => IsReadAs line text tokens
  | .error error => IsRefusedWith line text error

theorem Accounts.cons {line : Nat} {gap lexeme rest : List Char} {token : Token}
    {result : Except LexError (List Token)} (hgap : IsGap gap)
    (hlexeme : token.spelling.WrittenAs lexeme) (hline : token.line = line + gap.count '\n')
    (hrest : Accounts (line + (gap ++ lexeme).count '\n') rest result) :
    Accounts line (gap ++ (lexeme ++ rest)) (result.map (token :: ·)) := by
  cases result with
  | ok tokens => exact IsReadAs.cons hgap hlexeme hline hrest
  | error error => exact IsRefusedWith.cons hgap hlexeme hline hrest

theorem accounts_scanFrom (line : Nat) (text : List Char) :
    Accounts line text (scanFrom line text) := by
  obtain ⟨gap, rest, htext, hgap, hrest⟩ := exists_gap text
  rw [htext, hgap.scanFrom_append]
  -- Only behind a lexeme is there more to read, and that text is shorter.
  rcases hrest with rfl | hcomment | ⟨first, more, rfl, hstarts⟩
  · rw [scanFrom_nil, List.append_nil]
    exact ⟨[], gap, rfl, Piece.areRead_nil line, IsEnding.gap hgap, rfl⟩
  · have hscan : scanFrom (line + gap.count '\n') (rest ++ []) = _ :=
      scanFrom_comment _ hcomment rfl
    rw [List.append_nil, scanFrom_nil] at hscan
    rw [hscan]
    refine ⟨[], _, rfl, Piece.areRead_nil line, IsEnding.comment hgap hcomment, ?_⟩
    rw [List.count_append, hcomment.count_lineFeed]
    rfl
  · cases hread : Lexeme.read first more with
    | error cause =>
        rw [scanFrom_of_refused _ hstarts hread]
        exact ⟨[], gap, first, more, rfl, Piece.areRead_nil line, hgap, rfl,
          Lexeme.blames_of_read hread⟩
    | ok lexeme =>
        obtain ⟨written, hwhole, hwritten, hfeeds⟩ := Lexeme.exists_writtenAs_of_read hread
        have hrest := accounts_scanFrom (line + gap.count '\n' + lexeme.lineFeeds) lexeme.rest
        have hlexeme : (Token.spelling ⟨lexeme.kind, String.ofList lexeme.text,
            line + gap.count '\n'⟩).WrittenAs written := hwritten
        rw [scanFrom_of_read _ hstarts hread, hwhole]
        apply Accounts.cons hgap hlexeme rfl
        rwa [List.count_append, ← hfeeds, ← Nat.add_assoc]
termination_by text.length
decreasing_by
  have hshorter := Lexeme.read_rest_le hread
  rw [htext, List.length_append, List.length_cons]
  omega

theorem Piece.AreRead.exists_writtenAs {line : Nat} {pieces : List Piece}
    (hpieces : AreRead line pieces) {token : Token} (htoken : token ∈ pieces.map Piece.token) :
    ∃ lexeme, token.spelling.WrittenAs lexeme := by
  obtain ⟨piece, hpiece, rfl⟩ := List.mem_map.mp htoken
  obtain ⟨before, after, hsplit⟩ := List.append_of_mem hpiece
  exact ⟨piece.lexeme, (hpieces before piece after hsplit).lexeme⟩

/-- The tokens of a source have lexemes, all but the finishing one. -/
theorem exists_writtenAs_of_scan {source : String} {tokens : List Token}
    (hscan : scan source = .ok tokens) :
    tokens = tokens.dropLast ++ [finish (1 + source.toList.count '\n')] ∧
      ∀ token ∈ tokens.dropLast, ∃ lexeme, token.spelling.WrittenAs lexeme := by
  have haccounts := accounts_scanFrom 1 source.toList
  rw [← scan, hscan] at haccounts
  obtain ⟨pieces, ending, htext, hpieces, hending, rfl⟩ := haccounts
  rw [List.dropLast_concat]
  exact ⟨rfl, fun token => hpieces.exists_writtenAs⟩

theorem kind_ne_finish {spelling : Spelling} {lexeme : List Char}
    (hlexeme : spelling.WrittenAs lexeme) : spelling.kind ≠ .finish := by
  cases hlexeme <;> nofun

/-- Reading accounts for every character of a source: its lexemes and gaps make up the text, each
token has the line of its lexeme, and the finishing token comes once and last.  A source that
cannot be read is made up so as far as the place that the error names. -/
theorem scan_accounts_for_source (source : String) :
    match scan source with
    | .ok tokens =>
      IsReadAs 1 source.toList tokens ∧ ∀ token ∈ tokens.dropLast, token.kind ≠ .finish
    | .error error => IsRefusedWith 1 source.toList error := by
  have haccounts : Accounts 1 source.toList (scan source) := accounts_scanFrom 1 source.toList
  cases hscan : scan source with
  | error error =>
      rw [hscan] at haccounts
      exact haccounts
  | ok tokens =>
      rw [hscan] at haccounts
      refine ⟨haccounts, ?_⟩
      intro token htoken
      obtain ⟨lexeme, hlexeme⟩ := (exists_writtenAs_of_scan hscan).2 token htoken
      exact kind_ne_finish hlexeme

end Tide.Token
