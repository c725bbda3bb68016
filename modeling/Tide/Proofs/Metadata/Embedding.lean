import Tide.Proofs.Metadata.Entries

/-!
# The metadata in the output

The metadata stands twice in the output: as JSON in a comment, and as the same JSON once more
escaped in a string literal.  Both can be read back, whatever the user put into it: the comment
holds the JSON as it is, the literal stands for it, and the JSON stands for the entries.
-/

namespace Tide

/-! ## String literals -/

namespace Emit

/-- What a backslash and this character stand for. -/
def simpleEscape? : Char → Option Char
  | '\'' => some '\''
  | '"' => some '"'
  | '?' => some '?'
  | '\\' => some '\\'
  | 'a' => some '\x07'
  | 'b' => some '\x08'
  | 'f' => some '\x0c'
  | 'n' => some '\n'
  | 'r' => some '\r'
  | 't' => some '\t'
  | 'v' => some '\x0b'
  | _ => none

def octalDigit? (char : Char) : Option Nat :=
  if '0' ≤ char ∧ char ≤ '7' then some (char.toNat - '0'.toNat) else none

/-- How far the reading of a character of a literal has come. -/
inductive LiteralState where
  | plain
  /-- Behind a backslash. -/
  | escaped
  /-- Behind some digits of an octal escape with the value `code`, before `left` others and the
  last one. -/
  | octal (left code : Nat)

/-- The text of a string literal from behind its opening quote, and what follows its closing quote.
Octal escapes have three digits. -/
def literalBody : LiteralState → List Char → Option (List Char × List Char)
  | _, [] => none
  | .plain, char :: rest =>
    if char = '"' then some ([], rest)
    else if char = '\\' then literalBody .escaped rest
    else if char = '\n' then none
    else (literalBody .plain rest).map (.map (char :: ·) id)
  | .escaped, char :: rest =>
    match octalDigit? char with
    | some digit => literalBody (.octal 1 digit) rest
    | none => (simpleEscape? char).bind fun value =>
      (literalBody .plain rest).map (.map (value :: ·) id)
  | .octal left code, char :: rest =>
    (octalDigit? char).bind fun digit =>
      match left with
      | 0 => (literalBody .plain rest).map (.map (Char.ofNat (8 * code + digit) :: ·) id)
      | left + 1 => literalBody (.octal left (8 * code + digit)) rest

theorem octalDigit?_digitChar : ∀ digit < 8, octalDigit? (Nat.digitChar digit) = some digit := by
  decide

/-- A code below 512 is made of three octal digits. -/
theorem literalBody_octal {char : Char} (hchar : char.toNat < 512) (rest : List Char) :
    literalBody .escaped (Nat.digitChar (char.toNat / 64) :: Nat.digitChar (char.toNat / 8 % 8) ::
        Nat.digitChar (char.toNat % 8) :: rest) =
      (literalBody .plain rest).map (.map (char :: ·) id) := by
  have hcode : 8 * (8 * (char.toNat / 64) + char.toNat / 8 % 8) + char.toNat % 8 = char.toNat := by
    omega
  have hhigh := octalDigit?_digitChar (char.toNat / 64) (by omega)
  have hmiddle := octalDigit?_digitChar (char.toNat / 8 % 8) (by omega)
  have hlow := octalDigit?_digitChar (char.toNat % 8) (by omega)
  simp only [literalBody, hhigh, hmiddle, hlow, Option.bind_some, hcode, Char.ofNat_toNat]

theorem literalBody_escapedChar (char : Char) (rest : List Char) :
    literalBody .plain (escapedChar char ++ rest) =
      (literalBody .plain rest).map (.map (char :: ·) id) := by
  unfold escapedChar
  split
  · simp [literalBody, octalDigit?, simpleEscape?]
  · simp [literalBody, octalDigit?, simpleEscape?]
  · simp [literalBody, octalDigit?, simpleEscape?]
  · simp [literalBody, octalDigit?, simpleEscape?]
  · simp [literalBody, octalDigit?, simpleEscape?]
  next hbackslash hquote hfeed _ _ =>
    dsimp only
    split
    next hcontrol =>
      have hcode : char.toNat < 512 := by
        simp only [Bool.or_eq_true, decide_eq_true_eq] at hcontrol
        omega
      simpa [literalBody] using literalBody_octal hcode rest
    next =>
      rw [List.singleton_append, literalBody, if_neg hquote, if_neg hbackslash, if_neg hfeed]

/-- Whatever follows it, an escaped text ends at its own closing quote and stands for the text. -/
theorem literalBody_escape (text : String) (rest : List Char) :
    literalBody .plain ((escape text).toList ++ '"' :: rest) = some (text.toList, rest) := by
  rw [escape, String.toList_ofList]
  induction text.toList with
  | nil => simp [literalBody]
  | cons char chars ih =>
      rw [List.flatMap_cons, List.append_assoc, literalBody_escapedChar, ih]
      rfl

end Emit

/-! ## JSON -/

namespace Text

inductive JsonToken where
  | openBrace
  | closeBrace
  | colon
  | comma
  | text (value : String)

def jsonSign? : Char → Option JsonToken
  | '\x7b' => some .openBrace
  | '\x7d' => some .closeBrace
  | ':' => some .colon
  | ',' => some .comma
  | _ => none

/-- What a backslash and this character stand for in JSON. -/
def jsonEscape? : Char → Option Char
  | '"' => some '"'
  | '\\' => some '\\'
  | '/' => some '/'
  | 'b' => some '\x08'
  | 'f' => some '\x0c'
  | 'n' => some '\n'
  | 'r' => some '\r'
  | 't' => some '\t'
  | _ => none

def hexDigit? (char : Char) : Option Nat :=
  if '0' ≤ char ∧ char ≤ '9' then some (char.toNat - '0'.toNat)
  else if 'a' ≤ char ∧ char ≤ 'f' then some (char.toNat - 'a'.toNat + 10)
  else if 'A' ≤ char ∧ char ≤ 'F' then some (char.toNat - 'A'.toNat + 10)
  else none

/-- How far the reading of a token has come.  The characters of a string are kept the other way
round. -/
inductive JsonState where
  | outside
  | inside (read : List Char)
  /-- Behind a backslash. -/
  | escaped (read : List Char)
  /-- Behind some digits of a code point, before `left` others and the last one. -/
  | codePoint (left code : Nat) (read : List Char)

/-- The tokens of a JSON text without numbers, arrays and names.  Surrogates are not put
together. -/
def jsonTokens : JsonState → List Char → Option (List JsonToken)
  | .outside, [] => some []
  | _, [] => none
  | .outside, char :: rest =>
    if char = '"' then jsonTokens (.inside []) rest
    else if char ∈ [' ', '\t', '\n', '\r'] then jsonTokens .outside rest
    else (jsonSign? char).bind fun sign => (jsonTokens .outside rest).map (sign :: ·)
  | .inside read, char :: rest =>
    if char = '"' then
      (jsonTokens .outside rest).map (.text (String.ofList read.reverse) :: ·)
    else if char = '\\' then jsonTokens (.escaped read) rest
    else if char.toNat < 0x20 then none
    else jsonTokens (.inside (char :: read)) rest
  | .escaped read, char :: rest =>
    if char = 'u' then jsonTokens (.codePoint 3 0 read) rest
    else (jsonEscape? char).bind fun value => jsonTokens (.inside (value :: read)) rest
  | .codePoint left code read, char :: rest =>
    (hexDigit? char).bind fun digit =>
      match left with
      | 0 =>
        if (16 * code + digit).isValidChar then
          jsonTokens (.inside (Char.ofNat (16 * code + digit) :: read)) rest
        else none
      | left + 1 => jsonTokens (.codePoint left (16 * code + digit) read) rest

/-- The members of an object whose values are strings, up to its closing brace. -/
def jsonMembers : List JsonToken → Option (List (String × String))
  | [.text key, .colon, .text value, .closeBrace] => some [(key, value)]
  | .text key :: .colon :: .text value :: .comma :: rest =>
    (jsonMembers rest).map ((key, value) :: ·)
  | _ => none

def jsonObject : List JsonToken → Option (List (String × String))
  | [.openBrace, .closeBrace] => some []
  | .openBrace :: rest => jsonMembers rest
  | _ => none

/-- The members of the object that a JSON text stands for, in the order of the text. -/
def decodeJson (text : String) : Option (List (String × String)) :=
  (jsonTokens .outside text.toList).bind jsonObject

theorem hexDigit?_digitChar : ∀ digit < 16, hexDigit? (Nat.digitChar digit) = some digit := by
  decide

/-- A code below 256 is made of two digits behind two zeros. -/
theorem jsonTokens_codePoint {char : Char} (hchar : char.toNat < 256) (read rest : List Char) :
    jsonTokens (.escaped read) ('u' :: '0' :: '0' :: twoHexDigits char.toNat ++ rest) =
      jsonTokens (.inside (char :: read)) rest := by
  have hcode : 16 * (char.toNat / 16 % 16) + char.toNat % 16 = char.toNat := by omega
  have hzero : hexDigit? '0' = some 0 := by decide
  have hhigh := hexDigit?_digitChar (char.toNat / 16 % 16) (by omega)
  have hlow := hexDigit?_digitChar (char.toNat % 16) (by omega)
  have hvalid : char.toNat.isValidChar := char.valid
  simp [jsonTokens, twoHexDigits, hzero, hhigh, hlow, hcode, hvalid]

theorem jsonTokens_jsonChar (char : Char) (read rest : List Char) :
    jsonTokens (.inside read) (jsonChar char ++ rest) =
      jsonTokens (.inside (char :: read)) rest := by
  unfold jsonChar
  split
  · simp [jsonTokens, jsonEscape?]
  · simp [jsonTokens, jsonEscape?]
  · simp [jsonTokens, jsonEscape?]
  · simp [jsonTokens, jsonEscape?]
  · simp [jsonTokens, jsonEscape?]
  · simp [jsonTokens, jsonEscape?]
  · simp [jsonTokens, jsonEscape?]
  next hquote hbackslash _ _ _ _ _ =>
    split
    next hcontrol =>
      simpa [jsonTokens] using jsonTokens_codePoint (by omega) read rest
    next hcontrol =>
      rw [List.singleton_append, jsonTokens, if_neg hquote, if_neg hbackslash, if_neg hcontrol]

theorem jsonTokens_jsonString (text : String) (rest : List Char) :
    jsonTokens .outside ((jsonString text).toList ++ rest) =
      (jsonTokens .outside rest).map (.text text :: ·) := by
  have hchars : ∀ (chars read : List Char),
      jsonTokens (.inside read) (chars.flatMap jsonChar ++ '"' :: rest) =
        (jsonTokens .outside rest).map (.text (String.ofList (read.reverse ++ chars)) :: ·) := by
    intro chars
    induction chars with
    | nil => simp [jsonTokens]
    | cons char chars ih =>
        intro read
        rw [List.flatMap_cons, List.append_assoc, jsonTokens_jsonChar, ih]
        simp
  simpa [jsonString, jsonTokens] using hchars text.toList []

end Text

namespace Metadata

open Text

theorem jsonTokens_entryJson (entry : String × String) (rest : List Char) :
    jsonTokens .outside ((entryJson entry).toList ++ rest) =
      (jsonTokens .outside rest).map (.text entry.1 :: .colon :: .text entry.2 :: ·) := by
  have hcolon : ∀ rest, jsonTokens .outside (':' :: rest) =
      (jsonTokens .outside rest).map (.colon :: ·) := by
    simp [jsonTokens, jsonSign?]
  simp only [entryJson, String.toList_append, List.append_assoc, jsonTokens_jsonString]
  simp [hcolon, jsonTokens_jsonString, Function.comp_def]

theorem intercalate_entryJson_cons (first next : String × String)
    (entries : List (String × String)) :
    (",".intercalate ((first :: next :: entries).map entryJson)).toList =
      (entryJson first).toList ++ ',' ::
        (",".intercalate ((next :: entries).map entryJson)).toList := by
  simp [String.toList_intercalate]

theorem jsonMembers_entries (first : String × String) (entries : List (String × String)) :
    (jsonTokens .outside
      ((",".intercalate ((first :: entries).map entryJson)).toList ++ ['\x7d'])).bind jsonMembers =
      some (first :: entries) := by
  have hbrace : jsonTokens .outside ['\x7d'] = some [.closeBrace] := by
    simp [jsonTokens, jsonSign?]
  have hcomma : ∀ rest, jsonTokens .outside (',' :: rest) =
      (jsonTokens .outside rest).map (.comma :: ·) := by
    simp [jsonTokens, jsonSign?]
  induction entries generalizing first with
  | nil => simp [jsonTokens_entryJson, hbrace, jsonMembers]
  | cons next entries ih =>
      obtain ⟨tokens, htokens, hmembers⟩ := Option.bind_eq_some_iff.mp (ih next)
      rw [intercalate_entryJson_cons, List.append_assoc, List.cons_append, jsonTokens_entryJson,
        hcomma, htokens]
      simp [jsonMembers, hmembers]

/-- The JSON of a record stands for its entries. -/
theorem decodeJson_json (metadata : Metadata) :
    decodeJson metadata.json = some metadata.entries := by
  have hbrace : ∀ rest, jsonTokens .outside ('\x7b' :: rest) =
      (jsonTokens .outside rest).map (.openBrace :: ·) := by
    simp [jsonTokens, jsonSign?]
  rcases metadata with ⟨_ | ⟨first, entries⟩⟩
  · cbv
  · obtain ⟨tokens, htokens, hmembers⟩ :=
      Option.bind_eq_some_iff.mp (jsonMembers_entries first entries)
    have hobject : jsonObject (.openBrace :: tokens) = jsonMembers tokens := by
      unfold jsonObject
      split <;> simp_all [jsonMembers]
    have hjson : (json ⟨first :: entries⟩).toList =
        '\x7b' :: ((",".intercalate ((first :: entries).map entryJson)).toList ++ ['\x7d']) := by
      simp [json]
    rw [decodeJson, hjson, hbrace, htokens]
    simp [hobject, hmembers]

/-! ## The comment -/

theorem le_toNat_of_mem_jsonChar (char : Char) :
    ∀ written ∈ jsonChar char, 0x20 ≤ written.toNat := by
  have hdigit : ∀ digit < 16, 0x20 ≤ (Nat.digitChar digit).toNat := by decide
  have hhigh := hdigit (char.toNat / 16 % 16) (by omega)
  have hlow := hdigit (char.toNat % 16) (by omega)
  unfold jsonChar
  split
  · simp
  · simp
  · simp
  · simp
  · simp
  · simp
  · simp
  · split
    next => simp [twoHexDigits, hhigh, hlow]
    next hcontrol => simpa using hcontrol

theorem le_toNat_of_mem_jsonString {text : String} {written : Char}
    (hwritten : written ∈ (jsonString text).toList) : 0x20 ≤ written.toNat := by
  have hcases : written = '"' ∨ (∃ char ∈ text.toList, written ∈ jsonChar char) ∨
      written = '"' := by
    simpa [jsonString] using hwritten
  rcases hcases with rfl | ⟨char, -, hchar⟩ | rfl
  · decide
  · exact le_toNat_of_mem_jsonChar char written hchar
  · decide

theorem le_toNat_of_mem_entryJson {entry : String × String} {written : Char}
    (hwritten : written ∈ (entryJson entry).toList) : 0x20 ≤ written.toNat := by
  have hcases : written ∈ (jsonString entry.1).toList ∨ written = ':' ∨
      written ∈ (jsonString entry.2).toList := by
    simpa [entryJson] using hwritten
  rcases hcases with hkey | rfl | hvalue
  · exact le_toNat_of_mem_jsonString hkey
  · decide
  · exact le_toNat_of_mem_jsonString hvalue

theorem le_toNat_of_mem_entries {entries : List (String × String)} {written : Char}
    (hwritten : written ∈ (",".intercalate (entries.map entryJson)).toList) :
    0x20 ≤ written.toNat := by
  induction entries with
  | nil => simp at hwritten
  | cons first entries ih =>
      cases entries with
      | nil =>
          have hfirst : written ∈ (entryJson first).toList := by simpa using hwritten
          exact le_toNat_of_mem_entryJson hfirst
      | cons next entries =>
          rw [intercalate_entryJson_cons, List.mem_append, List.mem_cons] at hwritten
          rcases hwritten with hfirst | rfl | hrest
          · exact le_toNat_of_mem_entryJson hfirst
          · decide
          · exact ih hrest

/-- The JSON of a record has no control characters, since they are all escaped. -/
theorem le_toNat_of_mem_json {metadata : Metadata} {written : Char}
    (hwritten : written ∈ metadata.json.toList) : 0x20 ≤ written.toNat := by
  have hcases : written = '\x7b' ∨
      written ∈ (",".intercalate (metadata.entries.map entryJson)).toList ∨ written = '\x7d' := by
    simpa [json] using hwritten
  rcases hcases with rfl | hentries | rfl
  · decide
  · exact le_toNat_of_mem_entries hentries
  · decide

theorem notMem_json {metadata : Metadata} {char : Char} (hchar : char.toNat < 0x20) :
    char ∉ metadata.json.toList := by
  intro hwritten
  have := le_toNat_of_mem_json hwritten
  omega

theorem commentSafe_json (metadata : Metadata) :
    Emit.commentSafe metadata.json = metadata.json := by
  have hkept : ∀ char ∈ metadata.json.toList,
      (if char = '\n' ∨ char = '\r' then ' ' else char) = char := by
    intro char hchar
    refine if_neg ?_
    rintro (rfl | rfl)
    · exact notMem_json (by decide) hchar
    · exact notMem_json (by decide) hchar
  rw [Emit.commentSafe, List.map_congr_left hkept, List.map_id', String.ofList_toList]

/-- Where a text stands that is embedded. -/
theorem emit_embedded (program : Program) (origin text : String) :
    ∃ requirements back, program.emit ⟨origin, some text⟩ =
      "// Generated by " ++ compilerName ++ " from " ++ Emit.commentSafe origin ++
        "\n" ++ "// tide-metadata: " ++ Emit.commentSafe text ++ "\n" ++ "\n" ++
        Emit.includes requirements ++ "\n" ++
        "[[maybe_unused]] static const char* const TIDE_METADATA = \"" ++
        (Emit.escape text ++ ("\";\n\n" ++ back)) := by
  unfold Program.emit
  generalize (Emit.commands program).run .start = emitted
  refine ⟨emitted.2.requirements,
    Emit.supportSection emitted.2.requirements ++ Emit.render emitted.1, ?_⟩
  dsimp only [Emit.heading, Emit.metadataConstant, Option.map_some, Option.getD_some]
  simp only [String.append_assoc]

/-- Whatever the user's entries are, the record holds the compiler's own ones, the last user entry
for each other key and nothing else, in ascending order.  The output has its JSON in one comment
line and, escaped, as the text of a literal that closes where the escaped text ends, and the JSON
stands for the entries. -/
theorem survives_embedding (source : String) (options : CompileOptions)
    (flags : FeatureFlags) (program : Program) (origin : String) :
    let metadata := ofCompilation source options flags
    (∀ key value, (key, value) ∈ metadata.entries ↔
      ((ownEntries source options flags).lookup key).or (options.metadata.reverse.lookup key) =
        some value) ∧
    metadata.entries.Pairwise (·.1 < ·.1) ∧
    '\n' ∉ metadata.json.toList ∧ '\r' ∉ metadata.json.toList ∧
    (∃ requirements behind back,
      program.emit ⟨origin, some metadata.json⟩ =
        "// Generated by " ++ compilerName ++ " from " ++ Emit.commentSafe origin ++
          "\n" ++ "// tide-metadata: " ++ metadata.json ++ "\n" ++ "\n" ++
          Emit.includes requirements ++ "\n" ++
          "[[maybe_unused]] static const char* const TIDE_METADATA = \"" ++ behind ∧
      Emit.literalBody .plain behind.toList =
        some (metadata.json.toList, (";\n\n" ++ back).toList)) ∧
    decodeJson metadata.json = some metadata.entries := by
  intro metadata
  have hascending : Ascending metadata.entries := ascending_ofCompilation source options flags
  refine ⟨fun key value => ?_, hascending, notMem_json (by decide), notMem_json (by decide), ?_,
    decodeJson_json metadata⟩
  · rw [hascending.mem_iff_lookup, ← get?_ofCompilation, get?]
  · obtain ⟨requirements, back, hemit⟩ := emit_embedded program origin metadata.json
    refine ⟨requirements, _, back, by rw [hemit, commentSafe_json], ?_⟩
    simpa using Emit.literalBody_escape metadata.json (";\n\n" ++ back).toList

end Metadata

end Tide
