import Mathlib.Data.String.Basic
import Tide.Path

/-!
# Extensions of paths

When a path with another extension, or with something behind one, is the path that it was made from.
-/

namespace Tide.Path

/-- Nothing, or names with a slash behind the last of them. -/
def IsFolder (folder : List Char) : Prop :=
  folder = [] ∨ folder.getLast? = some '/'

/-- What may stand behind a name without leading on: slashes, and dots behind them that name the
folder itself. -/
inductive Idle : List Char → Prop
  | nil : Idle []
  | slash {rest : List Char} (hrest : Idle rest) : Idle ('/' :: rest)
  | dot {rest : List Char} (hrest : Idle rest) : Idle ('/' :: '.' :: rest)

/-- The path names a file in the folder, with something idle behind the name. -/
structure NamesFile (path : String) (folder name rest : List Char) : Prop where
  text : path.toList = folder ++ (name ++ rest)
  isFolder : IsFolder folder
  slash_notMem : '/' ∉ name
  ne_nil : name ≠ []
  ne_dot : name ≠ ['.']
  ne_dots : name ≠ ['.', '.']
  idle : Idle rest

/-- The path ends in the folder above or has no names but dots. -/
def NamesNoFile (path : String) : Prop :=
  ∃ folder name rest, path.toList = folder ++ (name ++ rest) ∧ Idle rest ∧
    (folder = [] ∧ (name = [] ∨ name = ['.']) ∨ IsFolder folder ∧ name = ['.', '.'])

/-- The path is one of a file in the folder, with something before the last dot of its name. -/
structure Splits (path : String) (folder stem extension : List Char) : Prop where
  text : path.toList = folder ++ (stem ++ '.' :: extension)
  isFolder : IsFolder folder
  stem_ne_nil : stem ≠ []
  slash_notMem_stem : '/' ∉ stem
  slash_notMem_extension : '/' ∉ extension
  dot_notMem_extension : '.' ∉ extension

/-- The path has this extension.  The two dots that name the folder above have none, and neither has
a name that begins with them. -/
def HasExtension (path : String) (extension : String) : Prop :=
  ∃ folder stem, Splits path folder stem extension.toList ∧ stem ≠ ['.']

/-- The path ends in the name of a file without an extension: its only dot, if any, is in front. -/
def IsBare (path : String) : Prop :=
  ∃ folder name, NamesFile path folder name [] ∧ '.' ∉ name.tail

/-! ## The parts of a path -/

section

variable {folder name rest more stem extension : List Char} {path : String}

theorem Idle.eq_nil_of_notMem (hidle : Idle rest) (hslash : '/' ∉ rest) : rest = [] := by
  cases hidle with
  | nil => rfl
  | slash | dot => simp at hslash

theorem Idle.append (hrest : Idle rest) (hmore : Idle more) : Idle (rest ++ more) := by
  induction hrest with
  | nil => exact hmore
  | slash _ ih => exact .slash ih
  | dot _ ih => exact .dot ih

/-- What is idle at the end of a path is dropped. -/
theorem Idle.dropIdle_append (hidle : Idle rest) (before : List Char) :
    dropIdle (rest.reverse ++ before) = dropIdle before := by
  induction hidle generalizing before with
  | nil => rfl
  | slash _ ih =>
      rw [List.reverse_cons, List.append_assoc, ih]
      rfl
  | dot _ ih =>
      rw [List.reverse_cons, List.reverse_cons, List.append_assoc, List.append_assoc, ih]
      rfl

/-- Nothing else is dropped. -/
theorem exists_idle (backwards : List Char) :
    ∃ rest, Idle rest ∧ backwards = rest.reverse ++ dropIdle backwards := by
  fun_induction dropIdle backwards with
  | case1 before ih =>
      obtain ⟨rest, hidle, hbefore⟩ := ih
      refine ⟨rest ++ ['/'], hidle.append (.slash .nil), ?_⟩
      rw [List.reverse_append, List.append_assoc, ← hbefore]
      rfl
  | case2 before ih =>
      obtain ⟨rest, hidle, hbefore⟩ := ih
      refine ⟨rest ++ ['/', '.'], hidle.append (.dot .nil), ?_⟩
      rw [List.reverse_append, List.append_assoc, ← hbefore]
      rfl
  | case3 before => exact ⟨[], .nil, rfl⟩

/-- Nothing idle is left. -/
theorem dropIdle_ne (backwards before : List Char) :
    dropIdle backwards ≠ '/' :: before ∧ dropIdle backwards ≠ '.' :: '/' :: before := by
  fun_induction dropIdle backwards with
  | case1 _ ih => exact ih
  | case2 _ ih => exact ih
  | case3 path hslash hdot => exact ⟨hslash before, hdot before⟩

theorem dropIdle_eq_self {backwards : List Char} (hslash : ∀ before, backwards ≠ '/' :: before)
    (hdot : ∀ before, backwards ≠ '.' :: '/' :: before) : dropIdle backwards = backwards := by
  fun_cases dropIdle backwards with
  | case1 before => exact absurd rfl (hslash before)
  | case2 before => exact absurd rfl (hdot before)
  | case3 => rfl

theorem forall_reverse_bne {text : List Char} {mark : Char} (hmark : mark ∉ text) :
    ∀ char ∈ text.reverse, (char != mark) = true := by
  intro char hchar
  rw [bne_iff_ne]
  exact ne_of_mem_of_not_mem (List.mem_reverse.mp hchar) hmark

theorem takeWhile_reverse_append (hfolder : IsFolder folder) (hname : '/' ∉ name) :
    (folder ++ name).reverse.takeWhile (· != '/') = name.reverse := by
  rw [List.reverse_append, List.takeWhile_append_of_pos (forall_reverse_bne hname)]
  rcases hfolder with rfl | hlast
  · simp
  · obtain ⟨before, rfl⟩ := List.getLast?_eq_some_iff.mp hlast
    simp

theorem folderAndName_append (hfolder : IsFolder folder) (hname : '/' ∉ name) :
    folderAndName (folder ++ name) = (folder, name) := by
  rw [folderAndName, takeWhile_reverse_append hfolder hname, List.reverse_reverse]
  simp

/-- Every path is a folder and a name. -/
theorem exists_folder (path : List Char) :
    ∃ folder name, path = folder ++ name ∧ IsFolder folder ∧ '/' ∉ name := by
  induction path with
  | nil => exact ⟨[], [], rfl, .inl rfl, by simp⟩
  | cons char rest ih =>
      obtain ⟨folder, name, rfl, hfolder, hname⟩ := ih
      by_cases hslash : char = '/' ∨ folder ≠ []
      · refine ⟨char :: folder, name, rfl, .inr ?_, hname⟩
        rcases hfolder with rfl | hlast
        · simpa using hslash
        · rw [List.getLast?_cons, hlast]
          rfl
      · obtain ⟨hchar, hempty⟩ := not_or.mp hslash
        obtain rfl := not_not.mp hempty
        exact ⟨[], char :: name, rfl, .inl rfl, by simp [hname, Ne.symm hchar]⟩

/-- A path is trimmed to the end of a name, unless the name is nothing or a dot behind a folder. -/
theorem trimmed_append (hname : '/' ∉ name) (hidle : Idle rest)
    (hends : folder = [] ∨ name ≠ [] ∧ name ≠ ['.']) :
    trimmed (folder ++ (name ++ rest)) = folder ++ name := by
  have hsame : dropIdle (name.reverse ++ folder.reverse) = name.reverse ++ folder.reverse := by
    have hslash : '/' ∉ name.reverse := by simpa using hname
    -- The last character of a name is no slash, and neither is the one before it.
    rcases hback : name.reverse with _ | ⟨last, _ | ⟨previous, front⟩⟩
    · obtain rfl : folder = [] := hends.resolve_right fun hne => hne.1 (by simpa using hback)
      rfl
    · have hlast : last ≠ '/' := by simpa [hback, eq_comm] using hslash
      refine dropIdle_eq_self (fun before => by simp [hlast]) fun before hbefore => ?_
      obtain ⟨rfl, hfolder⟩ := List.cons.inj hbefore
      obtain rfl : folder = [] := hends.resolve_right fun hne => hne.2 (by simpa using hback)
      simp at hfolder
    · obtain ⟨hlast, hprevious, -⟩ : last ≠ '/' ∧ previous ≠ '/' ∧ '/' ∉ front := by
        simpa [hback, eq_comm] using hslash
      exact dropIdle_eq_self (fun before => by simp [hlast]) fun before => by simp [hprevious]
  rw [trimmed, List.reverse_append, List.reverse_append, List.append_assoc,
    hidle.dropIdle_append, hsame, List.reverse_append, List.reverse_reverse, List.reverse_reverse]

/-- A path names a file or names none. -/
theorem namesFile_or_namesNoFile (path : String) :
    (∃ folder name rest, NamesFile path folder name rest) ∨ NamesNoFile path := by
  obtain ⟨rest, hidle, hpath⟩ := exists_idle path.toList.reverse
  obtain ⟨folder, name, hkept, hfolder, hname⟩ :=
    exists_folder (dropIdle path.toList.reverse).reverse
  have hback : dropIdle path.toList.reverse = name.reverse ++ folder.reverse := by
    rw [← List.reverse_append, ← hkept, List.reverse_reverse]
  have htext : path.toList = folder ++ (name ++ rest) := by
    rw [← List.reverse_reverse path.toList, hpath, hback]
    simp
  have hempty : name = [] ∨ name = ['.'] → folder = [] := by
    intro hplace
    refine hfolder.resolve_right fun hlast => ?_
    obtain ⟨before, rfl⟩ := List.getLast?_eq_some_iff.mp hlast
    have hidleEnd := dropIdle_ne path.toList.reverse before.reverse
    rcases hplace with rfl | rfl <;> simp [hback] at hidleEnd
  by_cases hdots : name = ['.', '.']
  · exact .inr ⟨folder, name, rest, htext, hidle, .inr ⟨hfolder, hdots⟩⟩
  by_cases hplace : name = [] ∨ name = ['.']
  · exact .inr ⟨folder, name, rest, htext, hidle, .inl ⟨hempty hplace, hplace⟩⟩
  · obtain ⟨hnil, hdot⟩ := not_or.mp hplace
    exact .inl ⟨folder, name, rest, htext, hfolder, hname, hnil, hdot, hdots, hidle⟩

/-- A name with a dot behind its first character has a last one. -/
theorem exists_stem (hdot : '.' ∈ name.tail) :
    ∃ stem extension, name = stem ++ '.' :: extension ∧ stem ≠ [] ∧ '.' ∉ extension := by
  obtain ⟨front, back, htail, hfront⟩ := List.eq_append_cons_of_mem (List.mem_reverse.mpr hdot)
  cases name with
  | nil => simp at hdot
  | cons first rest =>
      refine ⟨first :: back.reverse, front.reverse, ?_, by simp, by simpa using hfront⟩
      rw [List.tail_cons] at htail
      rw [← List.reverse_reverse rest, htail]
      simp

theorem dropWhile_reverse_append (hextension : '.' ∉ extension) :
    (stem ++ '.' :: extension).reverse.dropWhile (· != '.') = '.' :: stem.reverse := by
  rw [List.reverse_append, List.reverse_cons, List.append_assoc,
    List.dropWhile_append_of_pos (forall_reverse_bne hextension)]
  simp

theorem stem_append (hstem : stem ≠ []) (hextension : '.' ∉ extension) :
    Path.stem (stem ++ '.' :: extension) = stem := by
  rw [Path.stem, dropWhile_reverse_append hextension]
  cases hreverse : stem.reverse with
  | nil => exact absurd (List.reverse_eq_nil_iff.mp hreverse) hstem
  | cons last before => rw [← List.reverse_reverse stem, hreverse]

theorem stem_of_notMem (hdot : '.' ∉ name.tail) : Path.stem name = name := by
  cases name with
  | nil => rfl
  | cons first rest =>
      rw [List.tail_cons] at hdot
      rw [Path.stem, List.reverse_cons, List.dropWhile_append_of_pos (forall_reverse_bne hdot)]
      by_cases hfirst : first = '.' <;> simp [hfirst]

/-- A name is its stem, or its stem with a last dot and an extension behind it. -/
theorem stem_cases (name : List Char) :
    ('.' ∉ name.tail ∧ Path.stem name = name) ∨
      ∃ extension, name = Path.stem name ++ '.' :: extension ∧ Path.stem name ≠ [] ∧
        '.' ∉ extension := by
  by_cases hdot : '.' ∈ name.tail
  · obtain ⟨stem, extension, rfl, hstem, hextension⟩ := exists_stem hdot
    rw [stem_append hstem hextension]
    exact .inr ⟨extension, rfl, hstem, hextension⟩
  · exact .inl ⟨hdot, stem_of_notMem hdot⟩

/-! ## Another extension -/

theorem withExtension_of_namesNoFile (hnone : NamesNoFile path) (new : String) :
    withExtension path new = path := by
  obtain ⟨folder, name, rest, hpath, hidle, hplace⟩ := hnone
  have hname : '/' ∉ name := by
    rcases hplace with ⟨-, rfl | rfl⟩ | ⟨-, rfl⟩ <;> decide
  have hfolder : IsFolder folder := hplace.elim (fun hempty => .inl hempty.1) And.left
  have hends : folder = [] ∨ name ≠ [] ∧ name ≠ ['.'] :=
    hplace.imp And.left fun hdots => by simp [hdots.2]
  have hisPlace : isPlace name = true := by
    rcases hplace with ⟨-, rfl | rfl⟩ | ⟨-, rfl⟩ <;> rfl
  rw [withExtension, hpath, trimmed_append hname hidle hends, folderAndName_append hfolder hname]
  exact if_pos hisPlace

namespace NamesFile

theorem trimmed_eq (hfile : NamesFile path folder name rest) :
    trimmed path.toList = folder ++ name := by
  rw [hfile.text]
  exact trimmed_append hfile.slash_notMem hfile.idle (.inr ⟨hfile.ne_nil, hfile.ne_dot⟩)

theorem toList_withExtension (hfile : NamesFile path folder name rest) (new : String) :
    (withExtension path new).toList =
      if Path.stem name = ['.'] ∧ rest = [] then folder ++ ['.', '.']
      else folder ++ (Path.stem name ++ suffix new) := by
  have hplace : isPlace name = false := by
    simp [isPlace, hfile.ne_nil, hfile.ne_dot, hfile.ne_dots]
  have hends : folder ++ name = path.toList ↔ rest = [] := by
    simp [hfile.text]
  rw [withExtension, hfile.trimmed_eq, folderAndName_append hfile.isFolder hfile.slash_notMem]
  simp only [hplace, Bool.false_eq_true, if_false, hends]
  split_ifs <;> rw [String.toList_ofList]

/-- A name with nothing behind it ends the path, and so does its extension. -/
theorem splits (hfile : NamesFile path folder (stem ++ '.' :: extension) []) (hstem : stem ≠ [])
    (hdot : '.' ∉ extension) : Splits path folder stem extension where
  text := by rw [hfile.text, List.append_nil]
  isFolder := hfile.isFolder
  stem_ne_nil := hstem
  slash_notMem_stem hslash := hfile.slash_notMem (by simp [hslash])
  slash_notMem_extension hslash := hfile.slash_notMem (by simp [hslash])
  dot_notMem_extension := hdot

end NamesFile

/-- What a path becomes when `new` is put in the place of its extension. -/
inductive Replaced (path : String) (new : List Char) : List Char → Prop
  | kept (hnone : NamesNoFile path) : Replaced path new path.toList
  | appended {folder name rest : List Char} (hfile : NamesFile path folder name rest)
      (hdot : '.' ∉ name.tail) : Replaced path new (folder ++ (name ++ new))
  | exchanged {folder stem extension rest : List Char}
      (hfile : NamesFile path folder (stem ++ '.' :: extension) rest) (hstem : stem ≠ [])
      (hdot : '.' ∉ extension) (hends : stem ≠ ['.'] ∨ rest ≠ []) :
      Replaced path new (folder ++ (stem ++ new))
  /-- Of two dots and something behind them, only the dots are left. -/
  | dots {folder extension : List Char}
      (hfile : NamesFile path folder ('.' :: '.' :: extension) []) (hdot : '.' ∉ extension) :
      Replaced path new (folder ++ ['.', '.'])

theorem replaced_withExtension (path new : String) :
    Replaced path (suffix new) (withExtension path new).toList := by
  rcases namesFile_or_namesNoFile path with ⟨folder, name, rest, hfile⟩ | hnone
  · rw [hfile.toList_withExtension]
    rcases stem_cases name with ⟨hdot, hstem⟩ | ⟨extension, hname, hstem, hdot⟩
    · rw [hstem, if_neg fun hdots => hfile.ne_dot hdots.1]
      exact .appended hfile hdot
    · split_ifs with hdots
      · obtain ⟨hfirst, rfl⟩ := hdots
        rw [hname, hfirst] at hfile
        exact .dots hfile hdot
      · rw [hname] at hfile
        exact .exchanged hfile hstem hdot (not_and_or.mp hdots)
  · rw [withExtension_of_namesNoFile hnone]
    exact .kept hnone

theorem suffix_of_ne {new : String} (hnew : new ≠ "") : suffix new = '.' :: new.toList :=
  if_neg (by simpa using hnew)

theorem withExtension_of_hasExtension {new : String} (hnew : new ≠ "")
    (hextension : HasExtension path new) : withExtension path new = path := by
  obtain ⟨folder, stem, hsplits, hstem⟩ := hextension
  have hbefore := stem_append hsplits.stem_ne_nil hsplits.dot_notMem_extension
  have hfile : NamesFile path folder (stem ++ '.' :: new.toList) [] := {
    text := by rw [hsplits.text, List.append_nil]
    isFolder := hsplits.isFolder
    slash_notMem := by simp [hsplits.slash_notMem_stem, hsplits.slash_notMem_extension]
    ne_nil := by simp
    ne_dot := by simp [List.append_eq_cons_iff, hsplits.stem_ne_nil]
    ne_dots := fun hdots => hstem (hbefore.symm.trans (congrArg Path.stem hdots))
    idle := .nil }
  rw [← String.toList_inj, hfile.toList_withExtension, hbefore,
    if_neg fun hdots => hstem hdots.1, suffix_of_ne hnew, hsplits.text]

theorem withExtension_of_isBare (hbare : IsBare path) : withExtension path "" = path := by
  obtain ⟨folder, name, hfile, hdot⟩ := hbare
  rw [← String.toList_inj, hfile.toList_withExtension, stem_of_notMem hdot,
    if_neg fun hdots => hfile.ne_dot hdots.1, hfile.text]
  rfl

/-- A path keeps its extension exactly when it has the new one already or names no file. -/
theorem withExtension_eq_self_iff {new : String} (hnew : new ≠ "") (hslash : '/' ∉ new.toList) :
    withExtension path new = path ↔ HasExtension path new ∨ NamesNoFile path := by
  constructor
  · intro hsame
    have hreplaced := replaced_withExtension path new
    rw [hsame, suffix_of_ne hnew] at hreplaced
    generalize hresult : path.toList = result at hreplaced
    cases hreplaced with
    | kept hnone => exact .inr hnone
    | appended hfile =>
        rw [hfile.text] at hresult
        have hrest := List.append_cancel_left (List.append_cancel_left hresult)
        cases hrest ▸ hfile.idle
    | exchanged hfile hstem hdot hends =>
        simp only [hfile.text, List.append_assoc, List.cons_append, List.append_cancel_left_eq,
          List.cons.injEq, true_and] at hresult
        obtain rfl := hfile.idle.eq_nil_of_notMem fun hmem =>
          hslash (hresult ▸ List.mem_append_right _ hmem)
        rw [List.append_nil] at hresult
        subst hresult
        exact .inl ⟨_, _, hfile.splits hstem hdot, hends.resolve_right (by simp)⟩
    | dots hfile =>
        rw [hfile.text, List.append_nil] at hresult
        exact absurd (List.append_cancel_left hresult) hfile.ne_dots
  · rintro (hextension | hnone)
    · exact withExtension_of_hasExtension hnew hextension
    · exact withExtension_of_namesNoFile hnone new

/-- A path loses nothing exactly when it has no extension or names no file. -/
theorem withExtension_empty_eq_self_iff :
    withExtension path "" = path ↔ IsBare path ∨ NamesNoFile path := by
  constructor
  · intro hsame
    have hreplaced := replaced_withExtension path ""
    rw [hsame] at hreplaced
    generalize hresult : path.toList = result at hreplaced
    cases hreplaced with
    | kept hnone => exact .inr hnone
    | appended hfile hdot =>
        rw [hfile.text] at hresult
        obtain rfl := List.append_cancel_left (List.append_cancel_left hresult)
        exact .inl ⟨_, _, hfile, hdot⟩
    | exchanged hfile =>
        rw [hfile.text] at hresult
        simp [suffix] at hresult
    | dots hfile =>
        rw [hfile.text, List.append_nil] at hresult
        exact absurd (List.append_cancel_left hresult) hfile.ne_dots
  · rintro (hbare | hnone)
    · exact withExtension_of_isBare hbare
    · exact withExtension_of_namesNoFile hnone ""

/-- With two dots more behind it, a path with another extension is never the old one: there is at
most one dot that another extension can take away. -/
theorem withExtension_append_ne (path new : String) {more : List Char} (hmore : '.' ∈ more.tail)
    (hslash : '/' ∉ suffix new ++ more) :
    (withExtension path new).toList ++ more ≠ path.toList := by
  intro hsame
  have hne : more ≠ [] := by
    rintro rfl
    simp at hmore
  have hreplaced := replaced_withExtension path new
  generalize (withExtension path new).toList = result at hreplaced hsame
  cases hreplaced with
  | kept => simp [hne] at hsame
  | appended hfile =>
      rw [hfile.text, List.append_assoc, List.append_assoc] at hsame
      have hrest := List.append_cancel_left (List.append_cancel_left hsame)
      rw [hrest] at hslash
      rw [hfile.idle.eq_nil_of_notMem hslash] at hrest
      simp [hne] at hrest
  | exchanged hfile hstem hdot =>
      simp only [hfile.text, List.append_assoc, List.append_cancel_left_eq] at hsame
      have hrest := hfile.idle.eq_nil_of_notMem fun hmem => hslash (by simp [hsame, hmem])
      -- The dot inside of what follows would be one of the extension.
      apply hdot
      rw [hrest, List.append_nil] at hsame
      unfold suffix at hsame
      split_ifs at hsame
      · rw [List.nil_append] at hsame
        rwa [hsame] at hmore
      · rw [List.cons_append, List.cons.injEq] at hsame
        exact hsame.2 ▸ List.mem_append_right _ (List.mem_of_mem_tail hmore)
  | dots hfile hdot =>
      simp only [hfile.text, List.append_nil, List.append_assoc, List.append_cancel_left_eq,
        List.cons_append, List.nil_append, List.cons.injEq, true_and] at hsame
      exact hdot (hsame ▸ List.mem_of_mem_tail hmore)

end

end Tide.Path
