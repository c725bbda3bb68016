import Tide.Proofs.Emit.OpenLines

/-!
# How deep the lines stand

Every line is written at a depth, and only lines that close something, or that end one part and
begin another, step back from it.  Such a line always has an open line before it, so there is a
depth to step back from, and it stands as deep as the line that it belongs to.  All other lines
stand deeper than every line that is open around them.
-/

namespace Tide.Emit

namespace Command

/-- The line steps back from the depth. -/
def stepsBack : Command → Bool
  | dedent _ | outer _ => true
  | line _ | indent _ | blank => false

/-- The depth that the line is written at. -/
def level (depth : Nat) (command : Command) : Nat :=
  if command.stepsBack then depth - 1 else depth

/-- The line at a depth. -/
def laid (command : Command) (level : Nat) : String :=
  match command with
  | line text | indent text | dedent text | outer text => indented level text
  | blank => "\n"

end Command

def depthBehind (depth : Nat) (lines : List Command) : Nat :=
  lines.foldl Command.depthAfter depth

/-- The depths that the lines are written at. -/
def levels : (depth : Nat) → List Command → List Nat
  | _, [] => []
  | depth, command :: rest => command.level depth :: levels (command.depthAfter depth) rest

theorem renderFrom_eq_zipWith (depth : Nat) (lines : List Command) :
    renderFrom depth lines = List.zipWith Command.laid lines (levels depth lines) := by
  induction lines generalizing depth with
  | nil => rfl
  | cons command rest ih =>
      rw [renderFrom, ih, levels, List.zipWith_cons_cons]
      cases command <;> rfl

section

variable (depth : Nat) (front back : List Command)

theorem depthBehind_append :
    depthBehind depth (front ++ back) = depthBehind (depthBehind depth front) back :=
  List.foldl_append

theorem levels_append :
    levels depth (front ++ back) = levels depth front ++ levels (depthBehind depth front) back := by
  induction front generalizing depth with
  | nil => rfl
  | cons command rest ih => simp only [List.cons_append, levels, ih, depthBehind, List.foldl_cons]

theorem length_levels (lines : List Command) : (levels depth lines).length = lines.length := by
  induction lines generalizing depth with
  | nil => rfl
  | cons command rest ih => rw [levels, List.length_cons, ih, List.length_cons]

end

/-! ## Lines that step back -/

/-- Every line that steps back has an open line before it, among these lines or around them. -/
def Supported : (position : Nat) → (around : List (Nat × String)) → List Command → Prop
  | _, _, [] => True
  | position, around, command :: rest =>
    (command.stepsBack = true → around ≠ []) ∧
      Supported (position + 1) (openLines position around [command]) rest

theorem supported_append (position : Nat) (around : List (Nat × String))
    (front back : List Command) :
    Supported position around (front ++ back) ↔ Supported position around front ∧
      Supported (position + front.length) (openLines position around front) back := by
  induction front generalizing position around with
  | nil => simp [Supported, openLines]
  | cons command rest ih =>
      have hopen := openLines_append position around [command] rest
      rw [List.singleton_append, List.length_singleton] at hopen
      rw [List.cons_append, Supported, ih, Supported, hopen, List.length_cons,
        Nat.add_comm rest.length, ← Nat.add_assoc, and_assoc]

/-- No line steps back further than lines before it have gone in. -/
theorem Writes.supported {inside : Bool} {found : List Stmt} {before after : Emission}
    {lines : List Command} (hlines : Writes inside found before lines after) (position : Nat)
    {around : List (Nat × String)} (haround : inside = true → around ≠ []) :
    Supported position around lines := by
  induction hlines generalizing position around with
  | nothing | handOut | note => trivial
  | line | blank => exact ⟨nofun, trivial⟩
  | outer => exact ⟨fun _ => haround rfl, trivial⟩
  | append hfront hback ihFront ihBack =>
      rw [supported_append, hfront.balanced]
      exact ⟨ihFront position haround, ihBack _ haround⟩
  | enclosed opening closing hlines ih =>
      rw [List.cons_append, Supported, supported_append, hlines.balanced]
      refine ⟨nofun, ih _ fun _ => ?_, fun _ => ?_, trivial⟩ <;> simp [openLines]

/-! ## The depth and the open lines -/

/-- Each line was written one level deeper than the next one, and the last at this depth. -/
def OpenedAt (depth : Nat) (written : List Nat) : List (Nat × String) → Prop
  | [] => True
  | opener :: rest => written[opener.1]? = some (depth + rest.length) ∧ OpenedAt depth written rest

theorem OpenedAt.append {depth : Nat} {written : List Nat} {opened : List (Nat × String)}
    (hopened : OpenedAt depth written opened) (more : List Nat) :
    OpenedAt depth (written ++ more) opened := by
  induction opened with
  | nil => trivial
  | cons opener rest ih =>
      obtain ⟨hlevel, hrest⟩ := hopened
      refine ⟨?_, ih hrest⟩
      rw [List.getElem?_append_left (List.getElem?_eq_some_iff.mp hlevel).1, hlevel]

/-- There are as many open lines as levels below the first. -/
theorem depthBehind_openLines {lines : List Command} (hlines : Supported 0 [] lines) (depth : Nat) :
    depthBehind depth lines = depth + (openLines 0 [] lines).length ∧
      OpenedAt depth (levels depth lines) (openLines 0 [] lines) := by
  induction lines using List.reverseRecOn with
  | nil => exact ⟨rfl, trivial⟩
  | append_singleton front command ih =>
      rw [supported_append, Nat.zero_add] at hlines
      obtain ⟨hfront, hback, -⟩ := hlines
      obtain ⟨hdepth, hopened⟩ := ih hfront
      rw [depthBehind_append, levels_append, openLines_append, hdepth, Nat.zero_add]
      generalize openLines 0 [] front = opened at *
      cases command with
      | line | outer | blank => exact ⟨rfl, hopened.append _⟩
      | indent text =>
          refine ⟨rfl, ?_, hopened.append _⟩
          rw [← length_levels depth front, List.getElem?_append_right (Nat.le_refl _), Nat.sub_self]
          rfl
      | dedent text =>
          cases opened with
          | nil => exact absurd rfl (hback rfl)
          | cons opener rest => exact ⟨rfl, hopened.2.append _⟩

/-! ## Laid out lines -/

/-- The line at the second position stands deeper than the one at the first. -/
def Deeper (depth : Nat) (lines : List Command) (first second : Nat) : Prop :=
  ∃ outer inner, (levels depth lines)[first]? = some outer ∧
    (levels depth lines)[second]? = some inner ∧ outer < inner

/-- The lines at both positions stand equally deep. -/
def Level (depth : Nat) (lines : List Command) (first second : Nat) : Prop :=
  ∃ level, (levels depth lines)[first]? = some level ∧ (levels depth lines)[second]? = some level

/-- Lines that leave the depth as they find it.  A line that steps back comes to the depth of the
innermost line that is open before it, and never below the depth that the first line has.  Every
other line stands deeper than all lines that are open before it. -/
structure LaidOut (depth : Nat) (lines : List Command) : Prop where
  depthBehind_eq : depthBehind depth lines = depth
  stepsBack_from : ∀ front command back, lines = front ++ command :: back →
    command.stepsBack = true → depth < depthBehind depth front
  stepsBack_level : ∀ front command back, lines = front ++ command :: back →
    command.stepsBack = true → ∃ opener rest, openLines 0 [] front = opener :: rest ∧
      Level depth lines opener.1 front.length ∧
      ∀ other ∈ rest, Deeper depth lines other.1 front.length
  deeper : ∀ front command back, lines = front ++ command :: back →
    command.stepsBack = false →
      ∀ opener ∈ openLines 0 [] front, Deeper depth lines opener.1 front.length

theorem OpenedAt.exists_level {depth : Nat} {written : List Nat} {opened : List (Nat × String)}
    (hopened : OpenedAt depth written opened) {opener : Nat × String} (hmem : opener ∈ opened) :
    ∃ level, written[opener.1]? = some level ∧ level < depth + opened.length := by
  induction opened with
  | nil => cases hmem
  | cons first rest ih =>
      obtain ⟨hlevel, hrest⟩ := hopened
      rcases List.mem_cons.mp hmem with rfl | hmem
      · exact ⟨_, hlevel, by simp⟩
      · obtain ⟨level, hwritten, hlt⟩ := ih hrest hmem
        exact ⟨level, hwritten, hlt.trans (Nat.lt_succ_self _)⟩

theorem levels_at (depth : Nat) (front : List Command) (command : Command) (back : List Command) :
    (levels depth (front ++ command :: back))[front.length]? =
      some (command.level (depthBehind depth front)) := by
  rw [levels_append, ← length_levels depth front, List.getElem?_append_right (Nat.le_refl _),
    Nat.sub_self]
  rfl

theorem openedAt_front {front : List Command} (hfront : Supported 0 [] front) (depth : Nat)
    (back : List Command) :
    OpenedAt depth (levels depth (front ++ back)) (openLines 0 [] front) := by
  rw [levels_append]
  exact (depthBehind_openLines hfront depth).2.append _

theorem laidOut_of_supported {lines : List Command} (hsupported : Supported 0 [] lines)
    (hbalanced : Balanced lines) (depth : Nat) : LaidOut depth lines := by
  refine ⟨?_, ?_, ?_, ?_⟩
  · rw [(depthBehind_openLines hsupported depth).1, hbalanced]
    rfl
  · rintro front command back rfl hback
    obtain ⟨hfront, hopen, -⟩ := (supported_append ..).mp hsupported
    rw [(depthBehind_openLines hfront depth).1]
    exact Nat.lt_add_of_pos_right (List.length_pos_iff.mpr (hopen hback))
  · rintro front command back rfl hback
    obtain ⟨hfront, hopen, -⟩ := (supported_append ..).mp hsupported
    have hopened := openedAt_front hfront depth (command :: back)
    have hlevel := levels_at depth front command back
    rw [Command.level, if_pos hback, (depthBehind_openLines hfront depth).1] at hlevel
    cases hlines : openLines 0 [] front with
    | nil => exact absurd hlines (hopen hback)
    | cons opener rest =>
        rw [hlines] at hopened hlevel
        refine ⟨opener, rest, rfl, ⟨_, hopened.1, hlevel⟩, fun other hother => ?_⟩
        obtain ⟨outer, houter, hlt⟩ := hopened.2.exists_level hother
        exact ⟨outer, _, houter, hlevel, hlt⟩
  · rintro front command back rfl hback opener hopener
    obtain ⟨hfront, -⟩ := (supported_append ..).mp hsupported
    have hlevel := levels_at depth front command back
    rw [Command.level, if_neg (by simp [hback]), (depthBehind_openLines hfront depth).1] at hlevel
    obtain ⟨outer, houter, hlt⟩ :=
      (openedAt_front hfront depth (command :: back)).exists_level hopener
    exact ⟨outer, _, houter, hlevel, hlt⟩

theorem Writes.laidOut {found : List Stmt} {before after : Emission} {lines : List Command}
    (hlines : Writes false found before lines after) (depth : Nat) : LaidOut depth lines :=
  laidOut_of_supported (hlines.supported 0 nofun) hlines.balanced depth

/-! ## Lines of a nested block -/

/-- The lines leave something open, whatever is open before them. -/
def Opens (lines : List Command) : Prop :=
  ∀ position around, ∃ opened, opened ≠ [] ∧ openLines position around lines = opened ++ around

theorem opens_indent (text : String) : Opens [.indent text] :=
  fun position _ => ⟨[(position, text)], by simp, rfl⟩

theorem Opens.append {front back : List Command} (hfront : Opens front) (hback : Opens back) :
    Opens (front ++ back) := by
  intro position around
  obtain ⟨first, hfirst, hfront⟩ := hfront position around
  obtain ⟨second, hsecond, hback⟩ := hback (position + front.length) (first ++ around)
  refine ⟨second ++ first, by simp [hfirst], ?_⟩
  rw [openLines_append, hfront, hback, List.append_assoc]

theorem Opens.then {front back : List Command} (hfront : Opens front) (hback : Balanced back) :
    Opens (front ++ back) := by
  intro position around
  rw [openLines_append, hback]
  exact hfront position around

theorem Balanced.thenOpens {front back : List Command} (hfront : Balanced front)
    (hback : Opens back) : Opens (front ++ back) := by
  intro position around
  rw [openLines_append, hfront]
  exact hback _ around

/-- The inner lines stand among the others, behind lines of this kind. -/
def Among (fronts : List Command → Prop) (lines inner : List Command) : Prop :=
  ∃ front, fronts front ∧ ∃ back, lines = front ++ inner ++ back

theorem Among.trans {first second fronts : List Command → Prop} {lines middle inner : List Command}
    (hlines : Among first lines middle) (hmiddle : Among second middle inner)
    (hfronts : ∀ front more, first front → second more → fronts (front ++ more)) :
    Among fronts lines inner := by
  obtain ⟨front, hfront, back, rfl⟩ := hlines
  obtain ⟨more, hmore, tail, rfl⟩ := hmiddle
  refine ⟨front ++ more, hfronts front more hfront hmore, tail ++ back, ?_⟩
  simp only [List.append_assoc]

/-- The inner lines stand among the others, all deeper than the innermost line that is open before
them. -/
def EnclosesDeeper (depth : Nat) (lines inner : List Command) : Prop :=
  ∃ front back opener rest outer, lines = front ++ inner ++ back ∧
    openLines 0 [] front = opener :: rest ∧ (levels depth lines)[opener.1]? = some outer ∧
    ∀ level ∈ levels (depthBehind depth front) inner, outer < level

theorem exists_of_mem_levels {depth level : Nat} {lines : List Command}
    (hlevel : level ∈ levels depth lines) :
    ∃ front command back, lines = front ++ command :: back ∧
      level = command.level (depthBehind depth front) := by
  induction lines generalizing depth with
  | nil => cases hlevel
  | cons first rest ih =>
      rcases List.mem_cons.mp hlevel with rfl | hlevel
      · exact ⟨[], first, rest, rfl, rfl⟩
      · obtain ⟨front, command, back, rfl, hcommand⟩ := ih hlevel
        exact ⟨first :: front, command, back, rfl, hcommand⟩

/-- Nothing is written further out than the depth that the lines begin at. -/
theorem le_of_mem_levels {depth level : Nat} {lines : List Command} (hlines : Supported 0 [] lines)
    (hlevel : level ∈ levels depth lines) : depth ≤ level := by
  obtain ⟨front, command, back, rfl, rfl⟩ := exists_of_mem_levels hlevel
  obtain ⟨hfront, hopen, -⟩ := (supported_append ..).mp hlines
  rw [(depthBehind_openLines hfront depth).1, Command.level]
  split
  next hback =>
    have hpos := List.length_pos_iff.mpr (hopen hback)
    omega
  next => omega

theorem Among.deeper {lines inner : List Command} (hencloses : Among Opens lines inner)
    (hlines : Supported 0 [] lines) (hinner : Supported 0 [] inner) (depth : Nat) :
    EnclosesDeeper depth lines inner := by
  obtain ⟨front, hopens, back, rfl⟩ := hencloses
  obtain ⟨hfront, -⟩ := (supported_append ..).mp ((supported_append ..).mp hlines).1
  obtain ⟨opened, hne, hopened⟩ := hopens 0 []
  rw [List.append_nil] at hopened
  cases opened with
  | nil => exact absurd rfl hne
  | cons opener rest =>
      have hlevels := openedAt_front hfront depth (inner ++ back)
      rw [hopened, ← List.append_assoc] at hlevels
      refine ⟨front, back, opener, rest, _, rfl, hopened, hlevels.1, fun level hlevel => ?_⟩
      have hle := le_of_mem_levels hinner hlevel
      rw [(depthBehind_openLines hfront depth).1, hopened, List.length_cons] at hle
      omega

end Tide.Emit
