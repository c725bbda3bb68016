import Tide.Proofs.Emit.Leading

/-!
# What a `break` leaves

A `break` is meant to leave the loop around it, and so it does through branches, matches and tries.
A native switch between the two is left instead, where the same switch with other labels, which is
tested case by case, would let the `break` through to the loop.
-/

namespace Tide.Emit

def outputLines (program : Program) : List Command := ((commands program).run .start).1

/-- The lines of whatever statement stands at this place begin at this position of the output. -/
def StartsAt (locus : Locus) (position : Nat) : Prop :=
  ∃ front next, front.length = position ∧ ∀ statement, hasOwnLines statement = true →
    ∃ back, outputLines (locus.fill statement) = front ++ ((stmt statement).run next).1 ++ back

namespace StartsAt

variable {locus : Locus} {first second : Nat}

/-- Different statements at the place show that nothing in front of its position depends on them. -/
theorem le_of_startsAt (hfirst : StartsAt locus first) (hsecond : StartsAt locus second) :
    second ≤ first := by
  obtain ⟨front, next, rfl, hfront⟩ := hfirst
  obtain ⟨more, last, rfl, hmore⟩ := hsecond
  by_contra hlt
  have hline : ∀ (found : Action) (text : String), actionLines found = [text] →
      actionCommands found = pure ((actionLines found).map .line) →
      more[front.length]? = some (.line text) := by
    intro found text htext hcommands
    obtain ⟨back, hback⟩ := hfront (.simple 0 found) rfl
    obtain ⟨tail, htail⟩ := hmore (.simple 0 found) rfl
    have hstmt : ((stmt (.simple 0 found)).run next).1 = [.line text] := by
      rw [stmt, action, run_bind, hcommands, htext]
      rfl
    have hget : (outputLines (locus.fill (.simple 0 found)))[front.length]? =
        some (.line text) := by
      rw [hback, hstmt]
      simp
    rwa [htail, List.append_assoc, List.getElem?_append_left (by omega)] at hget
  have hbreak := hline .breakLoop "break;" rfl rfl
  have hcontinue := hline .continueLoop "continue;" rfl rfl
  rw [hbreak] at hcontinue
  exact absurd hcontinue (by decide)

theorem unique (hfirst : StartsAt locus first) (hsecond : StartsAt locus second) :
    first = second :=
  Nat.le_antisymm (hsecond.le_of_startsAt hfirst) (hfirst.le_of_startsAt hsecond)

end StartsAt

theorem hasOwnLines_of_captures {enclosure : Enclosure}
    (hcaptures : enclosure.isLoop = true ∨ enclosure.isNativeClause = true) (statement : Stmt) :
    hasOwnLines (enclosure.fill statement) = true := by
  cases enclosure with
  | nested line opener gap =>
      cases opener <;> first | rfl | rcases hcaptures with hloop | hnative <;> contradiction
  | case | switchFallback => rfl
  | _ => rcases hcaptures with hloop | hnative <;> contradiction

/-- A `break` in a loop or in a native switch leaves it, unless something in it is left before. -/
theorem exists_target (locus : Locus) {enclosure : Enclosure}
    (hcaptures : enclosure.isLoop = true ∨ enclosure.isNativeClause = true)
    (inner : List Enclosure) :
    ∃ start position, StartsAt locus start ∧ StartsAt (locus.within (enclosure :: inner)) position ∧
      start < position ∧ ((∀ other ∈ inner, other.isPassable = true) →
        ∀ statement, hasOwnLines statement = true →
          breakTarget ((outputLines ((locus.within (enclosure :: inner)).fill statement)).take
            position) = some start) := by
  obtain ⟨front, next, -, hfront⟩ := leads_locus locus .start
  have hinto : Leads (hasOwnLines · = true)
      (fun more => more ≠ [] ∧ ((∀ other ∈ inner, other.isPassable = true) → Captures more))
      (fun statement => stmt (enclosure.fill (Enclosure.fillAll inner statement))) stmt := by
    have hcapturing : Leads (fun _ => True) Captures _ _ := leads_capturing hcaptures
    refine (hcapturing.comp fun _ _ => trivial).trans (leads_path enclosure.slot inner) ?_
    intro more rest hmore hrest
    exact ⟨by simp [hmore.ne_nil], fun hpassable => hmore.append (hrest hpassable)⟩
  obtain ⟨more, last, ⟨hne, hmore⟩, hlines⟩ := hinto next
  have houtput : ∀ statement, hasOwnLines statement = true → ∃ back,
      outputLines ((locus.within (enclosure :: inner)).fill statement) =
        front ++ more ++ ((stmt statement).run last).1 ++ back := by
    intro statement hown
    obtain ⟨back, hback⟩ := hfront (enclosure.fill (Enclosure.fillAll inner statement))
      (hasOwnLines_of_captures hcaptures _)
    obtain ⟨tail, htail⟩ := hlines statement hown
    refine ⟨tail ++ back, ?_⟩
    rw [Locus.fill_within, outputLines, Enclosure.fillAll, List.foldr_cons, ← Enclosure.fillAll]
    rw [hback, htail]
    simp only [List.append_assoc]
  refine ⟨front.length, (front ++ more).length, ⟨front, next, rfl, hfront⟩,
    ⟨front ++ more, last, rfl, houtput⟩, ?_, fun hpassable statement hown => ?_⟩
  · rw [List.length_append]
    exact Nat.lt_add_of_pos_right (List.length_pos_iff.mpr hne)
  · obtain ⟨back, hback⟩ := houtput statement hown
    rw [hback, List.append_assoc, List.take_left]
    exact (hmore hpassable).breakTarget

theorem exists_last_native {inner : List Enclosure}
    (hnative : ∃ enclosure ∈ inner, enclosure.isNativeClause = true) :
    ∃ outer clause deeper, inner = outer ++ clause :: deeper ∧ clause.isNativeClause = true ∧
      ∀ enclosure ∈ deeper, enclosure.isNativeClause = false := by
  induction inner with
  | nil => simp at hnative
  | cons first rest ih =>
      by_cases hrest : ∃ enclosure ∈ rest, enclosure.isNativeClause = true
      · obtain ⟨outer, clause, deeper, rfl, hclause, hdeeper⟩ := ih hrest
        exact ⟨first :: outer, clause, deeper, rfl, hclause, hdeeper⟩
      · refine ⟨[], first, rest, rfl, ?_, ?_⟩
        · simpa [hrest] using hnative
        · simpa using hrest

/-- Every `break` has its place.  Inside a loop, with no task and no function between the two, it
leaves the loop exactly if no clause of a native switch is between them; otherwise it leaves the
innermost such switch. -/
theorem break_leaves_loop_iff (program : Program) (line : Nat) :
    (Program.Contains program (.simple line .breakLoop) →
      ∃ locus : Locus, locus.fill (.simple line .breakLoop) = program) ∧
    ∀ (locus : Locus) (loop : Enclosure) (inner : List Enclosure),
      (locus.within (loop :: inner)).fill (.simple line .breakLoop) = program →
      loop.isLoop = true →
      (∀ enclosure ∈ inner, enclosure.isLoop = false ∧ enclosure.isDetached = false) →
      ∃ start position, StartsAt locus start ∧ StartsAt (locus.within (loop :: inner)) position ∧
        (outputLines program)[position]? = some (.line "break;") ∧
        (breakTarget ((outputLines program).take position) = some start ↔
          ∀ enclosure ∈ inner, enclosure.isNativeClause = false) ∧
        ∀ outer clause deeper, inner = outer ++ clause :: deeper →
          clause.isNativeClause = true →
          (∀ enclosure ∈ deeper, enclosure.isNativeClause = false) →
          ∃ switchStart, StartsAt (locus.within (loop :: outer)) switchStart ∧
            breakTarget ((outputLines program).take position) = some switchStart := by
  refine ⟨Program.Contains.exists_locus, ?_⟩
  rintro locus loop inner rfl hloop hinner
  have hpassable : ∀ deeper ⊆ inner, (∀ enclosure ∈ deeper, enclosure.isNativeClause = false) →
      ∀ enclosure ∈ deeper, enclosure.isPassable = true := by
    intro deeper hdeeper hnative enclosure hmem
    obtain ⟨hother, hdetached⟩ := hinner enclosure (hdeeper hmem)
    simp [Enclosure.isPassable, hother, hdetached, hnative enclosure hmem]
  obtain ⟨start, position, hstart, hposition, -, htarget⟩ :=
    exists_target locus (.inl hloop) inner
  have hswitch : ∀ outer clause deeper, inner = outer ++ clause :: deeper →
      clause.isNativeClause = true → (∀ enclosure ∈ deeper, enclosure.isNativeClause = false) →
      ∃ switchStart, StartsAt (locus.within (loop :: outer)) switchStart ∧
        breakTarget ((outputLines ((locus.within (loop :: inner)).fill
          (.simple line .breakLoop))).take position) = some switchStart := by
    rintro outer clause deeper rfl hclause hdeeper
    obtain ⟨switchStart, other, hswitchStart, hother, -, hleaves⟩ :=
      exists_target (locus.within (loop :: outer)) (.inr hclause) deeper
    have hwithin : (locus.within (loop :: outer)).within (clause :: deeper) =
        locus.within (loop :: (outer ++ clause :: deeper)) := by
      simp [Locus.within]
    rw [hwithin] at hother hleaves
    obtain rfl := hother.unique hposition
    exact ⟨switchStart, hswitchStart, hleaves (hpassable deeper (by simp) hdeeper) _ rfl⟩
  refine ⟨start, position, hstart, hposition, ?_, ⟨fun hleaves => ?_, fun hnative => ?_⟩, hswitch⟩
  · obtain ⟨front, next, rfl, hlines⟩ := hposition
    obtain ⟨back, hback⟩ := hlines (.simple line .breakLoop) rfl
    have hstmt : ((stmt (.simple line .breakLoop)).run next).1 = [.line "break;"] := by
      rw [stmt]
      rfl
    rw [hback, hstmt]
    simp
  · -- The innermost native switch begins behind the loop, so the `break` cannot leave both.
    by_contra hsome
    obtain ⟨outer, clause, deeper, hsplit, hclause, hdeeper⟩ :=
      exists_last_native (by simpa using hsome)
    obtain ⟨switchStart, hswitchStart, hleavesSwitch⟩ :=
      hswitch outer clause deeper hsplit hclause hdeeper
    obtain ⟨loopStart, other, hloopStart, hother, hlt, -⟩ :=
      exists_target locus (.inl hloop) outer
    have hsame : start = switchStart := Option.some.inj (hleaves.symm.trans hleavesSwitch)
    rw [hloopStart.unique hstart, hother.unique hswitchStart, hsame] at hlt
    exact absurd hlt (Nat.lt_irrefl _)
  · exact htarget (hpassable inner (List.Subset.refl _) hnative) _ rfl

/-- `while true { switch x { case LABEL { break } } }`, with a label of this value. -/
def breakInSwitch (label : Literal) : Program :=
  [.nested 1 (.whileLoop (.literal 1 (.boolean true)))
    ⟨1, [.switch 1 (.name 1 "x") [⟨label, ⟨1, [.simple 1 .breakLoop]⟩⟩] none]⟩]

theorem break_leaves_loop_iff_in_switch :
    ∃ start position, StartsAt ⟨[], [], []⟩ start ∧
      (outputLines (breakInSwitch (.number .one)))[position]? = some (.line "break;") ∧
      breakTarget ((outputLines (breakInSwitch (.number .one))).take position) ≠ some start := by
  obtain ⟨start, position, hstart, -, hbreak, hleaves, -⟩ :=
    (break_leaves_loop_iff (breakInSwitch (.number .one)) 1).2 ⟨[], [], []⟩
      (.nested 1 (.whileLoop (.literal 1 (.boolean true))) ⟨1, [], []⟩)
      [.case 1 (.name 1 "x") [] (.number .one) ⟨1, [], []⟩ [] none] rfl rfl
      (by simp [Enclosure.isLoop, Enclosure.isDetached])
  refine ⟨start, position, hstart, hbreak, fun htarget => ?_⟩
  exact absurd (hleaves.mp htarget _ List.mem_cons_self) (by decide +kernel)

/-- With the label `1` the `break` leaves the switch, which the endless loop then runs again; with
the label `true` it leaves the loop. -/
theorem break_leaves_native_switch :
    (outputLines (breakInSwitch (.number .one))).take 6 =
        [openBrace "int main() ", .line "std::cout << std::boolalpha;", openBrace "while (true) ",
         openBrace "switch (static_cast<long long>(x)) ", openBrace "case 1: ", .line "break;"] ∧
      breakTarget ((outputLines (breakInSwitch (.number .one))).take 5) = some 3 ∧
      (outputLines (breakInSwitch (.boolean true))).take 9 =
        [openBrace "int main() ", .line "std::cout << std::boolalpha;", openBrace "while (true) ",
         openBrace "", .line "const auto tide_match_0 = x;", .line "bool tide_matched_1 = false;",
         openBrace "if (!tide_matched_1 && (tide_match_0 == true)) ",
         .line "tide_matched_1 = true;", .line "break;"] ∧
      breakTarget ((outputLines (breakInSwitch (.boolean true))).take 8) = some 2 := by
  decide +kernel

end Tide.Emit
