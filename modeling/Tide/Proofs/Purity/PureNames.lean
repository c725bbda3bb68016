import Mathlib
import Tide.Analysis.FunctionTable

/-!
# Transitively pure names

Names are dropped in rounds until the rest is closed under calls of declared names.  Each round that
drops a name shortens the list, so there are enough rounds, and what is left is both clean and
closed.  The table of functions says of every declared name whether it is left.
-/

namespace Tide.Analysis

/-! ## Rounds -/

section

variable (callees : String → List String) (declared : List String)

theorem keepClosed_sublist (names : List String) :
    (keepClosed callees declared names).Sublist names :=
  List.filter_sublist

/-- Once a round drops nothing, no later one does. -/
theorem settle_of_keepClosed {names : List String}
    (hclosed : keepClosed callees declared names = names) (rounds : Nat) :
    settle callees declared rounds names = names := by
  induction rounds with
  | zero => rfl
  | succ rounds ih => rw [settle, hclosed, ih]

/-- As many rounds as there are names are enough. -/
theorem keepClosed_settle {rounds : Nat} {names : List String} (hrounds : names.length ≤ rounds) :
    keepClosed callees declared (settle callees declared rounds names) =
      settle callees declared rounds names := by
  induction rounds generalizing names with
  | zero =>
      rw [List.eq_nil_of_length_eq_zero (Nat.le_zero.mp hrounds)]
      rfl
  | succ rounds ih =>
      rw [settle]
      by_cases hclosed : keepClosed callees declared names = names
      · rw [hclosed, settle_of_keepClosed callees declared hclosed, hclosed]
      · have hsublist := keepClosed_sublist callees declared names
        have hlength : (keepClosed callees declared names).length < names.length :=
          lt_of_le_of_ne hsublist.length_le fun heq => hclosed (hsublist.eq_of_length heq)
        exact ih (by omega)

theorem settle_sublist (rounds : Nat) (names : List String) :
    (settle callees declared rounds names).Sublist names := by
  induction rounds generalizing names with
  | zero => exact List.Sublist.refl names
  | succ rounds ih => exact (ih _).trans (keepClosed_sublist callees declared names)

end

/-! ## Declared names -/

theorem mem_firstDeclarations {declarations : List FunctionDecl} {declaration : FunctionDecl}
    (hdeclaration : declaration ∈ declarations) {seen : List String}
    (hseen : declaration.name ∉ seen) :
    ∃ first ∈ firstDeclarations seen declarations, first.name = declaration.name := by
  induction declarations generalizing seen with
  | nil => simp at hdeclaration
  | cons head tail ih =>
      rw [firstDeclarations]
      split
      case isTrue hhead =>
        rcases List.mem_cons.mp hdeclaration with rfl | htail
        · simp [hseen] at hhead
        · exact ih htail hseen
      case isFalse =>
        by_cases hname : head.name = declaration.name
        · exact ⟨head, List.mem_cons_self, hname⟩
        · have htail : declaration ∈ tail := by
            rcases List.mem_cons.mp hdeclaration with rfl | htail
            · exact absurd rfl hname
            · exact htail
          obtain ⟨first, hfirst, heq⟩ := ih htail
            (List.not_mem_cons_of_ne_of_not_mem (Ne.symm hname) hseen)
          exact ⟨first, List.mem_cons_of_mem _ hfirst, heq⟩

theorem mem_declared {declarations : List FunctionDecl} {declaration : FunctionDecl}
    (hdeclaration : declaration ∈ declarations) :
    declaration.name ∈ (firstDeclarations [] declarations).map (·.name) := by
  obtain ⟨first, hfirst, hname⟩ := mem_firstDeclarations hdeclaration List.not_mem_nil
  exact List.mem_map.mpr ⟨first, hfirst, hname⟩

theorem mem_of_mem_firstDeclarations {seen : List String} {declarations : List FunctionDecl}
    {declaration : FunctionDecl} (hfirst : declaration ∈ firstDeclarations seen declarations) :
    declaration ∈ declarations := by
  fun_induction firstDeclarations seen declarations with
  | case1 => exact hfirst
  | case2 seen head tail hseen ih => exact List.mem_cons_of_mem _ (ih hfirst)
  | case3 seen head tail hseen ih =>
      rcases List.mem_cons.mp hfirst with rfl | hfirst
      · exact List.mem_cons_self
      · exact List.mem_cons_of_mem _ (ih hfirst)

/-! ## What is left -/

/-- Every declaration of a name that is left is clean. -/
theorem isClean_of_mem_pureNames {declarations : List FunctionDecl} {declaration : FunctionDecl}
    (hpure : declaration.name ∈ pureNames declarations)
    (hdeclaration : declaration ∈ declarations) :
    (Effects.ofFunction declaration).isClean = true := by
  have hclean := (List.mem_filter.mp ((settle_sublist _ _ _ _).subset hpure)).2
  rw [isCleanName, List.all_eq_true] at hclean
  exact hclean declaration (by simp [hdeclaration])

/-- The declared names that a name that is left calls are left too. -/
theorem callee_mem_pureNames {declarations : List FunctionDecl} {caller callee : FunctionDecl}
    (hpure : caller.name ∈ pureNames declarations) (hcaller : caller ∈ declarations)
    (hcall : callee.name ∈ (Effects.ofFunction caller).calls.map (·.2))
    (hcallee : callee ∈ declarations) : callee.name ∈ pureNames declarations := by
  have hclosed : caller.name ∈ keepClosed (calleesOf declarations)
      ((firstDeclarations [] declarations).map (·.name)) (pureNames declarations) := by
    rw [pureNames, keepClosed_settle]
    · exact hpure
    · exact List.length_filter_le _ _
  rw [keepClosed, List.mem_filter, List.all_eq_true] at hclosed
  have hcallees : callee.name ∈ calleesOf declarations caller.name := by
    rw [calleesOf, List.mem_flatMap]
    exact ⟨caller, by simp [hcaller], hcall⟩
  have hkept := hclosed.2 callee.name hcallees
  simpa [List.contains_eq_mem, mem_declared hcallee] using hkept

/-! ## The table -/

/-- The entry of a declared name says whether the name is left. -/
theorem find_functionTable {program : Program} {declaration : FunctionDecl}
    (hdeclaration : declaration ∈ program.functions) :
    ∃ info, program.functionTable.find declaration.name = some info ∧
      (info.transitivelyPure = true ↔ declaration.name ∈ pureNames program.functions) := by
  obtain ⟨first, hfirst, hname⟩ := mem_firstDeclarations hdeclaration List.not_mem_nil
  have hentry : FunctionInfo.ofDeclaration first
      ((pureNames program.functions).contains first.name) ∈ program.functionTable :=
    List.mem_map.mpr ⟨first, hfirst, rfl⟩
  have hfound : (program.functionTable.find declaration.name).isSome = true := by
    rw [FunctionTable.find, List.find?_isSome]
    exact ⟨_, hentry, by simpa [FunctionInfo.ofDeclaration] using hname⟩
  obtain ⟨info, hinfo⟩ := Option.isSome_iff_exists.mp hfound
  refine ⟨info, hinfo, ?_⟩
  rw [FunctionTable.find] at hinfo
  have hinfoName := List.find?_some hinfo
  obtain ⟨original, -, rfl⟩ := List.mem_map.mp (List.mem_of_find?_eq_some hinfo)
  rw [← beq_iff_eq.mp hinfoName]
  simp [FunctionInfo.ofDeclaration]

end Tide.Analysis
