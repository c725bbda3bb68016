import Tide.Proofs.Scope

/-!
# Scopes by their depth

The outermost scope has depth zero, and a scope that is opened is one deeper than the one around it.
A name is bound in the deepest scope and rebound in the deepest scope that binds it.  So rebinding
never adds a name to a scope that lies around another.
-/

namespace Tide

namespace Bindings

variable {α : Type}

/-- Binding a name again adds no name. -/
theorem names_set_of_bound {bindings : Bindings α} {name : String}
    (hbound : (bindings.get? name).isSome = true) (value : α) :
    (bindings.set name value).names = bindings.names := by
  induction bindings with
  | nil => cases hbound
  | cons head tail ih =>
      rcases head with ⟨first, old⟩
      rw [get?_cons] at hbound
      rw [set]
      split
      case isTrue hfirst => simp [names, hfirst]
      case isFalse hfirst =>
        rw [if_neg hfirst] at hbound
        rw [names, List.map_cons, ← names, ih hbound]
        rfl

end Bindings

namespace Scopes

variable {α : Type}

/-- The scope of this depth, where there is one, and else no bindings. -/
def level (scopes : Scopes α) (depth : Nat) : Bindings α :=
  (scopes.outermost :: scopes.inner.reverse).getD depth []

/-! ## Opening, leaving and binding -/

/-- The innermost scope is the deepest. -/
theorem level_cons (outermost innermost : Bindings α) (inner : List (Bindings α)) (depth : Nat) :
    level ⟨outermost, innermost :: inner⟩ depth =
      if depth = inner.length + 1 then innermost else level ⟨outermost, inner⟩ depth := by
  have hlength : (outermost :: inner.reverse).length = inner.length + 1 := by simp
  rw [level, List.reverse_cons, ← List.cons_append]
  rcases Nat.lt_trichotomy depth (inner.length + 1) with hless | rfl | hmore
  · rw [if_neg hless.ne, List.getD_append _ _ _ _ (hlength ▸ hless), level]
  · rw [if_pos rfl, List.getD_append_right _ _ _ _ hlength.le, hlength, Nat.sub_self]
    rfl
  · have hlonger : (outermost :: inner.reverse ++ [innermost]).length ≤ depth := by
      rw [List.length_append, hlength]
      exact hmore
    rw [if_neg hmore.ne', level, List.getD_eq_default _ _ hlonger,
      List.getD_eq_default _ _ (hlength ▸ hmore.le)]

theorem level_of_depth_lt {scopes : Scopes α} {depth : Nat} (hdepth : scopes.depth < depth) :
    scopes.level depth = [] := by
  apply List.getD_eq_default
  simpa [Scopes.depth] using hdepth

/-- A scope that is opened binds nothing. -/
theorem level_push (scopes : Scopes α) (depth : Nat) :
    scopes.push.level depth = scopes.level depth := by
  rw [push, level_cons]
  split
  case isTrue heq => rw [level_of_depth_lt (by simp [Scopes.depth, heq])]
  case isFalse => rfl

theorem depth_leave (scopes : Scopes α) : scopes.leave.depth = scopes.depth - 1 := by
  rcases scopes with ⟨outermost, _ | ⟨innermost, inner⟩⟩ <;> rfl

/-- Leaving a scope keeps those around it. -/
theorem level_leave {scopes : Scopes α} {depth : Nat} (hdepth : depth < scopes.depth) :
    scopes.leave.level depth = scopes.level depth := by
  rcases scopes with ⟨outermost, _ | ⟨innermost, inner⟩⟩
  · cases hdepth
  · have hinner : depth ≠ inner.length + 1 := hdepth.ne
    rw [level_cons, if_neg hinner]
    rfl

theorem pop_ne_error {scopes : Scopes α} (hdepth : 0 < scopes.depth) (error : ScopeError) :
    scopes.pop ≠ .error error := by
  rcases scopes with ⟨outermost, _ | ⟨innermost, inner⟩⟩
  · cases hdepth
  · rintro ⟨⟩

theorem depth_bind (scopes : Scopes α) (name : String) (value : α) :
    (scopes.bind name value).depth = scopes.depth := by
  rw [bind_eq_withInnermost, depth_withInnermost]

/-- Binding changes the deepest scope only. -/
theorem level_bind (scopes : Scopes α) (name : String) (value : α) (depth : Nat) :
    (scopes.bind name value).level depth =
      if depth = scopes.depth then (scopes.level depth).set name value else scopes.level depth := by
  rcases scopes with ⟨outermost, _ | ⟨innermost, inner⟩⟩
  · cases depth <;> rfl
  · rw [bind, level_cons, level_cons]
    change (if depth = inner.length + 1 then _ else _) = if depth = inner.length + 1 then _ else _
    split <;> rfl

/-! ## Rebinding -/

/-- A name is rebound in the innermost of some scopes that binds it. -/
theorem level_of_rebindIn? {name : String} {value : α} {inner rebound : List (Bindings α)}
    (outermost : Bindings α) (hrebound : rebindIn? name value inner = some rebound) :
    rebound.length = inner.length ∧ ∃ place,
      (∀ depth, level ⟨outermost, rebound⟩ depth = if depth = place then
        (level ⟨outermost, inner⟩ depth).set name value else level ⟨outermost, inner⟩ depth) ∧
      (∀ depth, place < depth → (level ⟨outermost, inner⟩ depth).get? name = none) ∧
      ((level ⟨outermost, inner⟩ place).get? name).isSome = true := by
  induction inner generalizing rebound with
  | nil => cases hrebound
  | cons innermost inner ih =>
      rw [rebindIn?] at hrebound
      split at hrebound
      case isTrue hbound =>
        cases hrebound
        refine ⟨rfl, inner.length + 1, fun depth => ?_, fun depth hdepth => ?_, ?_⟩
        · rw [level_cons, level_cons]
          split <;> rfl
        · rw [level_of_depth_lt hdepth]
          rfl
        · rw [level_cons, if_pos rfl]
          exact hbound
      case isFalse hfree =>
        obtain ⟨rest, hrest, rfl⟩ := Option.map_eq_some_iff.mp hrebound
        obtain ⟨hlength, place, hlevel, hdeeper, hbound⟩ := ih hrest
        have hempty : level ⟨outermost, inner⟩ (inner.length + 1) = [] :=
          level_of_depth_lt (Nat.lt_succ_self _)
        have hplace : place ≠ inner.length + 1 := by
          rintro rfl
          rw [hempty] at hbound
          cases hbound
        refine ⟨congrArg Nat.succ hlength, place, fun depth => ?_, fun depth hdepth => ?_, ?_⟩
        · rw [level_cons, level_cons, hlength, hlevel]
          by_cases hdepth : depth = inner.length + 1
          · rw [if_pos hdepth, if_pos hdepth, if_neg (hdepth ▸ hplace.symm)]
          · rw [if_neg hdepth, if_neg hdepth]
        · rw [level_cons]
          split
          case isTrue => simpa using hfree
          case isFalse => exact hdeeper depth hdepth
        · rw [level_cons, if_neg hplace]
          exact hbound

/-- A name that is not rebound in the inner scopes is bound in none of them. -/
theorem get?_of_rebindIn?_eq_none {name : String} {value : α} {inner : List (Bindings α)}
    (outermost : Bindings α) (hnone : rebindIn? name value inner = none) {depth : Nat}
    (hdepth : 0 < depth) : (level ⟨outermost, inner⟩ depth).get? name = none := by
  induction inner with
  | nil =>
      rw [level_of_depth_lt hdepth]
      rfl
  | cons innermost inner ih =>
      rw [rebindIn?] at hnone
      split at hnone
      case isTrue => cases hnone
      case isFalse hfree =>
        rw [level_cons]
        split
        case isTrue => simpa using hfree
        case isFalse => exact ih (Option.map_eq_none_iff.mp hnone)

theorem level_outermost (outermost changed : Bindings α) (inner : List (Bindings α)) (depth : Nat) :
    level ⟨changed, inner⟩ depth =
      if depth = 0 then changed else level ⟨outermost, inner⟩ depth := by
  cases depth <;> rfl

/-- Rebinding changes one scope.  No deeper scope binds the name, and this one does if it is not the
deepest. -/
theorem level_rebind (scopes : Scopes α) (name : String) (value : α) :
    (scopes.rebind name value).depth = scopes.depth ∧ ∃ place,
      (∀ depth, (scopes.rebind name value).level depth =
        if depth = place then (scopes.level depth).set name value else scopes.level depth) ∧
      (∀ depth, place < depth → (scopes.level depth).get? name = none) ∧
      (((scopes.level place).get? name).isSome = true ∨ place = scopes.depth) := by
  rcases scopes with ⟨outermost, inner⟩
  cases hrebound : rebindIn? name value inner with
  | some rebound =>
      obtain ⟨hlength, place, hlevel, hdeeper, hbound⟩ := level_of_rebindIn? outermost hrebound
      simp only [rebind, hrebound]
      exact ⟨hlength, place, hlevel, hdeeper, .inl hbound⟩
  | none =>
      have hinner : ∀ depth, 0 < depth → (level ⟨outermost, inner⟩ depth).get? name = none :=
        fun depth hdepth => get?_of_rebindIn?_eq_none outermost hrebound hdepth
      simp only [rebind, hrebound]
      split
      case isTrue hbound =>
        refine ⟨rfl, 0, fun depth => ?_, hinner, .inl hbound⟩
        rw [level_outermost outermost]
        split
        case isTrue hdepth =>
          subst hdepth
          rfl
        case isFalse => rfl
      case isFalse =>
        refine ⟨depth_bind .., depth ⟨outermost, inner⟩, level_bind _ name value, ?_, .inr rfl⟩
        intro depth hdepth
        rw [level_of_depth_lt hdepth]
        rfl

end Scopes

end Tide
