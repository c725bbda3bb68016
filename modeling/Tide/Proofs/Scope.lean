import Mathlib
import Tide.Scope

/-!
# The innermost scope

Names are bound in the innermost scope, and the scopes around it stay as they are.  So a scope that
is opened, filled in any way and taken away again gives back the scopes that were there before.
-/

namespace Tide

namespace Bindings

variable {α : Type}

theorem get?_cons (first : String) (value : α) (rest : Bindings α) (name : String) :
    get? ((first, value) :: rest) name = if first = name then some value else rest.get? name := by
  by_cases hfirst : first = name
  · simp [get?, hfirst]
  · have hname : (name == first) = false := beq_false_of_ne (Ne.symm hfirst)
    simp [get?, List.lookup, hfirst, hname]

theorem get?_set (bindings : Bindings α) (name : String) (value : α) (other : String) :
    (bindings.set name value).get? other =
      if name = other then some value else bindings.get? other := by
  induction bindings with
  | nil => exact get?_cons name value [] other
  | cons head tail ih =>
      rcases head with ⟨first, old⟩
      rw [set]
      by_cases hfirst : first = name
      · rw [if_pos hfirst, get?_cons, get?_cons, hfirst]
        split <;> rfl
      · rw [if_neg hfirst, get?_cons, ih, get?_cons]
        by_cases hother : first = other
        · have hname : name ≠ other := fun hname => hfirst (hother.trans hname.symm)
          simp only [if_pos hother, if_neg hname]
        · simp only [if_neg hother]

/-- The names of a scope are those that are bound in it. -/
theorem mem_names_iff {bindings : Bindings α} {name : String} :
    name ∈ bindings.names ↔ (bindings.get? name).isSome = true := by
  induction bindings with
  | nil => simp [names, get?]
  | cons head tail ih =>
      rcases head with ⟨first, value⟩
      rw [get?_cons, names, List.map_cons, List.mem_cons, ← names, ih]
      by_cases hfirst : first = name
      · simp [hfirst]
      · simp [hfirst, Ne.symm hfirst]

end Bindings

namespace Scopes

variable {α : Type} (scopes : Scopes α)

/-- The scopes with these bindings in place of those of the innermost scope. -/
def withInnermost (bindings : Bindings α) : Scopes α :=
  match scopes.inner with
  | [] => { scopes with outermost := bindings }
  | _ :: inner => { scopes with inner := bindings :: inner }

@[simp]
theorem innermost_withInnermost (bindings : Bindings α) :
    (scopes.withInnermost bindings).innermost = bindings := by
  rcases scopes with ⟨outermost, _ | ⟨innermost, inner⟩⟩ <;> rfl

@[simp]
theorem withInnermost_innermost : scopes.withInnermost scopes.innermost = scopes := by
  rcases scopes with ⟨outermost, _ | ⟨innermost, inner⟩⟩ <;> rfl

@[simp]
theorem withInnermost_withInnermost (bindings later : Bindings α) :
    (scopes.withInnermost bindings).withInnermost later = scopes.withInnermost later := by
  rcases scopes with ⟨outermost, _ | ⟨innermost, inner⟩⟩ <;> rfl

@[simp]
theorem depth_withInnermost (bindings : Bindings α) :
    (scopes.withInnermost bindings).depth = scopes.depth := by
  rcases scopes with ⟨outermost, _ | ⟨innermost, inner⟩⟩ <;> rfl

theorem bind_eq_withInnermost (name : String) (value : α) :
    scopes.bind name value = scopes.withInnermost (scopes.innermost.set name value) := by
  rcases scopes with ⟨outermost, _ | ⟨innermost, inner⟩⟩ <;> rfl

theorem shallow?_bind (name : String) (value : α) (other : String) :
    (scopes.bind name value).shallow? other =
      if name = other then some value else scopes.shallow? other := by
  rw [bind_eq_withInnermost, shallow?, innermost_withInnermost, Bindings.get?_set]
  rfl

@[simp]
theorem innermost_push : scopes.push.innermost = [] := rfl

/-- A scope that was opened can be taken away, whatever was bound in it. -/
theorem pop_push_withInnermost (bindings : Bindings α) :
    (scopes.push.withInnermost bindings).pop = .ok (bindings, scopes) := rfl

end Scopes

end Tide
