import Mathlib.Data.String.Basic
import Tide.Metadata

/-!
# The entries of the metadata

The metadata is a map: setting a key changes the value of that key only, and the keys stay in
ascending order.  The compiler's own entries win over the user's, and of the user's entries for a
key the last one wins.
-/

namespace Tide.Metadata

/-! ## Setting a key -/

theorem lookup_cons (key present value : String) (rest : List (String × String)) :
    ((present, value) :: rest).lookup key =
      if key = present then some value else rest.lookup key := by
  by_cases hkey : key = present
  · simp [hkey]
  · have hbeq : (key == present) = false := beq_false_of_ne hkey
    simp [List.lookup_cons, hbeq, hkey]

theorem lookup_insert (key value other : String) (entries : List (String × String)) :
    (insert key value entries).lookup other =
      if other = key then some value else entries.lookup other := by
  induction entries with
  | nil => rw [insert, lookup_cons]
  | cons first rest ih =>
      rcases first with ⟨present, old⟩
      rw [insert]
      split
      · rw [lookup_cons]
      · split
        next heq =>
          subst heq
          by_cases hother : other = key <;> simp [lookup_cons, hother]
        next hne =>
          by_cases hother : other = key
          · subst hother
            simp [lookup_cons, ih, hne]
          · simp [lookup_cons, ih, hother]

theorem get?_set (metadata : Metadata) (key value other : String) :
    (metadata.set key value).get? other =
      if other = key then some value else metadata.get? other :=
  lookup_insert key value other metadata.entries

/-- The keys stand in ascending order, each once. -/
def Ascending (entries : List (String × String)) : Prop :=
  entries.Pairwise fun first second => first.1 < second.1

theorem mem_insert {key value : String} {entry : String × String}
    {entries : List (String × String)} (hentry : entry ∈ insert key value entries) :
    entry = (key, value) ∨ entry ∈ entries := by
  induction entries with
  | nil => simpa [insert] using hentry
  | cons first rest ih =>
      rcases first with ⟨present, old⟩
      rw [insert] at hentry
      split at hentry
      · exact List.mem_cons.mp hentry
      · split at hentry
        · exact (List.mem_cons.mp hentry).imp_right (List.mem_cons_of_mem _)
        · rcases List.mem_cons.mp hentry with rfl | hrest
          · exact .inr List.mem_cons_self
          · exact (ih hrest).imp_right (List.mem_cons_of_mem _)

namespace Ascending

variable {entries : List (String × String)}

theorem insert (hascending : Ascending entries) (key value : String) :
    Ascending (insert key value entries) := by
  induction hascending with
  | nil => exact List.pairwise_singleton _ _
  | @cons first rest hfirst hrest ih =>
      rcases first with ⟨present, old⟩
      rw [Metadata.insert]
      split
      next hbefore =>
        refine .cons (fun entry hentry => ?_) (.cons hfirst hrest)
        rcases List.mem_cons.mp hentry with rfl | hentry
        · exact hbefore
        · exact hbefore.trans (hfirst entry hentry)
      next hbefore =>
        split
        next heq =>
          subst heq
          exact .cons hfirst hrest
        next hne =>
          refine .cons (fun entry hentry => ?_) ih
          rcases mem_insert hentry with rfl | hentry
          · exact lt_of_le_of_ne (not_lt.mp hbefore) (Ne.symm hne)
          · exact hfirst entry hentry

theorem set {metadata : Metadata} (hascending : Ascending metadata.entries) (key value : String) :
    Ascending (metadata.set key value).entries :=
  hascending.insert key value

/-- Where keys ascend, the entries are what can be looked up. -/
theorem mem_iff_lookup (hascending : Ascending entries) {key value : String} :
    (key, value) ∈ entries ↔ entries.lookup key = some value := by
  induction hascending with
  | nil => simp
  | @cons first rest hfirst hrest ih =>
      rcases first with ⟨present, old⟩
      rw [List.mem_cons, ih, lookup_cons]
      by_cases hkey : key = present
      · subst hkey
        have hnone : ¬ rest.lookup key = some value := fun hrest =>
          absurd (hfirst _ (ih.mpr hrest)) (lt_irrefl key)
        simp [hnone, eq_comm]
      · simp [hkey]

end Ascending

/-! ## The entries of a compilation -/

/-- The entries that the compiler sets itself. -/
def ownEntries (source : String) (options : CompileOptions) (flags : FeatureFlags) :
    List (String × String) :=
  [("source", source), ("std", options.std), ("opt_level", toString options.optLevel),
   ("compiler", compilerName), ("inspect", toString flags.inspect),
   ("replay", toString flags.replay), ("mutate", toString flags.mutate)]

/-- The metadata of a compilation, flags included. -/
def ofCompilation (source : String) (options : CompileOptions) (flags : FeatureFlags) : Metadata :=
  (create source options).value.recordFlags flags

theorem ofCompilation_eq (source : String) (options : CompileOptions) (flags : FeatureFlags) :
    ofCompilation source options flags = (ofOptions source options).recordFlags flags := rfl

section

variable {step : Metadata → String × String → Metadata}
variable (hstep : ∀ metadata entry, step metadata entry = metadata.set entry.1 entry.2)
include hstep

/-- Of entries that are set one after the other, the last one for a key wins. -/
theorem get?_foldl (added : List (String × String)) (metadata : Metadata) (key : String) :
    (added.foldl step metadata).get? key = (added.reverse.lookup key).or (metadata.get? key) := by
  induction added generalizing metadata with
  | nil => rfl
  | cons first rest ih =>
      rcases first with ⟨present, value⟩
      rw [List.foldl_cons, ih, hstep, get?_set, List.reverse_cons, List.lookup_append, lookup_cons,
        Option.or_assoc]
      by_cases hkey : key = present <;> simp [hkey]

theorem ascending_foldl (added : List (String × String)) {metadata : Metadata}
    (hascending : Ascending metadata.entries) : Ascending (added.foldl step metadata).entries := by
  induction added generalizing metadata with
  | nil => exact hascending
  | cons first rest ih =>
      rw [List.foldl_cons, hstep]
      exact ih (hascending.set _ _)

end

theorem ascending_ofCompilation (source : String) (options : CompileOptions)
    (flags : FeatureFlags) : Ascending (ofCompilation source options flags).entries := by
  have hempty : Ascending empty.entries := .nil
  have hown := (((hempty.set "source" source).set "std" options.std).set "opt_level"
    (toString options.optLevel)).set "compiler" compilerName
  exact (((ascending_foldl (fun _ _ => rfl) _ hown).set _ _).set _ _).set _ _

theorem lookup_filter_isReserved (entries : List (String × String)) (key : String) :
    (entries.filter (!isReserved ·)).lookup key =
      if key ∈ reservedKeys then none else entries.lookup key := by
  induction entries with
  | nil => simp
  | cons first rest ih =>
      rcases first with ⟨present, value⟩
      by_cases hreserved : present ∈ reservedKeys
      · rw [List.filter_cons_of_neg (by simpa [isReserved] using hreserved), ih, lookup_cons]
        by_cases hkey : key = present <;> simp [hkey, hreserved]
      · have hkept : ((present, value) :: rest).filter (!isReserved ·) =
            (present, value) :: rest.filter (!isReserved ·) :=
          List.filter_cons_of_pos (by simpa [isReserved] using hreserved)
        rw [hkept, lookup_cons, ih, lookup_cons]
        by_cases hkey : key = present <;> simp [hkey, hreserved]

theorem get?_ofOptions (source : String) (options : CompileOptions) (key : String) :
    (ofOptions source options).get? key =
      (if key ∈ reservedKeys then none else options.metadata.reverse.lookup key).or
        ([("compiler", compilerName), ("opt_level", toString options.optLevel),
          ("std", options.std), ("source", source)].lookup key) := by
  rw [ofOptions, get?_foldl (fun _ _ => rfl), ← List.filter_reverse, lookup_filter_isReserved]
  simp only [get?_set, lookup_cons]
  rfl

/-- The compiler's own entries come first, then the user's, the last one for each key. -/
theorem get?_ofCompilation (source : String) (options : CompileOptions) (flags : FeatureFlags)
    (key : String) :
    (ofCompilation source options flags).get? key =
      ((ownEntries source options flags).lookup key).or (options.metadata.reverse.lookup key) := by
  simp only [ofCompilation_eq, recordFlags, get?_set, get?_ofOptions, ownEntries, lookup_cons,
    List.lookup_nil]
  by_cases hkey : key ∈ reservedKeys
  · have hseven : key = "source" ∨ key = "std" ∨ key = "opt_level" ∨ key = "compiler" ∨
        key = "inspect" ∨ key = "replay" ∨ key = "mutate" := by
      simpa [reservedKeys] using hkey
    rcases hseven with rfl | rfl | rfl | rfl | rfl | rfl | rfl <;> simp [reservedKeys]
  · have hnone : key ≠ "source" ∧ key ≠ "std" ∧ key ≠ "opt_level" ∧ key ≠ "compiler" ∧
        key ≠ "inspect" ∧ key ≠ "replay" ∧ key ≠ "mutate" := by
      simpa [reservedKeys] using hkey
    simp [hkey, hnone]

end Tide.Metadata
