import Tide.Proofs.Optimize.Rounds
import Tide.Proofs.Tree.Children
import Tide.Proofs.Tree.Rewriting

/-!
# Blocks cut behind a return

Pruning keeps of every block, however deep it is nested, the statements up to the first return that
stands directly in it.  Nothing else in a program is touched: the kept statements stay in order, a
return in an inner block does not cut the outer one, and the top level is never cut.
-/

namespace Tide

namespace Optimize

/-- Some of these statements is a return. -/
def HasReturn (statements : List Stmt) : Prop :=
  ∃ statement ∈ statements, statement.isReturn = true

/-- The second list is the shortest start of the first one that has a return, or all of it if it has
none. -/
structure UpToReturn (statements kept : List Stmt) : Prop where
  start : kept <+: statements
  hasReturn : HasReturn statements → HasReturn kept
  shortest : ∀ start, start <+: statements → HasReturn start → kept <+: start
  whole : ¬HasReturn statements → kept = statements

/-- Every block is kept up to its first return, and all expressions stay. -/
def cutting : Rewriting where
  expression before after := after = before
  printed before after := after = before
  keeps := UpToReturn

theorem hasReturn_cons {first : Stmt} {rest : List Stmt} :
    HasReturn (first :: rest) ↔ first.isReturn = true ∨ HasReturn rest := by
  simp [HasReturn]

theorem not_hasReturn_nil : ¬HasReturn [] := by
  simp [HasReturn]

theorem upToReturn_throughReturn (statements : List Stmt) :
    UpToReturn statements (throughReturn statements) := by
  induction statements with
  | nil =>
      exact ⟨List.prefix_rfl, id, fun start hstart _ => List.nil_prefix, fun _ => rfl⟩
  | cons first rest ih =>
      rw [throughReturn]
      split
      case isTrue hfirst =>
        refine ⟨⟨rest, rfl⟩, fun _ => hasReturn_cons.mpr (.inl hfirst), ?_, ?_⟩
        · rintro (_ | ⟨head, tail⟩) hstart hreturn
          · exact absurd hreturn not_hasReturn_nil
          · obtain ⟨rfl, -⟩ := List.cons_prefix_cons.mp hstart
            exact ⟨tail, rfl⟩
        · exact fun hnone => absurd (hasReturn_cons.mpr (.inl hfirst)) hnone
      case isFalse hfirst =>
        have hrest : HasReturn (first :: rest) ↔ HasReturn rest := by
          rw [hasReturn_cons, or_iff_right hfirst]
        refine ⟨List.cons_prefix_cons.mpr ⟨rfl, ih.start⟩, ?_, ?_, ?_⟩
        · intro hreturn
          exact hasReturn_cons.mpr (.inr (ih.hasReturn (hrest.mp hreturn)))
        · rintro (_ | ⟨head, tail⟩) hstart hreturn
          · exact absurd hreturn not_hasReturn_nil
          · obtain ⟨rfl, htail⟩ := List.cons_prefix_cons.mp hstart
            have htailReturn := (hasReturn_cons.mp hreturn).resolve_left hfirst
            exact List.cons_prefix_cons.mpr ⟨rfl, ih.shortest tail htail htailReturn⟩
        · intro hnone
          rw [ih.whole (mt hrest.mpr hnone)]

theorem UpToReturn.unique {statements kept other : List Stmt} (hkept : UpToReturn statements kept)
    (hother : UpToReturn statements other) : kept = other := by
  by_cases hreturn : HasReturn statements
  · have hle := hkept.shortest other hother.start (hother.hasReturn hreturn)
    have hge := hother.shortest kept hkept.start (hkept.hasReturn hreturn)
    exact hle.eq_of_length_le hge.length_le
  · rw [hkept.whole hreturn, hother.whole hreturn]

/-- Nothing is kept behind a return. -/
theorem UpToReturn.eq_nil_of_append {statements kept front back : List Stmt}
    (hkept : UpToReturn statements kept) (happend : kept = front ++ back)
    (hreturn : HasReturn front) : back = [] := by
  have hfront : front <+: kept := ⟨back, happend.symm⟩
  have hlength := (hkept.shortest front (hfront.trans hkept.start) hreturn).length_le
  rw [happend, List.length_append] at hlength
  exact List.eq_nil_of_length_eq_zero (by omega)

theorem throughReturn_sublist (statements : List Stmt) :
    (throughReturn statements).Sublist statements :=
  (upToReturn_throughReturn statements).start.sublist

theorem realizes_pruning : pruning.Realizes cutting where
  expression _ _ := Iff.rfl
  printed _ _ := Iff.rfl
  keeps statements kept := by
    constructor
    · exact fun hkept => hkept.unique (upToReturn_throughReturn statements)
    · rintro rfl
      exact upToReturn_throughReturn statements
  subset statements := (throughReturn_sublist statements).subset
  choosesAlike := choosesAlike_pruning pruning

end Optimize

namespace Program

open Optimize

/-- The block stands anywhere in the program: in a statement at any depth, or as the body of a
function or method declared there. -/
def HasBlock (program : Program) (block : Block) : Prop :=
  ∃ statement, Contains program statement ∧ block ∈ ownBlocks statement

/-- Every block of a pruned program was a block before. -/
theorem exists_of_hasBlock_prune {program : Program} {block : Block}
    (hblock : program.prune.HasBlock block) :
    ∃ original, program.HasBlock original ∧ block = pruning.block original := by
  obtain ⟨statement, hcontains, hown⟩ := hblock
  rw [← mem_allStatements_iff] at hcontains
  have hmem := (Pass.allStatements_program_sublist throughReturn_sublist program).subset hcontains
  obtain ⟨before, hbefore, rfl⟩ := List.mem_map.mp hmem
  rw [Pass.ownBlocks_stmt] at hown
  obtain ⟨original, horiginal, rfl⟩ := List.mem_map.mp hown
  exact ⟨original, ⟨before, mem_allStatements_iff.mp hbefore, horiginal⟩, rfl⟩

/-- Pruning gives the one program in which every block is cut behind its first return and all else
is as before. -/
theorem prune_cuts_blocks (program : Program) :
    (∀ result, program.prune = result ↔ cutting.ProgramTo program result) ∧
      (∀ block, program.prune.HasBlock block →
        (∃ original, program.HasBlock original ∧ cutting.BlockTo original block) ∧
          ∀ front back, block.statements = front ++ back → HasReturn front → back = []) ∧
      program.prune.length = program.length := by
  refine ⟨fun result => ?_, fun block hblock => ?_, ?_⟩
  · rw [realizes_pruning.programTo_iff]
    exact eq_comm
  · obtain ⟨original, horiginal, rfl⟩ := exists_of_hasBlock_prune hblock
    constructor
    · refine ⟨original, horiginal, ?_⟩
      have hstatements : original.Forall (Pass.Realizes.Determines pruning cutting) :=
        fun statement _ => realizes_pruning.stmtTo_iff statement
      exact (realizes_pruning.blockTo_iff hstatements _).mpr rfl
    · intro front back happend hreturn
      rw [Pass.block_eq] at happend
      exact (upToReturn_throughReturn _).eq_nil_of_append happend hreturn
  · rw [prune, Pass.program, Pass.stmts_eq_map, List.length_map]

end Program

end Tide
