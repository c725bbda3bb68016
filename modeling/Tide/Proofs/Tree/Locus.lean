import Tide.Proofs.Tree.Occurrence

/-!
# Places in a program

A place is where a statement stands in a program: a program with a gap in it, which any statement
can fill.  A path leads to it, from the top of the program through the statements around it.
-/

namespace Tide

/-- A block with a gap for a statement. -/
structure Gap where
  line : Nat
  front : List Stmt
  back : List Stmt

namespace Gap

def fill (gap : Gap) (statement : Stmt) : Block :=
  ⟨gap.line, gap.front ++ statement :: gap.back⟩

/-- The block without a statement in the gap. -/
def closed (gap : Gap) : Block := ⟨gap.line, gap.front ++ gap.back⟩

end Gap

/-- A statement with a gap for one that stands directly in it. -/
inductive Enclosure where
  | nested (line : Nat) (opener : Opener) (gap : Gap)
  | positive (line : Nat) (condition : Expr) (gap : Gap) (branch : Option Stmt)
  | negative (line : Nat) (condition : Expr) (positive : Block)
  | case (line : Nat) (scrutinee : Expr) (front : List SwitchCase) (label : Literal) (gap : Gap)
      (back : List SwitchCase) (fallback : Option Block)
  | switchFallback (line : Nat) (scrutinee : Expr) (cases : List SwitchCase) (gap : Gap)
  | arm (line : Nat) (scrutinee : Expr) (front : List MatchArm) (patterns : List Pattern)
      (gap : Gap) (back : List MatchArm) (fallback : Option Block)
  | selectFallback (line : Nat) (scrutinee : Expr) (arms : List MatchArm) (gap : Gap)
  | body (line : Nat) (gap : Gap) (binding : Option String) (handler : Block)
  | handler (line : Nat) (body : Block) (binding : Option String) (gap : Gap)
  | function (line : Nat) (declaration : FunctionDecl) (gap : Gap)
  | method (line : Nat) (declaration : ClassDecl) (front : List ClassMember) (access : Access)
      (method : FunctionDecl) (gap : Gap) (back : List ClassMember)

/-- The gap that a statement fills: one in a block, or the one behind an `else`. -/
inductive Slot where
  | gap (gap : Gap)
  | otherwise

namespace Enclosure

def fill (statement : Stmt) : Enclosure → Stmt
  | nested line opener gap => .nested line opener (gap.fill statement)
  | positive line condition gap branch => .branch line condition (gap.fill statement) branch
  | negative line condition before => .branch line condition before (some statement)
  | case line scrutinee front label gap back fallback =>
    .switch line scrutinee (front ++ ⟨label, gap.fill statement⟩ :: back) fallback
  | switchFallback line scrutinee cases gap =>
    .switch line scrutinee cases (some (gap.fill statement))
  | arm line scrutinee front patterns gap back fallback =>
    .select line scrutinee (front ++ ⟨patterns, gap.fill statement⟩ :: back) fallback
  | selectFallback line scrutinee arms gap =>
    .select line scrutinee arms (some (gap.fill statement))
  | body line gap binding rescue => .attempt line (gap.fill statement) binding rescue
  | handler line tried binding gap => .attempt line tried binding (gap.fill statement)
  | function line declaration gap =>
    .function line { declaration with body := gap.fill statement }
  | method line declaration front access called gap back =>
    .classDecl line { declaration with
      members := front ++ .method access { called with body := gap.fill statement } :: back }

def slot : Enclosure → Slot
  | negative _ _ _ => .otherwise
  | nested _ _ gap | positive _ _ gap _ | case _ _ _ _ gap _ _ | switchFallback _ _ _ gap
  | arm _ _ _ _ gap _ _ | selectFallback _ _ _ gap | body _ gap _ _ | handler _ _ _ gap
  | function _ _ gap | method _ _ _ _ _ gap _ => .gap gap

/-- The body of a loop. -/
def isLoop : Enclosure → Bool
  | nested _ (.whileLoop _) _ | nested _ (.forLoop _) _ => true
  | _ => false

/-- What stands inside runs on its own, as a task or as the body of a function. -/
def isDetached : Enclosure → Bool
  | nested _ (.schedule _) _ | function _ _ _ | method _ _ _ _ _ _ _ => true
  | _ => false

/-- The statement in all of these, each in the one before it. -/
def fillAll (path : List Enclosure) (statement : Stmt) : Stmt :=
  path.foldr (fun enclosure inner => enclosure.fill inner) statement

end Enclosure

/-- A place in a program. -/
structure Locus where
  front : Program
  path : List Enclosure
  back : Program

namespace Locus

def fill (locus : Locus) (statement : Stmt) : Program :=
  locus.front ++ Enclosure.fillAll locus.path statement :: locus.back

/-- The place further in. -/
def within (locus : Locus) (inner : List Enclosure) : Locus :=
  { locus with path := locus.path ++ inner }

theorem fill_within (locus : Locus) (inner : List Enclosure) (statement : Stmt) :
    (locus.within inner).fill statement = locus.fill (Enclosure.fillAll inner statement) := by
  simp [fill, within, Enclosure.fillAll]

end Locus

/-! ## Every statement has its place -/

theorem Block.exists_gap {block : Block} {statement : Stmt}
    (hstatement : statement ∈ block.statements) : ∃ gap : Gap, gap.fill statement = block := by
  obtain ⟨line, statements⟩ := block
  obtain ⟨front, back, rfl⟩ := List.append_of_mem hstatement
  exact ⟨⟨line, front, back⟩, rfl⟩

theorem Stmt.Holds.exists_enclosure {parent child : Stmt} (hholds : parent.Holds child) :
    ∃ enclosure : Enclosure, enclosure.fill child = parent := by
  cases hholds with
  | nested hchild =>
      obtain ⟨gap, rfl⟩ := Block.exists_gap hchild
      exact ⟨.nested _ _ gap, rfl⟩
  | positive hchild =>
      obtain ⟨gap, rfl⟩ := Block.exists_gap hchild
      exact ⟨.positive _ _ gap _, rfl⟩
  | negative => exact ⟨.negative _ _ _, rfl⟩
  | @case _ _ _ _ clause _ hclause hchild =>
      obtain ⟨label, body⟩ := clause
      obtain ⟨gap, rfl⟩ := Block.exists_gap hchild
      obtain ⟨front, back, rfl⟩ := List.append_of_mem hclause
      exact ⟨.case _ _ front label gap back _, rfl⟩
  | switchFallback hchild =>
      obtain ⟨gap, rfl⟩ := Block.exists_gap hchild
      exact ⟨.switchFallback _ _ _ gap, rfl⟩
  | @arm _ _ _ _ clause _ hclause hchild =>
      obtain ⟨patterns, body⟩ := clause
      obtain ⟨gap, rfl⟩ := Block.exists_gap hchild
      obtain ⟨front, back, rfl⟩ := List.append_of_mem hclause
      exact ⟨.arm _ _ front patterns gap back _, rfl⟩
  | selectFallback hchild =>
      obtain ⟨gap, rfl⟩ := Block.exists_gap hchild
      exact ⟨.selectFallback _ _ _ gap, rfl⟩
  | body hchild =>
      obtain ⟨gap, rfl⟩ := Block.exists_gap hchild
      exact ⟨.body _ gap _ _, rfl⟩
  | handler hchild =>
      obtain ⟨gap, rfl⟩ := Block.exists_gap hchild
      exact ⟨.handler _ _ _ gap, rfl⟩

theorem Stmt.Declares.exists_enclosure {parent child : Stmt} {declaration : FunctionDecl}
    (hdeclares : parent.Declares declaration) (hchild : child ∈ declaration.body.statements) :
    ∃ enclosure : Enclosure, enclosure.fill child = parent := by
  obtain ⟨_, _, _, _, _, _, body⟩ := declaration
  obtain ⟨gap, rfl⟩ := Block.exists_gap hchild
  cases hdeclares with
  | function => exact ⟨.function _ ⟨_, _, _, _, _, _, gap.fill child⟩ gap, rfl⟩
  | @method line parent access _ hmethod =>
      obtain ⟨_, _, _, _, members⟩ := parent
      obtain ⟨front, back, rfl⟩ := List.append_of_mem hmethod
      exact ⟨.method line ⟨_, _, _, _, []⟩ front access ⟨_, _, _, _, _, _, gap.fill child⟩ gap back,
        rfl⟩

/-- Every statement that stands in a program has a place there. -/
theorem Program.Contains.exists_locus {program : Program} {statement : Stmt}
    (hcontains : Program.Contains program statement) :
    ∃ locus : Locus, locus.fill statement = program := by
  induction hcontains with
  | direct hstatement =>
      obtain ⟨front, back, rfl⟩ := List.append_of_mem hstatement
      exact ⟨⟨front, [], back⟩, rfl⟩
  | inner hparent hholds ih =>
      obtain ⟨locus, rfl⟩ := ih
      obtain ⟨enclosure, rfl⟩ := hholds.exists_enclosure
      exact ⟨locus.within [enclosure], locus.fill_within [enclosure] _⟩
  | declared hparent hdeclares hchild ih =>
      obtain ⟨locus, rfl⟩ := ih
      obtain ⟨enclosure, rfl⟩ := hdeclares.exists_enclosure hchild
      exact ⟨locus.within [enclosure], locus.fill_within [enclosure] _⟩

end Tide
