import Tide.Proofs.Emit.Writing

/-!
# Which lines are open

A line of the output stands in the blocks that lines before it have opened and no line has closed.
A `break` there leaves the innermost of these blocks that is a loop or a switch.  Whatever emission
writes for a statement closes what it opens.
-/

namespace Tide.Emit

/-- The lines that are still open behind these lines, the innermost first, each with its position.
The line of an `else` closes one block of an `if` and opens the other, so it changes nothing. -/
def openLines : (position : Nat) → (around : List (Nat × String)) → List Command →
    List (Nat × String)
  | _, around, [] => around
  | position, around, .indent text :: rest =>
    openLines (position + 1) ((position, text) :: around) rest
  | position, around, .dedent _ :: rest => openLines (position + 1) around.tail rest
  | position, around, .line _ :: rest | position, around, .outer _ :: rest
  | position, around, .blank :: rest => openLines (position + 1) around rest

/-- The line opens a loop or a switch. -/
def isBreakable (text : String) : Bool :=
  ["while (", "for (", "switch ("].any fun opening => opening.toList.isPrefixOf text.toList

/-- The position of the innermost line that opens a loop or a switch. -/
def innermost (around : List (Nat × String)) : Option Nat :=
  (around.find? (isBreakable ·.2)).map (·.1)

/-- Where the loop or the switch begins that a `break` behind these lines leaves. -/
def breakTarget (lines : List Command) : Option Nat := innermost (openLines 0 [] lines)

/-- Further lines go on with what is open. -/
theorem openLines_append (position : Nat) (around : List (Nat × String))
    (front back : List Command) :
    openLines position around (front ++ back) =
      openLines (position + front.length) (openLines position around front) back := by
  induction front generalizing position around with
  | nil => rfl
  | cons first rest ih =>
      rw [List.length_cons, Nat.add_comm rest.length, ← Nat.add_assoc]
      cases first <;> exact ih ..

/-- What the lines open they also close. -/
def Balanced (lines : List Command) : Prop :=
  ∀ position around, openLines position around lines = around

theorem Balanced.append {front back : List Command} (hfront : Balanced front)
    (hback : Balanced back) : Balanced (front ++ back) := by
  intro position around
  rw [openLines_append, hfront, hback]

theorem Balanced.enclosed {lines : List Command} (hlines : Balanced lines)
    (opening closing : String) :
    Balanced (.indent opening :: lines ++ [.dedent closing]) := by
  intro position around
  rw [List.cons_append, openLines, openLines_append, hlines]
  rfl

theorem balanced_lines {α : Type} (text : α → String) (parts : List α) :
    Balanced (parts.map fun part => .line (text part)) := by
  induction parts with
  | nil => exact fun _ _ => rfl
  | cons first rest ih => exact fun position around => ih (position + 1) around

/-- Whatever is written for statements is closed again. -/
theorem Writes.balanced {inside : Bool} {found : List Stmt} {before after : Emission}
    {lines : List Command} (hlines : Writes inside found before lines after) :
    Balanced lines := by
  induction hlines with
  | nothing | line | blank | outer | handOut | note => exact fun _ _ => rfl
  | append hfront hback ihFront ihBack => exact ihFront.append ihBack
  | enclosed opening closing hlines ih => exact ih.enclosed opening closing

theorem balanced_block (body : Block) (emission : Emission) :
    Balanced ((block body).run emission).1 :=
  (writtenBlock body true emission).balanced

theorem balanced_stmts (statements : List Stmt) (emission : Emission) :
    Balanced ((stmts none statements).run emission).1 :=
  (writesFrom_none.mp (writesFrom_stmts (fun found _ => written found) true none emission
    (by simp))).balanced

theorem balanced_eachOf {α : Type} {emitOne : α → Emitter (List Command)}
    (heach : ∀ part emission, Balanced ((emitOne part).run emission).1) (parts : List α)
    (emission : Emission) : Balanced ((eachOf emitOne parts).run emission).1 := by
  induction parts generalizing emission with
  | nil => exact fun _ _ => rfl
  | cons first rest ih => exact (heach first emission).append (ih _)

/-! ## What a `break` behind the lines leaves -/

/-- Behind the lines a `break` leaves what it would leave in front of them. -/
def Transparent (lines : List Command) : Prop :=
  ∀ position around, innermost (openLines position around lines) = innermost around

/-- Behind the lines a `break` leaves what their first line opens. -/
def Captures (lines : List Command) : Prop :=
  ∀ position around, innermost (openLines position around lines) = some position

theorem Balanced.transparent {lines : List Command} (hlines : Balanced lines) :
    Transparent lines := by
  intro position around
  rw [hlines]

theorem Transparent.append {front back : List Command} (hfront : Transparent front)
    (hback : Transparent back) : Transparent (front ++ back) := by
  intro position around
  rw [openLines_append, hback, hfront]

theorem Captures.append {front back : List Command} (hfront : Captures front)
    (hback : Transparent back) : Captures (front ++ back) := by
  intro position around
  rw [openLines_append, hback, hfront]

theorem Captures.ne_nil {lines : List Command} (hlines : Captures lines) : lines ≠ [] := by
  rintro rfl
  exact absurd (hlines 0 []) (by simp [openLines, innermost])

theorem transparent_indent {text : String} (htext : isBreakable text = false) :
    Transparent [.indent text] := by
  intro position around
  simp [openLines, innermost, htext]

theorem captures_indent {text : String} (htext : isBreakable text = true) :
    Captures [.indent text] := by
  intro position around
  simp [openLines, innermost, htext]

/-- A `break` behind capturing lines leaves what the first of them opens. -/
theorem Captures.breakTarget {front lines : List Command} (hlines : Captures lines) :
    breakTarget (front ++ lines) = some front.length := by
  rw [Emit.breakTarget, openLines_append, hlines, Nat.zero_add]

end Tide.Emit
