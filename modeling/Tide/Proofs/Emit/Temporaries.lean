import Tide.Grammar.Statement
import Tide.Proofs.Emit.Writing
import Tide.Proofs.Tree.Expressions
import Tide.Token.Scan

/-!
# The names that emission hands out

Each name that emission hands out for a variable of its own holds the number of names before it, so
no two of them are the same.  Nothing keeps a program from using such a name itself.  It has to be
spelt in full for that, label and number, and then the variable of the program is hidden where the
temporary is declared.
-/

namespace Tide

/-! ## The identifiers of a program -/

/-- The identifiers in a text: its longest runs of letters, digits and underscores. -/
def identifiersIn (text : String) : List String :=
  ((Text.split (!Lexeme.continuesWord ·) text.toList).filter (!·.isEmpty)).map String.ofList

namespace Expr

mutual

/-- The names in an expression, as they are written. -/
def names : Expr → List String
  | literal _ _ => []
  | name _ text => [text]
  | unary _ _ operand => operand.names
  | binary _ _ left right => left.names ++ right.names
  | ternary _ condition positive negative => condition.names ++ positive.names ++ negative.names
  | call _ callee arguments => callee.names ++ namesAll arguments
  | index _ target position => target.names ++ position.names
  | member _ target text => target.names ++ [text]

def namesAll : List Expr → List String
  | [] => []
  | first :: rest => first.names ++ namesAll rest

end

end Expr

def Local.texts (binding : Local) : List String := binding.name :: binding.type.toList

/-- The names and types of an action and the text that it copies, but for its expressions. -/
def Action.texts : Action → List String
  | declare binding => binding.texts
  | input name | readInto _ name | scale name _ _ _ _ | bounds name _ _ | duration name _ _ =>
    [name]
  | channel name element => name :: element.toList
  | send target _ => [target]
  | receive source name => [source, name]
  | derivative name _ argument => [name, argument]
  | splice text => [text]
  | directive _ | assign _ _ _ | step _ _ | mutate _ _ | leave _ | breakLoop | continueLoop
  | raise _ | evaluate _ | print _ | writeOut _ _ _ | sync | checkpoint _ | unknown _ _ => []

def FunctionDecl.texts (declaration : FunctionDecl) : List String :=
  declaration.name :: declaration.result.toList ++
    declaration.parameters.parameters.flatMap fun parameter =>
      parameter.name :: parameter.type.toList

def ClassMember.texts : ClassMember → List String
  | field _ binding => binding.texts
  | method _ declaration => declaration.texts

namespace Stmt

/-- The names and types of a statement and the text that it copies, but for its expressions. -/
def texts : Stmt → List String
  | simple _ action => action.texts
  | function _ declaration => declaration.texts
  | classDecl _ declaration =>
    declaration.name :: declaration.bases ++ declaration.members.flatMap ClassMember.texts
  | nested _ (.forLoop header) _ => [header]
  | attempt _ _ binding _ => binding.toList
  | nested _ _ _ | branch _ _ _ _ | switch _ _ _ _ | select _ _ _ _ => []

/-- The identifiers in a statement itself. -/
def identifiers (statement : Stmt) : List String :=
  (statement.texts ++ statement.allExpressions.flatMap Expr.names).flatMap identifiersIn

end Stmt

/-- The identifiers that occur anywhere in a program. -/
def Program.identifiers (program : Program) : List String :=
  program.allStatements.flatMap Stmt.identifiers

namespace Emit

/-! ## Numbered names -/

theorem toString_injective {first second : Nat} (heq : toString first = toString second) :
    first = second := by
  have hdigits := congrArg (fun text => Nat.ofDigitChars 10 (String.toList text) 0) heq
  simpa [Nat.toString_eq_ofList_toDigits] using hdigits

/-- A label holds no underscore, so the number of a name can be told from its label. -/
theorem temporary_injective {label other : String} {number index : Nat}
    (hlabel : label ∈ temporaryLabels)
    (heq : temporary label number = temporary other index) : number = index := by
  have hplain : ∀ label ∈ temporaryLabels, '_' ∉ label.toList := by decide
  have hchars : label.toList ++ '_' :: (toString number).toList =
      other.toList ++ '_' :: (toString index).toList := by
    simpa [temporary] using congrArg String.toList heq
  have hnumber : '_' ∉ (toString number).toList := by
    intro hmem
    rw [Nat.toString_eq_ofList_toDigits, String.toList_ofList] at hmem
    exact absurd (Nat.isDigit_of_mem_toDigits (by decide) (by decide) hmem) (by decide)
  obtain ⟨-, -, hdigits⟩ :=
    (List.append_cons_inj_of_notMem (hplain label hlabel) hnumber).mp hchars
  exact toString_injective (String.toList_inj.mp hdigits)

/-- Names, the newest first, that each hold the number of the names before them. -/
inductive Numbered : List String → Prop
  | nil : Numbered []
  | cons {names label} (hlabel : label ∈ temporaryLabels) (hnames : Numbered names) :
      Numbered (temporary label names.length :: names)

namespace Numbered

variable {names : List String}

/-- A name can be found by its number, counted from the oldest. -/
theorem getElem?_reverse (hnames : Numbered names) {index : Nat} {name : String}
    (hname : names.reverse[index]? = some name) :
    ∃ label ∈ temporaryLabels, name = temporary label index := by
  induction hnames with
  | nil => simp at hname
  | @cons names label hlabel hnames ih =>
      rw [List.reverse_cons] at hname
      by_cases hindex : index < names.reverse.length
      · rw [List.getElem?_append_left hindex] at hname
        exact ih hname
      · rw [List.getElem?_append_right (by omega)] at hname
        obtain ⟨hlast, rfl⟩ : index - names.length = 0 ∧ temporary label names.length = name := by
          simpa [List.getElem?_singleton] using hname
        have hindex : index = names.length := by
          rw [List.length_reverse] at hindex
          omega
        exact ⟨label, hlabel, by rw [hindex]⟩

theorem exists_of_mem (hnames : Numbered names) {name : String} (hname : name ∈ names) :
    ∃ label ∈ temporaryLabels, ∃ number < names.length, name = temporary label number := by
  obtain ⟨index, hindex, hname⟩ := List.getElem_of_mem (List.mem_reverse.mpr hname)
  obtain ⟨label, hlabel, hname⟩ :=
    hnames.getElem?_reverse (List.getElem?_eq_some_iff.mpr ⟨_, hname⟩)
  exact ⟨label, hlabel, index, by simpa using hindex, hname⟩

theorem nodup (hnames : Numbered names) : names.Nodup := by
  induction hnames with
  | nil => exact List.nodup_nil
  | cons hlabel hnames ih =>
      refine List.nodup_cons.mpr ⟨fun hmem => ?_, ih⟩
      obtain ⟨other, hother, number, hnumber, heq⟩ := hnames.exists_of_mem hmem
      exact absurd (temporary_injective hlabel heq) (Nat.ne_of_gt hnumber)

end Numbered

theorem Writes.numbered {inside : Bool} {found : List Stmt} {before after : Emission}
    {lines : List Command} (hlines : Writes inside found before lines after)
    (hbefore : Numbered before.temporaries) : Numbered after.temporaries := by
  induction hlines with
  | nothing | line | blank | outer | note => exact hbefore
  | append hfront hback ihFront ihBack => exact ihBack (ihFront hbefore)
  | enclosed opening closing hlines ih => exact ih hbefore
  | handOut hlabel => exact .cons hlabel hbefore

/-- The names that emission of a program hands out, the oldest first. -/
def handedOut (program : Program) : List String :=
  ((commands program).run .start).2.temporaries.reverse

theorem numbered_commands (program : Program) :
    Numbered ((commands program).run .start).2.temporaries :=
  (writes_commands program).numbered .nil

/-- The names handed out are distinct, each with its own number, and none of them is an identifier
of a program that spells no label with such a number. -/
theorem handedOut_distinct_numbered (program : Program) :
    (handedOut program).Nodup ∧
      (∀ index name, (handedOut program)[index]? = some name →
        ∃ label ∈ temporaryLabels, name = temporary label index) ∧
      ((∀ label ∈ temporaryLabels, ∀ number < (handedOut program).length,
          temporary label number ∉ program.identifiers) →
        ∀ name ∈ program.identifiers, name ∉ handedOut program) := by
  have hnumbered := numbered_commands program
  refine ⟨List.nodup_reverse.mpr hnumbered.nodup, fun index name => hnumbered.getElem?_reverse, ?_⟩
  intro hunspelt name hidentifier hname
  obtain ⟨label, hlabel, number, hnumber, rfl⟩ :=
    hnumbered.exists_of_mem (List.mem_reverse.mp hname)
  rw [← List.length_reverse] at hnumber
  exact hunspelt label hlabel number hnumber hidentifier

/-- `let NAME = "outer" match true { case true { print NAME } }`, with this name. -/
def printedInArm (name : String) : Program :=
  [.simple 1 (.declare ⟨name, false, none, some (.literal 1 (.string "outer"))⟩),
   .select 2 (.literal 2 (.boolean true))
    [⟨[.literal (.boolean true)], ⟨2, [.simple 2 (.print (some (.name 2 name)))]⟩⟩] none]

theorem handedOut_distinct_numbered_plain_name :
    handedOut (printedInArm "tide") = ["tide_match_0", "tide_matched_1"] ∧
      ∀ name ∈ (printedInArm "tide").identifiers, name ∉ handedOut (printedInArm "tide") :=
  ⟨by decide +kernel, (handedOut_distinct_numbered (printedInArm "tide")).2.2 (by decide +kernel)⟩

/-- The tokens of `let tide_match_0 = "outer" match true { case true { print tide_match_0 } }`. -/
def capturedName : List Token :=
  [⟨.keyword .letWord, "let", 1⟩, ⟨.identifier, "tide_match_0", 1⟩, ⟨.symbol .equals, "=", 1⟩,
   ⟨.string, "outer", 1⟩, ⟨.keyword .matchWord, "match", 2⟩, ⟨.keyword .trueWord, "true", 2⟩,
   ⟨.symbol .openBrace, "\x7b", 2⟩, ⟨.keyword .caseWord, "case", 2⟩,
   ⟨.keyword .trueWord, "true", 2⟩, ⟨.symbol .openBrace, "\x7b", 2⟩,
   ⟨.keyword .print, "print", 2⟩, ⟨.identifier, "tide_match_0", 2⟩,
   ⟨.symbol .closeBrace, "\x7d", 2⟩, ⟨.symbol .closeBrace, "\x7d", 2⟩]

/-- The arm prints the temporary and not the variable of the program. -/
theorem handedOut_captures :
    (Program.ofTokens capturedName).result = .ok (printedInArm "tide_match_0") ∧
      "tide_match_0" ∈ (printedInArm "tide_match_0").identifiers ∧
      "tide_match_0" ∈ handedOut (printedInArm "tide_match_0") ∧
      ((commands (printedInArm "tide_match_0")).run .start).1 =
        [openBrace "int main() ", .line "std::cout << std::boolalpha;",
         .line "auto tide_match_0 = std::string(\"outer\");",
         openBrace "", .line "const auto tide_match_0 = true;",
         .line "bool tide_matched_1 = false;",
         openBrace "if (!tide_matched_1 && (tide_match_0 == true)) ",
         .line "tide_matched_1 = true;", .line "std::cout << tide_match_0 << std::endl;",
         closeBrace, closeBrace, .line "return 0;", closeBrace] := by
  refine ⟨by cbv, ?_, ?_, ?_⟩
  · decide +kernel
  · decide +kernel
  · decide +kernel

end Emit

end Tide
