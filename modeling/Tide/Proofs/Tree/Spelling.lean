import Tide.Proofs.Emit.Temporaries
import Tide.Proofs.Optimize.Folding
import Tide.Proofs.Text.Terminal
import Tide.Proofs.Token.Lexeme
import Tide.Tree.Outline

/-!
# How programs are spelt

A tree can hold any text for a name.  In a program that was read the names are words, the text that
is copied from its source keeps to one line, and what is assigned to starts with a name.  Only the
label of a checkpoint can be any text.  Optimizing a program brings no new names into it, so all of
this stays as it is.
-/

namespace Tide

/-! ## Words -/

namespace Lexeme

/-- A word, or several joined by `::`. -/
def JoinsWords (text : String) : Prop :=
  ∃ first words, (∀ word ∈ first :: words, isWord word.toList = true) ∧
    text = "::".intercalate (first :: words)

theorem joinsWords_of_isWord {text : String} (hword : isWord text.toList = true) :
    JoinsWords text :=
  ⟨text, [], by simpa using hword, String.intercalate_singleton.symm⟩

theorem startsWord_toNat {char : Char} (hword : startsWord char = true) :
    0x40 ≤ char.toNat ∧ char.toNat < 0x7f := by
  simp only [startsWord, Bool.or_eq_true, Bool.and_eq_true, decide_eq_true_eq, beq_iff_eq] at hword
  rcases hword with (hlower | hupper) | rfl
  · exact ⟨le_trans (by decide) hlower.1, lt_of_le_of_lt hlower.2 (by decide)⟩
  · exact ⟨le_trans (by decide) hupper.1, lt_of_le_of_lt hupper.2 (by decide)⟩
  · decide

namespace JoinsWords

variable {text : String}

theorem exists_cons (htext : JoinsWords text) :
    ∃ first rest, text.toList = first :: rest ∧ startsWord first = true ∧
      ∀ char ∈ rest, continuesWord char = true ∨ char = ':' := by
  obtain ⟨first, words, hwords, rfl⟩ := htext
  obtain ⟨head, more, hfirst, hhead⟩ := exists_cons_of_isWord (hwords first (by simp))
  have hall : ∀ char ∈ ("::".intercalate (first :: words)).toList,
      continuesWord char = true ∨ char = ':' := by
    intro char hchar
    rw [String.toList_intercalate] at hchar
    rcases Text.mem_intercalate hchar with hcolon | ⟨chars, hchars, hmem⟩
    · exact .inr (by simpa using hcolon)
    · obtain ⟨word, hword, rfl⟩ := List.mem_map.mp hchars
      exact .inl (List.all_eq_true.mp (all_of_isWord (hwords word hword)) char hmem)
  cases words with
  | nil =>
      rw [String.intercalate_singleton] at hall ⊢
      exact ⟨head, more, hfirst, hhead, fun char hchar => hall char (by simp [hfirst, hchar])⟩
  | cons second words =>
      rw [String.intercalate_cons_cons] at hall ⊢
      simp only [String.toList_append, hfirst, List.cons_append] at hall ⊢
      exact ⟨head, _, rfl, hhead, fun char hchar => hall char (List.mem_cons_of_mem _ hchar)⟩

theorem isPlain (htext : JoinsWords text) {char : Char} (hchar : char ∈ text.toList) :
    Text.Terminal.IsPlain char ∧ char ≠ '=' := by
  obtain ⟨first, rest, hcons, hfirst, hrest⟩ := htext.exists_cons
  have hcontinues : continuesWord char = true ∨ char = ':' := by
    rw [hcons] at hchar
    rcases List.mem_cons.mp hchar with rfl | hmem
    · exact .inl (by simp [continuesWord, hfirst])
    · exact hrest char hmem
  rcases hcontinues with hword | rfl
  · have hbounds := toNat_of_continuesWord hword
    refine ⟨⟨by omega, by omega⟩, ?_⟩
    rintro rfl
    exact absurd hword (by decide)
  · decide

theorem onOneLine (htext : JoinsWords text) : Text.OnOneLine text :=
  fun hmem => absurd (htext.isPlain hmem).1 (by decide)

end JoinsWords

end Lexeme

/-! ## Parameters -/

namespace Parameter

open Text

theorem onOneLine_shown_iff (parameter : Parameter) :
    OnOneLine parameter.shown ↔
      OnOneLine parameter.name ∧ ∀ type ∈ parameter.type, OnOneLine type := by
  rcases parameter with ⟨name, type⟩
  cases type with
  | none => simp [shown]
  | some type =>
      have hblank : OnOneLine " " := by decide
      simp [shown, hblank, and_comm]

/-- What is read from the words of a text has no blanks, so no line feeds either. -/
theorem onOneLine_of_ofFragment? {fragment : List Char} {parameter : Parameter}
    (hparameter : ofFragment? fragment = some parameter) :
    OnOneLine parameter.name ∧ ∀ type ∈ parameter.type, OnOneLine type := by
  obtain ⟨name, hname, rfl⟩ := Option.map_eq_some_iff.mp hparameter
  refine ⟨onOneLine_of_mem_words (List.mem_of_getLast? hname), fun type htype => ?_⟩
  dsimp only at htype
  split_ifs at htype with hempty
  · cases htype
  · obtain rfl := Option.some.inj htype
    refine onOneLine_intercalate (by decide) (List.forall_mem_map.mpr fun word hword => ?_)
    exact onOneLine_of_mem_words (List.dropLast_subset _ hword)

end Parameter

/-! ## Lists of expressions -/

namespace Expr

variable (expressions : List Expr)

theorem namesAll_eq_flatMap : namesAll expressions = expressions.flatMap names := by
  induction expressions with
  | nil => rfl
  | cons head tail ih => rw [namesAll, ih, List.flatMap_cons]

theorem shownAll_eq_map (palette : Text.Palette) :
    shownAll palette expressions = expressions.map (·.shown palette) := by
  induction expressions with
  | nil => rfl
  | cons head tail ih => rw [shownAll, ih, List.map_cons]

theorem cppTexts_eq_map : cppTexts expressions = expressions.map cppText := by
  induction expressions with
  | nil => rfl
  | cons head tail ih => rw [cppTexts, ih, List.map_cons]

end Expr

/-! ## Programs -/

/-- Every name in the expression is made of words. -/
def Expr.Spelt (expression : Expr) : Prop := ∀ name ∈ expression.names, Lexeme.JoinsWords name

/-- The names and types of an action, but for its expressions. -/
def Action.words : Action → List String
  | directive overlays => overlays.map (·.name)
  | splice _ => []
  | unknown kind _ => [kind]
  | action => action.texts

/-- The name and the result type of a function, and the names of its overlays. -/
def FunctionDecl.words (declaration : FunctionDecl) : List String :=
  declaration.name :: declaration.result.toList ++ declaration.overlays.map (·.name)

def ClassMember.words : ClassMember → List String
  | field _ binding => binding.texts
  | method _ declaration => declaration.words

/-- The parameters of a method, as they are shown. -/
def ClassMember.copied : ClassMember → List String
  | field _ _ => []
  | method _ declaration => [declaration.parameters.shown]

namespace Stmt

/-- The names and types of a statement itself, but for its expressions. -/
def words : Stmt → List String
  | simple _ action => action.words
  | function _ declaration => declaration.words
  | classDecl _ declaration =>
    declaration.name :: declaration.bases ++ declaration.members.flatMap ClassMember.words
  | attempt _ _ binding _ => binding.toList
  | nested _ _ _ | branch _ _ _ _ | switch _ _ _ _ | select _ _ _ _ => []

/-- The text that a statement itself takes over from its source. -/
def copied : Stmt → List String
  | function _ declaration => [declaration.parameters.shown]
  | classDecl _ declaration => declaration.members.flatMap ClassMember.copied
  | nested _ (.forLoop header) _ => [header]
  | simple _ _ | nested _ _ _ | branch _ _ _ _ | switch _ _ _ _ | select _ _ _ _
  | attempt _ _ _ _ => []

/-- The label of a checkpoint. -/
def label? : Stmt → Option String
  | simple _ (.checkpoint label) => label
  | _ => none

/-- The statement is spelt as a source can spell it. -/
structure Spelt (statement : Stmt) : Prop where
  words : ∀ word ∈ statement.words, Lexeme.JoinsWords word
  names : ∀ expression ∈ statement.allExpressions, expression.Spelt
  copied : ∀ text ∈ statement.copied, Text.OnOneLine text
  target : ∀ target ∈ statement.target?, target.rootName.isSome = true

/-- The statement is spelt as a source can spell it, and its label keeps to a line. -/
structure Legible (statement : Stmt) : Prop extends statement.Spelt where
  label : ∀ label ∈ statement.label?, Text.KeepsToLine label.toList

end Stmt

/-- Every statement of the program is spelt as a source can spell it. -/
def Program.Spelt (program : Program) : Prop :=
  ∀ statement ∈ program.allStatements, statement.Spelt

/-- Every checkpoint of the program has a label that keeps to its line, if it has one. -/
def Program.LabelsKeepToLine (program : Program) : Prop :=
  ∀ statement ∈ program.allStatements, ∀ label ∈ statement.label?, Text.KeepsToLine label.toList

/-- Every statement of the program is legible. -/
def Program.Legible (program : Program) : Prop :=
  ∀ statement ∈ program.allStatements, statement.Legible

theorem Program.Spelt.legible {program : Program} (hspelt : program.Spelt)
    (hlabels : program.LabelsKeepToLine) : program.Legible :=
  fun statement hstatement => ⟨hspelt statement hstatement, hlabels statement hstatement⟩

/-! ## Passes -/

namespace Pass

variable (pass : Pass)

theorem words_stmt (statement : Stmt) : (pass.stmt statement).words = statement.words := by
  cases statement with
  | simple line action => cases action <;> rfl
  | function line declaration =>
      rw [stmt, function_eq]
      rfl
  | classDecl line declaration =>
      rcases declaration with ⟨classLine, kind, name, bases, members⟩
      rw [stmt, members_eq_map, Stmt.words, Stmt.words, List.flatMap_map]
      congr 2
      funext member
      cases member with
      | field => rfl
      | method access declaration =>
          rw [Pass.member, function_eq]
          rfl
  | _ => rfl

theorem copied_stmt (statement : Stmt) : (pass.stmt statement).copied = statement.copied := by
  cases statement with
  | function line declaration =>
      rw [stmt, function_eq]
      rfl
  | classDecl line declaration =>
      rcases declaration with ⟨classLine, kind, name, bases, members⟩
      rw [stmt, members_eq_map, Stmt.copied, Stmt.copied, List.flatMap_map]
      congr 1
      funext member
      cases member with
      | field => rfl
      | method access declaration =>
          rw [Pass.member, function_eq]
          rfl
  | nested line opener body => cases opener <;> rfl
  | _ => rfl

theorem label?_stmt (statement : Stmt) : (pass.stmt statement).label? = statement.label? := by
  cases statement with
  | simple line action => cases action <;> rfl
  | classDecl line declaration =>
      rcases declaration with ⟨classLine, kind, name, bases, members⟩
      rfl
  | _ => rfl

theorem target?_stmt (statement : Stmt) :
    (pass.stmt statement).target? = statement.target?.map pass.expression := by
  cases statement with
  | simple line action => cases action <;> rfl
  | classDecl line declaration =>
      rcases declaration with ⟨classLine, kind, name, bases, members⟩
      rfl
  | _ => rfl

theorem mem_expressions_action {action : Action} {after : Expr}
    (hafter : after ∈ (pass.action action).expressions) :
    ∃ before ∈ action.expressions,
      after = pass.expression before ∨ after = pass.printed before := by
  cases action <;> simp [Pass.action, Pass.binding, Action.expressions] at hafter ⊢ <;> grind

/-- What stands in a statement after a pass is what the pass makes of its expressions. -/
theorem mem_allExpressions_stmt {statement : Stmt} {after : Expr}
    (hafter : after ∈ (pass.stmt statement).allExpressions) :
    ∃ before ∈ statement.allExpressions,
      after = pass.expression before ∨ after = pass.printed before := by
  cases statement with
  | simple line action =>
      rw [Stmt.allExpressions, List.mem_append] at hafter
      obtain ⟨before, hbefore, heq⟩ :=
        pass.mem_expressions_action (hafter.resolve_right List.not_mem_nil)
      exact ⟨before, List.mem_append_left _ hbefore, heq⟩
  | classDecl line declaration =>
      rcases declaration with ⟨classLine, kind, name, bases, members⟩
      rw [stmt, members_eq_map] at hafter
      obtain ⟨changed, hchanged, hvalue⟩ := List.mem_flatMap.mp hafter
      obtain ⟨member, hmember, rfl⟩ := List.mem_map.mp hchanged
      cases member with
      | field access binding =>
          obtain ⟨before, hbefore, rfl⟩ := Option.map_eq_some_iff.mp (Option.mem_toList.mp hvalue)
          refine ⟨before, List.mem_flatMap.mpr ⟨_, hmember, ?_⟩, .inl rfl⟩
          exact Option.mem_toList.mpr hbefore
      | method access declaration => cases hvalue
  | nested line opener body =>
      cases opener <;> simp_all [stmt, Pass.opener, Stmt.allExpressions, Stmt.ownExpressions,
        Stmt.fieldValues, Opener.expressions]
  | branch | switch | select | function | attempt =>
      simp_all [stmt, Stmt.allExpressions, Stmt.ownExpressions, Stmt.fieldValues]

/-- The pass keeps some statements of a block in their order, and brings no name into an
expression. -/
structure KeepsNames (pass : Pass) : Prop where
  statements : ∀ statements, (pass.statements statements).Sublist statements
  expression : ∀ expression, (pass.expression expression).names ⊆ expression.names
  printed : ∀ expression, (pass.printed expression).names ⊆ expression.names
  target : ∀ target, target.rootName.isSome = true →
    (pass.expression target).rootName.isSome = true

namespace KeepsNames

variable {pass : Pass}

theorem spelt_stmt (hpass : pass.KeepsNames) {statement : Stmt} (hspelt : statement.Spelt) :
    (pass.stmt statement).Spelt where
  words := by
    rw [words_stmt]
    exact hspelt.words
  names := by
    intro after hafter name hname
    obtain ⟨before, hbefore, rfl | rfl⟩ := pass.mem_allExpressions_stmt hafter
    · exact hspelt.names before hbefore name (hpass.expression before hname)
    · exact hspelt.names before hbefore name (hpass.printed before hname)
  copied := by
    rw [copied_stmt]
    exact hspelt.copied
  target := by
    intro after hafter
    rw [target?_stmt] at hafter
    obtain ⟨target, htarget, rfl⟩ := Option.map_eq_some_iff.mp hafter
    exact hpass.target target (hspelt.target target htarget)

/-- What the pass makes of a program is made of what it makes of the statements. -/
theorem exists_mem_allStatements (hpass : pass.KeepsNames) {program : Program} {after : Stmt}
    (hafter : after ∈ (pass.program program).allStatements) :
    ∃ statement ∈ program.allStatements, pass.stmt statement = after :=
  List.mem_map.mp ((allStatements_program_sublist hpass.statements program).subset hafter)

theorem spelt_program (hpass : pass.KeepsNames) {program : Program} (hspelt : program.Spelt) :
    (pass.program program).Spelt := by
  intro after hafter
  obtain ⟨statement, hstatement, rfl⟩ := hpass.exists_mem_allStatements hafter
  exact hpass.spelt_stmt (hspelt statement hstatement)

theorem labelsKeepToLine_program (hpass : pass.KeepsNames) {program : Program}
    (hlabels : program.LabelsKeepToLine) : (pass.program program).LabelsKeepToLine := by
  intro after hafter
  obtain ⟨statement, hstatement, rfl⟩ := hpass.exists_mem_allStatements hafter
  rw [label?_stmt]
  exact hlabels statement hstatement

end KeepsNames

end Pass

/-! ## Optimizing -/

namespace Expr

theorem append_subset_append {left right left' right' : List String} (hleft : left ⊆ left')
    (hright : right ⊆ right') : left ++ right ⊆ left' ++ right' :=
  List.append_subset.mpr ⟨List.subset_append_of_subset_left _ hleft,
    List.subset_append_of_subset_right _ hright⟩

/-- Folding brings in no names. -/
theorem names_fold (expression : Expr) : expression.fold.names ⊆ expression.names := by
  induction expression with
  | literal | name => exact List.Subset.refl _
  | unary line operator operand ih =>
      rw [fold, names]
      split
      · exact List.nil_subset _
      · exact ih
  | binary line operator left right ihLeft ihRight =>
      rw [fold, names]
      split
      · exact List.nil_subset _
      · rcases simplify_cases line operator left.fold right.fold with
          ⟨heq, -⟩ | ⟨heq, -⟩ | ⟨heq, -⟩ | heq
        · rw [heq]
          exact List.subset_append_of_subset_left _ ihLeft
        · rw [heq]
          exact List.subset_append_of_subset_right _ ihRight
        · rw [heq]
          exact List.nil_subset _
        · rw [heq, names]
          exact append_subset_append ihLeft ihRight
  | ternary line condition positive negative ihCondition ihPositive ihNegative =>
      rw [fold, names]
      split
      · exact List.subset_append_of_subset_left _ (List.subset_append_of_subset_right _ ihPositive)
      · exact List.subset_append_of_subset_right _ ihNegative
      · exact append_subset_append (append_subset_append ihCondition ihPositive) ihNegative
  | call line callee arguments ihCallee ihArguments =>
      rw [fold, names, names, foldAll_eq_map, namesAll_eq_flatMap, namesAll_eq_flatMap,
        List.flatMap_map]
      refine append_subset_append ihCallee fun name hname => ?_
      obtain ⟨argument, hargument, hmem⟩ := List.mem_flatMap.mp hname
      exact List.mem_flatMap.mpr ⟨argument, hargument, ihArguments argument hargument hmem⟩
  | index line target place ihTarget ihPlace =>
      rw [fold, names, names]
      exact append_subset_append ihTarget ihPlace
  | member line target field ih =>
      rw [fold, names, names]
      exact append_subset_append ih (List.Subset.refl _)

theorem names_foldPrinted (expression : Expr) :
    expression.foldPrinted.names ⊆ expression.names := by
  have hchain : expression.foldChain.names ⊆ expression.names := by
    fun_induction foldChain expression with
    | case1 line left right ih =>
        rw [names, names]
        exact append_subset_append ih (names_fold right)
    | case2 expression hother => exact names_fold expression
  rw [foldPrinted]
  split
  · exact hchain
  · exact names_fold expression

end Expr

namespace Optimize

theorem keepsNames_folding : folding.KeepsNames where
  statements := List.Sublist.refl
  expression := Expr.names_fold
  printed := Expr.names_foldPrinted
  target target hroot := by
    obtain ⟨name, hname⟩ := Option.isSome_iff_exists.mp hroot
    exact Option.isSome_iff_exists.mpr ⟨name, Expr.rootName_fold hname⟩

theorem keepsNames_pruning : pruning.KeepsNames where
  statements := throughReturn_sublist
  expression _ := List.Subset.refl _
  printed _ := List.Subset.refl _
  target _ hroot := hroot

end Optimize

namespace Program

variable {program : Program}

theorem Spelt.optimize (hspelt : program.Spelt) : program.optimize.Spelt := by
  have hround : ∀ {program : Program}, program.Spelt → program.round.Spelt := fun hbefore =>
    Optimize.keepsNames_pruning.spelt_program (Optimize.keepsNames_folding.spelt_program hbefore)
  exact hround (hround hspelt)

theorem LabelsKeepToLine.optimize (hlabels : program.LabelsKeepToLine) :
    program.optimize.LabelsKeepToLine := by
  have hround : ∀ {program : Program}, program.LabelsKeepToLine →
      program.round.LabelsKeepToLine := fun hbefore =>
    Optimize.keepsNames_pruning.labelsKeepToLine_program
      (Optimize.keepsNames_folding.labelsKeepToLine_program hbefore)
  exact hround (hround hlabels)

end Program

end Tide
