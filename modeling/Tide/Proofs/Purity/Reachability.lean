import Tide.Proofs.Purity.Contract

/-!
# Purity as reachability

A name is transitively pure when every name that calls lead to from it is clean.  The names are
found by dropping, round after round, those that call a declared name outside of the rest.  The
rounds end for every graph of calls, and what they leave does not depend on the order in which names
are listed on the way.
-/

namespace Tide

/-! ## What the effects of a body are -/

theorem Stmt.reassigns_iff {statement : Stmt} {name : String} :
    statement.Reassigns name ↔ statement.assignedRoot = some name := by
  constructor
  · exact Stmt.Reassigns.assignedRoot_eq
  · intro hroot
    unfold assignedRoot at hroot
    split at hroot
    · exact .assign hroot
    · exact .step hroot
    · exact .mutate hroot
    · cases hroot
      exact .bounds
    · cases hroot
      exact .scale
    · cases hroot

theorem Expr.calls_iff {expression : Expr} {name : String} :
    expression.Calls name ↔ ∃ line, (line, name) ∈ expression.namedCalls := by
  constructor
  · exact Expr.Calls.exists_mem_namedCalls
  · rintro ⟨line, hcall⟩
    obtain ⟨part, hpart, hname⟩ := List.mem_filterMap.mp hcall
    split at hname
    · obtain ⟨callee, hcallee, heq⟩ := Option.map_eq_some_iff.mp hname
      cases heq
      exact ⟨_, _, _, hasPart_of_mem_subterms hpart, hcallee⟩
    · cases hname

namespace Effects

variable {declaration : FunctionDecl}

theorem contains_of_mem_statements {statement : Stmt}
    (hstatement : statement ∈ (Node.ofBlock .ownBody declaration.body).filterMap Node.statement?) :
    declaration.body.Contains statement := by
  obtain ⟨node, hnode, hfound⟩ := List.mem_filterMap.mp hstatement
  obtain ⟨owner, hcontains, hbelongs⟩ := Block.exists_owner_of_mem_ofBlock hnode
  cases hbelongs with
  | self =>
      cases hfound
      exact hcontains
  | overlay | expression | function | field => cases hfound

theorem isClean_iff : (ofFunction declaration).isClean = true ↔ declaration.KeepsPure := by
  constructor
  · exact keepsPure_of_isClean
  · intro hkeeps
    simp only [isClean, ofFunction, ofBody, Bool.and_eq_true, List.isEmpty_iff,
      List.filterMap_eq_nil_iff]
    constructor
    · intro statement hstatement
      simp [hkeeps.noSideEffect statement (contains_of_mem_statements hstatement)]
    · intro statement hstatement
      have hnone := hkeeps.noReassignment statement (contains_of_mem_statements hstatement)
      apply Option.map_eq_none_iff.mpr
      apply Option.filter_eq_none_iff.mpr
      intro name hroot hparameter
      exact hnone name (List.contains_iff_mem.mp hparameter) (Stmt.reassigns_iff.mpr hroot)

theorem mem_calls_iff {name : String} :
    name ∈ (ofFunction declaration).calls.map (·.2) ↔ declaration.Calls name := by
  constructor
  · intro hname
    obtain ⟨⟨line, _⟩, hcall, rfl⟩ := List.mem_map.mp hname
    obtain ⟨expression, hexpression, hcall⟩ := List.mem_flatMap.mp hcall
    obtain ⟨node, hnode, hfound⟩ := List.mem_filterMap.mp hexpression
    obtain ⟨owner, hcontains, hbelongs⟩ := Block.exists_owner_of_mem_ofBlock hnode
    cases hbelongs with
    | expression hown =>
        cases hfound
        exact ⟨owner, hcontains, expression, hown, Expr.calls_iff.mpr ⟨line, hcall⟩⟩
    | field hreach => cases hreach
    | self | overlay | function => cases hfound
  · intro hcalls
    obtain ⟨line, hcall⟩ := exists_mem_calls hcalls
    exact List.mem_map.mpr ⟨_, hcall, rfl⟩

end Effects

/-! ## Where calls lead -/

namespace Program

/-- Some function has the name. -/
def IsDeclared (program : Program) (name : String) : Prop :=
  ∃ declaration, program.Declares declaration ∧ declaration.name = name

/-- Every function that has the name keeps to what a pure function may do. -/
def IsClean (program : Program) (name : String) : Prop :=
  ∀ declaration, program.Declares declaration → declaration.name = name → declaration.KeepsPure

/-- Some function that has the first name calls the second. -/
def Calls (program : Program) (caller callee : String) : Prop :=
  ∃ declaration, program.Declares declaration ∧ declaration.name = caller ∧
    declaration.Calls callee

/-- A call leads from the first name to the second, which is declared. -/
def LeadsTo (program : Program) (caller callee : String) : Prop :=
  program.Calls caller callee ∧ program.IsDeclared callee

end Program

namespace Analysis

theorem isCleanName_iff {program : Program} {name : String} :
    isCleanName program.functions name = true ↔ program.IsClean name := by
  simp only [isCleanName, List.all_eq_true, List.mem_filter, Program.mem_functions_iff, beq_iff_eq,
    Effects.isClean_iff, and_imp, Program.IsClean]

theorem mem_calleesOf_iff {program : Program} {caller callee : String} :
    callee ∈ calleesOf program.functions caller ↔ program.Calls caller callee := by
  simp only [calleesOf, List.mem_flatMap, List.mem_filter, Program.mem_functions_iff, beq_iff_eq,
    Effects.mem_calls_iff, and_assoc, Program.Calls]

theorem mem_declared_iff {program : Program} {name : String} :
    name ∈ (firstDeclarations [] program.functions).map (·.name) ↔ program.IsDeclared name := by
  constructor
  · intro hname
    obtain ⟨declaration, hdeclaration, rfl⟩ := List.mem_map.mp hname
    have hfunction := mem_of_mem_firstDeclarations hdeclaration
    exact ⟨declaration, Program.mem_functions_iff.mp hfunction, rfl⟩
  · rintro ⟨declaration, hdeclares, rfl⟩
    exact mem_declared hdeclares.mem_functions

/-! ## Rounds in any order -/

/-- The declared names of a program, the clean ones among them and the names that each one calls,
listed in any order and any number of times. -/
structure NameTables (program : Program) where
  declared : List String
  clean : List String
  callees : String → List String
  mem_declared : ∀ name, name ∈ declared ↔ program.IsDeclared name
  mem_clean : ∀ name, name ∈ clean ↔ program.IsDeclared name ∧ program.IsClean name
  mem_callees : ∀ caller callee, callee ∈ callees caller ↔ program.Calls caller callee

namespace NameTables

/-- The tables in the order of the program. -/
def inOrder (program : Program) : NameTables program where
  declared := (firstDeclarations [] program.functions).map (·.name)
  clean := ((firstDeclarations [] program.functions).map (·.name)).filter
    (isCleanName program.functions)
  callees := calleesOf program.functions
  mem_declared _ := mem_declared_iff
  mem_clean _ := by rw [List.mem_filter, mem_declared_iff, isCleanName_iff]
  mem_callees _ _ := mem_calleesOf_iff

variable {program : Program} (tables : NameTables program)

/-- What one round leaves of the names. -/
abbrev keep (names : List String) : List String :=
  keepClosed tables.callees tables.declared names

/-- A round drops some of the names and lists the rest in any order. -/
def Round (names rest : List String) : Prop :=
  tables.keep names ≠ names ∧ rest.Perm (tables.keep names)

/-- Rounds can lead from the clean names to these, and another round drops none. -/
def EndsIn (names : List String) : Prop :=
  Relation.ReflTransGen tables.Round tables.clean names ∧ tables.keep names = names

/-- However the names are listed, there are not rounds without end. -/
theorem wellFounded_round : WellFounded fun rest names => tables.Round names rest := by
  apply Subrelation.wf _ (measure List.length).wf
  intro rest names hround
  have hsublist := keepClosed_sublist tables.callees tables.declared names
  calc rest.length = (tables.keep names).length := hround.2.length_eq
    _ < names.length :=
      lt_of_le_of_ne hsublist.length_le fun heq => hround.1 (hsublist.eq_of_length heq)

variable {tables} {names : List String} {name : String}

theorem mem_keep_iff :
    name ∈ tables.keep names ↔
      name ∈ names ∧ ∀ callee, program.LeadsTo name callee → callee ∈ names := by
  simp only [keepClosed, List.mem_filter, List.all_eq_true, Bool.or_eq_true, Bool.not_eq_true',
    List.contains_eq_mem, decide_eq_true_eq, decide_eq_false_iff_not, tables.mem_callees,
    tables.mem_declared, ← imp_iff_not_or, Program.LeadsTo, and_imp]

theorem Round.mem_iff {rest : List String} (hround : tables.Round names rest) :
    name ∈ rest ↔ name ∈ names ∧ ∀ callee, program.LeadsTo name callee → callee ∈ names := by
  rw [hround.2.mem_iff, mem_keep_iff]

/-- Only clean names are left after any rounds. -/
theorem mem_clean_of_rounds (hrounds : Relation.ReflTransGen tables.Round tables.clean names)
    (hname : name ∈ names) : name ∈ tables.clean := by
  induction hrounds with
  | refl => exact hname
  | tail hrounds hround ih => exact ih (hround.mem_iff.mp hname).1

/-- A name from which calls lead to clean names only is never dropped. -/
theorem mem_of_rounds (hrounds : Relation.ReflTransGen tables.Round tables.clean names)
    (hdeclared : program.IsDeclared name)
    (hclean : ∀ other, Relation.ReflTransGen program.LeadsTo name other → program.IsClean other) :
    name ∈ names := by
  -- The name is kept in a round because all that it calls is as it is itself.
  induction hrounds generalizing name with
  | refl => exact (tables.mem_clean name).mpr ⟨hdeclared, hclean name .refl⟩
  | tail hrounds hround ih =>
      rw [hround.mem_iff]
      constructor
      · exact ih hdeclared hclean
      · intro callee hleads
        apply ih hleads.2
        intro other hreaches
        exact hclean other (.head hleads hreaches)

/-- Calls do not lead out of the names that the rounds end in. -/
theorem EndsIn.mem_of_reaches (hends : tables.EndsIn names) (hname : name ∈ names) {other : String}
    (hreaches : Relation.ReflTransGen program.LeadsTo name other) : other ∈ names := by
  induction hreaches with
  | refl => exact hname
  | tail hreaches hleads ih =>
      rw [← hends.2, mem_keep_iff] at ih
      exact ih.2 _ hleads

/-- Whatever the order, the rounds end in the names from which calls lead to clean names only. -/
theorem EndsIn.mem_iff (hends : tables.EndsIn names) :
    name ∈ names ↔ program.IsDeclared name ∧
      ∀ other, Relation.ReflTransGen program.LeadsTo name other → program.IsClean other := by
  constructor
  · intro hname
    have hclean : ∀ other ∈ names, program.IsDeclared other ∧ program.IsClean other := by
      intro other hother
      exact (tables.mem_clean other).mp (mem_clean_of_rounds hends.1 hother)
    constructor
    · exact (hclean name hname).1
    · intro other hreaches
      exact (hclean other (hends.mem_of_reaches hname hreaches)).2
  · rintro ⟨hdeclared, hclean⟩
    exact mem_of_rounds hends.1 hdeclared hclean

theorem rounds_settle (rounds : Nat) (names : List String) :
    Relation.ReflTransGen tables.Round names
      (settle tables.callees tables.declared rounds names) := by
  induction rounds generalizing names with
  | zero => exact .refl
  | succ rounds ih =>
      by_cases hclosed : tables.keep names = names
      · rw [settle_of_keepClosed _ _ hclosed]
      · exact .head ⟨hclosed, List.Perm.refl _⟩ (ih (tables.keep names))

/-- As many rounds as there are clean names come to an end. -/
theorem endsIn_settle {rounds : Nat} (hrounds : tables.clean.length ≤ rounds) :
    tables.EndsIn (settle tables.callees tables.declared rounds tables.clean) := by
  constructor
  · exact rounds_settle rounds tables.clean
  · exact keepClosed_settle tables.callees tables.declared hrounds

theorem endsIn_pureNames (program : Program) :
    (inOrder program).EndsIn (pureNames program.functions) :=
  endsIn_settle (List.length_filter_le _ _)

end NameTables

end Analysis

/-! ## The table -/

namespace Program

open Analysis

variable {program : Program} {name : String}

theorem isDeclared_of_find {info : FunctionInfo}
    (hfind : program.functionTable.find name = some info) : program.IsDeclared name := by
  rw [FunctionTable.find] at hfind
  have hname := List.find?_some hfind
  obtain ⟨declaration, hdeclaration, rfl⟩ := List.mem_map.mp (List.mem_of_find?_eq_some hfind)
  rw [← mem_declared_iff, ← beq_iff_eq.mp hname]
  exact List.mem_map.mpr ⟨declaration, hdeclaration, rfl⟩

theorem isSome_find_iff :
    (program.functionTable.find name).isSome = true ↔ program.IsDeclared name := by
  constructor
  · intro hfound
    obtain ⟨info, hfind⟩ := Option.isSome_iff_exists.mp hfound
    exact isDeclared_of_find hfind
  · rintro ⟨declaration, hdeclares, rfl⟩
    obtain ⟨info, hfind, -⟩ := find_functionTable hdeclares.mem_functions
    rw [hfind]
    rfl

/-- The entry of a name says whether the name is left. -/
theorem transitivelyPure_iff_mem_pureNames {info : FunctionInfo}
    (hfind : program.functionTable.find name = some info) :
    info.transitivelyPure = true ↔ name ∈ pureNames program.functions := by
  obtain ⟨declaration, hdeclares, rfl⟩ := isDeclared_of_find hfind
  obtain ⟨found, hfound, hiff⟩ := find_functionTable hdeclares.mem_functions
  rw [hfind, Option.some.injEq] at hfound
  rw [hfound, hiff]

/-- Exactly the declared names have an entry, and it says that the name is transitively pure when
calls lead from it to clean names only.  The rounds that decide this end for every program, and end
in the names that are transitively pure, however the names are listed. -/
theorem transitivelyPure_iff_forall_reaches (program : Program) :
    (∀ name, (program.functionTable.find name).isSome = true ↔ program.IsDeclared name) ∧
    (∀ name info, program.functionTable.find name = some info →
      (info.transitivelyPure = true ↔ ∀ other,
        Relation.ReflTransGen program.LeadsTo name other → program.IsClean other)) ∧
    (NameTables.inOrder program).EndsIn (pureNames program.functions) ∧
    ∀ tables : NameTables program,
      (WellFounded fun rest names => tables.Round names rest) ∧
      (∃ names, tables.EndsIn names) ∧
      ∀ names, tables.EndsIn names → ∀ name, name ∈ names ↔
        ∃ info, program.functionTable.find name = some info ∧ info.transitivelyPure = true := by
  have hentry : ∀ name info, program.functionTable.find name = some info →
      (info.transitivelyPure = true ↔ ∀ other,
        Relation.ReflTransGen program.LeadsTo name other → program.IsClean other) := by
    intro name info hfind
    rw [transitivelyPure_iff_mem_pureNames hfind, (NameTables.endsIn_pureNames program).mem_iff]
    exact and_iff_right (isDeclared_of_find hfind)
  refine ⟨fun name => isSome_find_iff, hentry, NameTables.endsIn_pureNames program, ?_⟩
  intro tables
  refine ⟨tables.wellFounded_round, ⟨_, NameTables.endsIn_settle le_rfl⟩, ?_⟩
  intro names hends name
  rw [hends.mem_iff, ← isSome_find_iff, Option.isSome_iff_exists]
  constructor
  · rintro ⟨⟨info, hfind⟩, hclean⟩
    exact ⟨info, hfind, (hentry name info hfind).mpr hclean⟩
  · rintro ⟨info, hfind, hpure⟩
    exact ⟨⟨info, hfind⟩, (hentry name info hfind).mp hpure⟩

/-- Another `odd`, which prints its parameter. -/
def loudOdd : FunctionDecl where
  line := 9
  flavor := .function
  name := "odd"
  parameters := .listed [⟨"n", none⟩]
  result := none
  overlays := []
  body := ⟨9, [.simple 10 (.print (some (.name 10 "n")))]⟩

/-- Two functions that call each other are transitively pure, until one of their names is declared
once more with a side effect. -/
theorem transitivelyPure_iff_forall_reaches_parity :
    (∃ info, parityProgram.functionTable.find "even" = some info ∧ info.transitivelyPure = true ∧
      ∀ other, Relation.ReflTransGen parityProgram.LeadsTo "even" other →
        parityProgram.IsClean other) ∧
    let louder : Program := parityProgram ++ [.function 9 loudOdd]
    ∃ info, louder.functionTable.find "even" = some info ∧ info.transitivelyPure = false ∧
      ∃ other, Relation.ReflTransGen louder.LeadsTo "even" other ∧ ¬ louder.IsClean other := by
  constructor
  · have hiff := (transitivelyPure_iff_forall_reaches parityProgram).2.1 "even" _ rfl
    exact ⟨_, rfl, rfl, hiff.mp rfl⟩
  · intro louder
    have hiff := (transitivelyPure_iff_forall_reaches louder).2.1 "even" _ rfl
    have hdirty := mt hiff.mpr Bool.false_ne_true
    push Not at hdirty
    exact ⟨_, rfl, rfl, hdirty⟩

end Program

end Tide
