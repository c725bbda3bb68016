import Tide.Analysis.Typing
import Tide.Proofs.Scope.Levels
import Tide.Proofs.Tree.Expressions

/-!
# Classes stay in their scopes

On its way through a program a check opens a scope for each block, function and class, and leaves it
behind the last statement in it.  What is bound inside is gone then.  Of the scopes around, the only
thing that can have changed is the class of a name that was assigned, and only where the assignment
found the name in that scope.  The environment does not depend on what the check looks at, so two
checks have the same one before every statement.
-/

namespace Tide

namespace ClassCheck

/-! ## Traces -/

/-- What a check does on its way. -/
inductive Event where
  /-- It comes to a statement with this environment. -/
  | met (statement : Stmt) (environment : Environment)
  /-- It leaves the innermost scope of this environment. -/
  | left (environment : Environment)

def Event.statement? : Event → Option Stmt
  | met statement _ => some statement
  | left _ => none

mutual

/-- What the check does in a statement, in order. -/
def stmtTrace (check : ClassCheck) (environment : Environment) : Stmt → List Event
  | .simple line action => [.met (.simple line action) environment]
  | .function line declaration =>
    .met (.function line declaration) environment :: check.functionTrace environment declaration
  | .classDecl line ⟨classLine, kind, name, bases, classMembers⟩ =>
    .met (.classDecl line ⟨classLine, kind, name, bases, classMembers⟩) environment ::
      (check.membersTrace environment.push classMembers
        ++ [.left (check.members environment.push classMembers).1])
  | .nested line opener body =>
    .met (.nested line opener body) environment :: check.blockTrace environment body
  | .branch line condition positive negative =>
    .met (.branch line condition positive negative) environment ::
      (check.blockTrace environment positive
        ++ check.negativeTrace (check.block environment positive).1 negative)
  | .switch line scrutinee clauses fallback =>
    .met (.switch line scrutinee clauses fallback) environment ::
      (check.casesTrace environment clauses
        ++ check.fallbackTrace (check.cases environment clauses).1 fallback)
  | .select line scrutinee clauses fallback =>
    .met (.select line scrutinee clauses fallback) environment ::
      (check.armsTrace environment clauses
        ++ check.fallbackTrace (check.arms environment clauses).1 fallback)
  | .attempt line body binding handler =>
    .met (.attempt line body binding handler) environment ::
      (check.blockTrace environment body
        ++ check.blockTrace (check.block environment body).1 handler)

def stmtsTrace (check : ClassCheck) (environment : Environment) : List Stmt → List Event
  | [] => []
  | first :: rest =>
    check.stmtTrace environment first ++ check.stmtsTrace (check.stmt environment first).1 rest

def blockTrace (check : ClassCheck) (environment : Environment) : Block → List Event
  | ⟨_, statements⟩ =>
    check.stmtsTrace environment.push statements
      ++ [.left (check.stmts environment.push statements).1]

def functionTrace (check : ClassCheck) (environment : Environment) : FunctionDecl → List Event
  | ⟨line, flavor, name, parameters, result, overlays, body⟩ =>
    let start := Environment.bindParameters environment.push
      ⟨line, flavor, name, parameters, result, overlays, body⟩
    check.blockTrace start body ++ [.left (check.block start body).1]

def membersTrace (check : ClassCheck) (environment : Environment) : List ClassMember → List Event
  | [] => []
  | .field _ binding :: rest => check.membersTrace (environment.bindLocal binding) rest
  | .method _ declaration :: rest =>
    check.functionTrace environment declaration
      ++ check.membersTrace (check.function environment declaration).1 rest

def negativeTrace (check : ClassCheck) (environment : Environment) : Option Stmt → List Event
  | none => []
  | some statement => check.stmtTrace environment statement

def casesTrace (check : ClassCheck) (environment : Environment) : List SwitchCase → List Event
  | [] => []
  | ⟨_, body⟩ :: rest =>
    check.blockTrace environment body ++ check.casesTrace (check.block environment body).1 rest

def armsTrace (check : ClassCheck) (environment : Environment) : List MatchArm → List Event
  | [] => []
  | ⟨_, body⟩ :: rest =>
    check.blockTrace environment body ++ check.armsTrace (check.block environment body).1 rest

def fallbackTrace (check : ClassCheck) (environment : Environment) : Option Block → List Event
  | none => []
  | some body => check.blockTrace environment body

end

/-! ## Two checks on the same way -/

theorem sequence_congr {first firstOther : Environment} {events eventsOther : List Event}
    {next nextOther : Environment → Environment} {trace traceOther : Environment → List Event}
    (hfirst : first = firstOther ∧ events = eventsOther)
    (hnext : ∀ between, next between = nextOther between ∧ trace between = traceOther between) :
    next first = nextOther firstOther ∧
      events ++ trace first = eventsOther ++ traceOther firstOther := by
  obtain ⟨rfl, rfl⟩ := hfirst
  obtain ⟨hafter, htrace⟩ := hnext first
  exact ⟨hafter, congrArg _ htrace⟩

theorem leave_congr {inside insideOther : Environment} {events eventsOther : List Event}
    (hinside : inside = insideOther ∧ events = eventsOther) :
    inside.leave = insideOther.leave ∧
      events ++ [.left inside] = eventsOther ++ [.left insideOther] := by
  obtain ⟨rfl, rfl⟩ := hinside
  exact ⟨rfl, rfl⟩

section

variable (check other : ClassCheck)

mutual

/-- The environment and the trace do not depend on what a check looks at. -/
theorem stmt_congr : ∀ statement environment,
    (check.stmt environment statement).1 = (other.stmt environment statement).1 ∧
      check.stmtTrace environment statement = other.stmtTrace environment statement
  | .simple _ _, _ => ⟨rfl, rfl⟩
  | .function _ declaration, environment => by
      obtain ⟨hafter, htrace⟩ := function_congr declaration environment
      exact ⟨hafter, congrArg _ htrace⟩
  | .classDecl _ ⟨_, _, _, _, classMembers⟩, environment => by
      obtain ⟨hafter, htrace⟩ := leave_congr (members_congr classMembers environment.push)
      exact ⟨hafter, congrArg _ htrace⟩
  | .nested _ _ body, environment => by
      obtain ⟨hafter, htrace⟩ := block_congr body environment
      exact ⟨hafter, congrArg _ htrace⟩
  | .branch _ _ positive alternative, environment => by
      obtain ⟨hafter, htrace⟩ :=
        sequence_congr (block_congr positive environment) (negative_congr alternative)
      exact ⟨hafter, congrArg _ htrace⟩
  | .switch _ _ clauses default, environment => by
      obtain ⟨hafter, htrace⟩ :=
        sequence_congr (cases_congr clauses environment) (fallback_congr default)
      exact ⟨hafter, congrArg _ htrace⟩
  | .select _ _ clauses default, environment => by
      obtain ⟨hafter, htrace⟩ :=
        sequence_congr (arms_congr clauses environment) (fallback_congr default)
      exact ⟨hafter, congrArg _ htrace⟩
  | .attempt _ body _ handler, environment => by
      obtain ⟨hafter, htrace⟩ :=
        sequence_congr (block_congr body environment) (block_congr handler)
      exact ⟨hafter, congrArg _ htrace⟩

theorem stmts_congr : ∀ statements environment,
    (check.stmts environment statements).1 = (other.stmts environment statements).1 ∧
      check.stmtsTrace environment statements = other.stmtsTrace environment statements
  | [], _ => ⟨rfl, rfl⟩
  | first :: rest, environment =>
      (sequence_congr (stmt_congr first environment) (stmts_congr rest) :)

theorem block_congr : ∀ body environment,
    (check.block environment body).1 = (other.block environment body).1 ∧
      check.blockTrace environment body = other.blockTrace environment body
  | ⟨_, statements⟩, environment => leave_congr (stmts_congr statements environment.push)

theorem function_congr : ∀ declaration environment,
    (check.function environment declaration).1 = (other.function environment declaration).1 ∧
      check.functionTrace environment declaration = other.functionTrace environment declaration
  | ⟨_, _, _, _, _, _, body⟩, _ => leave_congr (block_congr body _)

theorem members_congr : ∀ classMembers environment,
    (check.members environment classMembers).1 = (other.members environment classMembers).1 ∧
      check.membersTrace environment classMembers = other.membersTrace environment classMembers
  | [], _ => ⟨rfl, rfl⟩
  | .field _ binding :: rest, environment => members_congr rest (environment.bindLocal binding)
  | .method _ declaration :: rest, environment =>
      (sequence_congr (function_congr declaration environment) (members_congr rest) :)

theorem negative_congr : ∀ alternative environment,
    (check.negative environment alternative).1 = (other.negative environment alternative).1 ∧
      check.negativeTrace environment alternative = other.negativeTrace environment alternative
  | none, _ => ⟨rfl, rfl⟩
  | some statement, environment => stmt_congr statement environment

theorem cases_congr : ∀ clauses environment,
    (check.cases environment clauses).1 = (other.cases environment clauses).1 ∧
      check.casesTrace environment clauses = other.casesTrace environment clauses
  | [], _ => ⟨rfl, rfl⟩
  | ⟨_, body⟩ :: rest, environment =>
      (sequence_congr (block_congr body environment) (cases_congr rest) :)

theorem arms_congr : ∀ clauses environment,
    (check.arms environment clauses).1 = (other.arms environment clauses).1 ∧
      check.armsTrace environment clauses = other.armsTrace environment clauses
  | [], _ => ⟨rfl, rfl⟩
  | ⟨_, body⟩ :: rest, environment =>
      (sequence_congr (block_congr body environment) (arms_congr rest) :)

theorem fallback_congr : ∀ default environment,
    (check.fallback environment default).1 = (other.fallback environment default).1 ∧
      check.fallbackTrace environment default = other.fallbackTrace environment default
  | none, _ => ⟨rfl, rfl⟩
  | some body, environment => block_congr body environment

end

end

/-! ## Every statement is met -/

section

variable (check : ClassCheck)

open Node

mutual

/-- A check meets the statements of a tree in the order in which they are written. -/
theorem met_stmtTrace : ∀ statement environment,
    (check.stmtTrace environment statement).filterMap Event.statement? =
      statements (ofStmt .declarations statement)
  | .simple _ _, _ => by simp [stmtTrace, Event.statement?, ofStmt, ofAction]
  | .function _ declaration, environment => by
      simp [stmtTrace, Event.statement?, ofStmt, met_functionTrace declaration]
  | .classDecl _ ⟨_, _, _, _, classMembers⟩, environment => by
      simp [stmtTrace, Event.statement?, ofStmt, met_membersTrace classMembers]
  | .nested _ _ body, environment => by
      simp [stmtTrace, Event.statement?, ofStmt, met_blockTrace body]
  | .branch _ _ positive alternative, environment => by
      simp [stmtTrace, Event.statement?, ofStmt, met_blockTrace positive,
        met_negativeTrace alternative]
  | .switch _ _ clauses default, environment => by
      simp [stmtTrace, Event.statement?, ofStmt, met_casesTrace clauses,
        met_fallbackTrace default]
  | .select _ _ clauses default, environment => by
      simp [stmtTrace, Event.statement?, ofStmt, met_armsTrace clauses, met_fallbackTrace default]
  | .attempt _ body _ handler, environment => by
      simp [stmtTrace, Event.statement?, ofStmt, met_blockTrace body, met_blockTrace handler]

theorem met_stmtsTrace : ∀ found environment,
    (check.stmtsTrace environment found).filterMap Event.statement? =
      statements (ofStmts .declarations found)
  | [], _ => rfl
  | first :: rest, environment => by
      simp [stmtsTrace, ofStmts, met_stmtTrace first, met_stmtsTrace rest]

theorem met_blockTrace : ∀ body environment,
    (check.blockTrace environment body).filterMap Event.statement? =
      statements (ofBlock .declarations body)
  | ⟨_, found⟩, environment => by
      simp [blockTrace, Event.statement?, ofBlock, met_stmtsTrace found]

theorem met_functionTrace : ∀ declaration environment,
    (check.functionTrace environment declaration).filterMap Event.statement? =
      statements (ofFunction declaration)
  | ⟨_, _, _, _, _, _, body⟩, environment => by
      simp [functionTrace, Event.statement?, ofFunction, met_blockTrace body]

theorem met_membersTrace : ∀ classMembers environment,
    (check.membersTrace environment classMembers).filterMap Event.statement? =
      statements (ofMembers classMembers)
  | [], _ => rfl
  | .field _ binding :: rest, environment => by
      simp [membersTrace, ofMembers, met_membersTrace rest]
  | .method _ declaration :: rest, environment => by
      simp [membersTrace, ofMembers, met_functionTrace declaration, met_membersTrace rest]

theorem met_negativeTrace : ∀ alternative environment,
    (check.negativeTrace environment alternative).filterMap Event.statement? =
      statements (ofNegative .declarations alternative)
  | none, _ => rfl
  | some negative, environment => met_stmtTrace negative environment

theorem met_casesTrace : ∀ clauses environment,
    (check.casesTrace environment clauses).filterMap Event.statement? =
      statements (ofCases .declarations clauses)
  | [], _ => rfl
  | ⟨_, body⟩ :: rest, environment => by
      simp [casesTrace, ofCases, met_blockTrace body, met_casesTrace rest]

theorem met_armsTrace : ∀ clauses environment,
    (check.armsTrace environment clauses).filterMap Event.statement? =
      statements (ofArms .declarations clauses)
  | [], _ => rfl
  | ⟨_, body⟩ :: rest, environment => by
      simp [armsTrace, ofArms, met_blockTrace body, met_armsTrace rest]

theorem met_fallbackTrace : ∀ default environment,
    (check.fallbackTrace environment default).filterMap Event.statement? =
      statements (ofFallback .declarations default)
  | none, _ => rfl
  | some body, environment => met_blockTrace body environment

end

end

/-! ## The scopes around -/

/-- Some plain assignment to the name finds it bound in no scope deeper than this place. -/
def Reassigned (events : List Event) (place : Nat) (name : String) : Prop :=
  ∃ line nameLine value inside,
    .met (.simple line (.assign (.name nameLine name) .assign value)) inside ∈ events ∧
      ∀ depth, place < depth → (Scopes.level inside depth).get? name = none

/-- What happens on the way from one environment to another keeps the depth and never leaves a scope
of the first.  Up to some reach the scopes bind the same names as before, and a name has another
class only if it was assigned there. -/
structure Framed (reach : Nat) (environment after : Environment) (events : List Event) : Prop where
  depth : after.depth = environment.depth
  leaves : ∀ inside, .left inside ∈ events → environment.depth < Scopes.depth inside
  names : ∀ place, place < reach → (after.level place).names = (environment.level place).names
  classes : ∀ place, place < reach → ∀ name,
    (after.level place).get? name ≠ (environment.level place).get? name →
      Reassigned events place name

theorem Reassigned.mono {events more : List Event} {place : Nat} {name : String}
    (hreassigned : Reassigned events place name) (hmore : events ⊆ more) :
    Reassigned more place name := by
  obtain ⟨line, nameLine, value, inside, hmet, hfree⟩ := hreassigned
  exact ⟨line, nameLine, value, inside, hmore hmet, hfree⟩

namespace Framed

variable {reach : Nat} {environment between after : Environment} {events later : List Event}

theorem refl (reach : Nat) (environment : Environment) :
    Framed reach environment environment [] where
  depth := rfl
  leaves _ hleft := absurd hleft List.not_mem_nil
  names _ _ := rfl
  classes _ _ _ hchanged := absurd rfl hchanged

theorem trans (hfirst : Framed reach environment between events)
    (hnext : Framed reach between after later) :
    Framed reach environment after (events ++ later) where
  depth := hnext.depth.trans hfirst.depth
  leaves inside hleft := by
    rcases List.mem_append.mp hleft with hleft | hleft
    · exact hfirst.leaves inside hleft
    · exact hfirst.depth ▸ hnext.leaves inside hleft
  names place hplace := (hnext.names place hplace).trans (hfirst.names place hplace)
  classes place hplace name hchanged := by
    by_cases hlater : (after.level place).get? name = (between.level place).get? name
    · rw [hlater] at hchanged
      exact (hfirst.classes place hplace name hchanged).mono (List.subset_append_left _ _)
    · exact (hnext.classes place hplace name hlater).mono (List.subset_append_right _ _)

/-- What statements one after another do. -/
theorem andThen (hfirst : Framed environment.depth environment between events)
    (hnext : Framed between.depth between after later) :
    Framed environment.depth environment after (events ++ later) :=
  hfirst.trans (hfirst.depth ▸ hnext)

theorem closer (hframed : Framed (reach + 1) environment after events) :
    Framed reach environment after events where
  depth := hframed.depth
  leaves := hframed.leaves
  names place hplace := hframed.names place (Nat.lt_succ_of_lt hplace)
  classes place hplace := hframed.classes place (Nat.lt_succ_of_lt hplace)

theorem met (statement : Stmt) (start : Environment)
    (hframed : Framed reach environment after events) :
    Framed reach environment after (.met statement start :: events) where
  depth := hframed.depth
  leaves inside hleft := by
    rcases List.mem_cons.mp hleft with hhead | hleft
    · cases hhead
    · exact hframed.leaves inside hleft
  names := hframed.names
  classes place hplace name hchanged :=
    (hframed.classes place hplace name hchanged).mono (List.subset_cons_self _ _)

/-- Binding a name changes no scope around the deepest one. -/
theorem bind (environment : Environment) (name : String) (kind : ValueClass) :
    Framed environment.depth environment (environment.bind name kind) [] := by
  have hlevel : ∀ place, place < environment.depth →
      (environment.bind name kind).level place = environment.level place := by
    intro place hplace
    rw [Scopes.level_bind, if_neg hplace.ne]
  refine ⟨Scopes.depth_bind .., fun _ hleft => absurd hleft List.not_mem_nil, ?_, ?_⟩
  · intro place hplace
    rw [hlevel place hplace]
  · intro place hplace other hchanged
    rw [hlevel place hplace] at hchanged
    exact absurd rfl hchanged

theorem assign (line nameLine : Nat) (name : String) (value : Expr) (kind : ValueClass)
    (environment : Environment) :
    Framed environment.depth environment (environment.rebind name kind)
      [.met (.simple line (.assign (.name nameLine name) .assign value)) environment] := by
  obtain ⟨hdepth, changed, hlevel, hfree, hbound⟩ := Scopes.level_rebind environment name kind
  refine ⟨hdepth, fun inside hleft => ?_, ?_, ?_⟩
  · cases List.mem_singleton.mp hleft
  · intro place hplace
    rw [hlevel]
    split
    case isTrue heq =>
      subst heq
      exact Bindings.names_set_of_bound (hbound.resolve_right hplace.ne) kind
    case isFalse => rfl
  · intro place hplace other hchanged
    rw [hlevel] at hchanged
    split at hchanged
    case isTrue heq =>
      subst heq
      have hother : other = name := by
        by_contra hother
        rw [Bindings.get?_set, if_neg (Ne.symm hother)] at hchanged
        exact hchanged rfl
      subst hother
      exact ⟨line, nameLine, value, environment, List.mem_singleton_self _, hfree⟩
    case isFalse => exact absurd rfl hchanged

/-- Leaving a scope that was opened brings back the scopes around it. -/
theorem leave {inside : Environment}
    (hframed : Framed environment.push.depth environment.push inside events) :
    Framed (environment.depth + 1) environment inside.leave (events ++ [.left inside]) := by
  have hdepth : inside.depth = environment.depth + 1 := hframed.depth
  have hlevel : ∀ place, place < environment.depth + 1 →
      inside.leave.level place = inside.level place :=
    fun place hplace => Scopes.level_leave (hdepth ▸ hplace)
  refine ⟨?_, fun opened hleft => ?_, fun place hplace => ?_, fun place hplace name hchanged => ?_⟩
  · rw [Scopes.depth_leave, hdepth, Nat.add_sub_cancel]
  · rcases List.mem_append.mp hleft with hleft | hleft
    · exact Nat.lt_of_succ_lt (hframed.leaves opened hleft)
    · cases List.mem_singleton.mp hleft
      exact hdepth ▸ Nat.lt_succ_self _
  · rw [hlevel place hplace, hframed.names place hplace, Scopes.level_push]
  · rw [hlevel place hplace, ← Scopes.level_push environment] at hchanged
    exact (hframed.classes place hplace name hchanged).mono (List.subset_append_left _ _)

theorem bindParameters (environment : Environment) (declaration : FunctionDecl) :
    Framed environment.depth environment (environment.bindParameters declaration) [] := by
  rw [Environment.bindParameters]
  generalize declaration.parameters.parameters = parameters
  induction parameters generalizing environment with
  | nil => exact refl _ _
  | cons head tail ih =>
      exact (bind environment head.name (.ofType? head.type)).andThen (ih _)

end Framed

/-- An action binds a name in the deepest scope, or is a plain assignment that rebinds one, or
changes nothing. -/
theorem framed_action (line : Nat) (action : Action) (environment : Environment) :
    Framed environment.depth environment (environment.afterAction action)
      [.met (.simple line action) environment] := by
  cases action with
  | assign target operator value =>
      cases target with
      | name nameLine name =>
          cases operator with
          | assign => exact Framed.assign line nameLine name value _ environment
          | _ => exact (Framed.refl _ _).met _ _
      | _ => exact (Framed.refl _ _).met _ _
  | declare | readInto | receive | duration | derivative => exact (Framed.bind _ _ _).met _ _
  | _ => exact (Framed.refl _ _).met _ _

section

variable (check : ClassCheck)

mutual

theorem framed_stmt : ∀ statement environment,
    Framed (Scopes.depth environment) environment (check.stmt environment statement).1
      (check.stmtTrace environment statement)
  | .simple line action, environment => framed_action line action environment
  | .function _ declaration, environment => (framed_function declaration environment).closer.met _ _
  | .classDecl _ ⟨_, _, _, _, classMembers⟩, environment =>
      (framed_members classMembers environment.push).leave.closer.met _ _
  | .nested _ _ body, environment => (framed_block body environment).closer.met _ _
  | .branch _ _ positive alternative, environment =>
      ((framed_block positive environment).closer.andThen (framed_negative alternative _)).met _ _
  | .switch _ _ clauses default, environment =>
      ((framed_cases clauses environment).andThen (framed_fallback default _)).met _ _
  | .select _ _ clauses default, environment =>
      ((framed_arms clauses environment).andThen (framed_fallback default _)).met _ _
  | .attempt _ body _ handler, environment =>
      ((framed_block body environment).closer.andThen (framed_block handler _).closer).met _ _

theorem framed_stmts : ∀ statements environment,
    Framed (Scopes.depth environment) environment (check.stmts environment statements).1
      (check.stmtsTrace environment statements)
  | [], environment => Framed.refl _ environment
  | first :: rest, environment => (framed_stmt first environment).andThen (framed_stmts rest _)

/-- A block reaches its own scope only, so the scope around it is framed as well. -/
theorem framed_block : ∀ body environment,
    Framed (Scopes.depth environment + 1) environment (check.block environment body).1
      (check.blockTrace environment body)
  | ⟨_, statements⟩, environment => (framed_stmts statements environment.push).leave

theorem framed_function : ∀ declaration environment,
    Framed (Scopes.depth environment + 1) environment (check.function environment declaration).1
      (check.functionTrace environment declaration)
  | ⟨line, flavor, name, parameters, result, overlays, body⟩, environment =>
      ((Framed.bindParameters environment.push
        ⟨line, flavor, name, parameters, result, overlays, body⟩).andThen
          (framed_block body _).closer).leave

theorem framed_members : ∀ classMembers environment,
    Framed (Scopes.depth environment) environment (check.members environment classMembers).1
      (check.membersTrace environment classMembers)
  | [], environment => Framed.refl _ environment
  | .field _ binding :: rest, environment =>
      (Framed.bind environment binding.name _).andThen (framed_members rest _)
  | .method _ declaration :: rest, environment =>
      (framed_function declaration environment).closer.andThen (framed_members rest _)

theorem framed_negative : ∀ alternative environment,
    Framed (Scopes.depth environment) environment (check.negative environment alternative).1
      (check.negativeTrace environment alternative)
  | none, environment => Framed.refl _ environment
  | some statement, environment => framed_stmt statement environment

theorem framed_cases : ∀ clauses environment,
    Framed (Scopes.depth environment) environment (check.cases environment clauses).1
      (check.casesTrace environment clauses)
  | [], environment => Framed.refl _ environment
  | ⟨_, body⟩ :: rest, environment =>
      (framed_block body environment).closer.andThen (framed_cases rest _)

theorem framed_arms : ∀ clauses environment,
    Framed (Scopes.depth environment) environment (check.arms environment clauses).1
      (check.armsTrace environment clauses)
  | [], environment => Framed.refl _ environment
  | ⟨_, body⟩ :: rest, environment =>
      (framed_block body environment).closer.andThen (framed_arms rest _)

theorem framed_fallback : ∀ default environment,
    Framed (Scopes.depth environment) environment (check.fallback environment default).1
      (check.fallbackTrace environment default)
  | none, environment => Framed.refl _ environment
  | some body, environment => (framed_block body environment).closer

end

theorem framed_classDecl (line : Nat) (declaration : ClassDecl) (environment : Environment) :
    Framed (Scopes.depth environment + 1) environment
      (check.stmt environment (.classDecl line declaration)).1
      (check.stmtTrace environment (.classDecl line declaration)) := by
  obtain ⟨_, _, _, _, classMembers⟩ := declaration
  exact (framed_members check classMembers environment.push).leave.met _ _

end

/-- What is left of a visit to some statements in the scopes around them: the depth and the names of
every scope are as before, and a name has another class only where one of the statements assigned
it. -/
structure ScopesKept (visited : List Stmt) (environment after : Environment)
    (events : List Event) : Prop where
  met : events.filterMap Event.statement? = visited
  depth : after.depth = environment.depth
  names : ∀ place, (after.level place).names = (environment.level place).names
  classes : ∀ place name,
    (after.level place).get? name ≠ (environment.level place).get? name →
      Reassigned events place name

/-- Past the deepest scope there is nothing that could change. -/
theorem Framed.scopesKept {visited : List Stmt} {environment after : Environment}
    {events : List Event} (hframed : Framed (environment.depth + 1) environment after events)
    (hmet : events.filterMap Event.statement? = visited) :
    ScopesKept visited environment after events := by
  have hdeeper : ∀ place, ¬ place < environment.depth + 1 →
      after.level place = environment.level place := by
    intro place hplace
    have hbeyond : environment.depth < place := Nat.not_lt.mp hplace
    rw [Scopes.level_of_depth_lt hbeyond, Scopes.level_of_depth_lt (hframed.depth ▸ hbeyond)]
  refine ⟨hmet, hframed.depth, fun place => ?_, fun place name hchanged => ?_⟩
  · by_cases hplace : place < environment.depth + 1
    · exact hframed.names place hplace
    · rw [hdeeper place hplace]
  · by_cases hplace : place < environment.depth + 1
    · exact hframed.classes place hplace name hchanged
    · rw [hdeeper place hplace] at hchanged
      exact absurd rfl hchanged

/-- Every check keeps the scopes around a block, a function and a class, whatever they are, and
never leaves the outermost scope of a program.  The two checks of classes meet every statement of
the program, and each with the same environment. -/
theorem scopesKept_and_traces_eq (program : Program) :
    (∀ (check : ClassCheck) (environment : Environment),
      (∀ body, ScopesKept (Node.statements (Node.ofBlock .declarations body)) environment
        (check.block environment body).1 (check.blockTrace environment body)) ∧
      (∀ declaration, ScopesKept (Node.statements (Node.ofFunction declaration)) environment
        (check.function environment declaration).1 (check.functionTrace environment declaration)) ∧
      (∀ line declaration,
        ScopesKept (Node.statements (Node.ofStmt .declarations (.classDecl line declaration)))
          environment (check.stmt environment (.classDecl line declaration)).1
          (check.stmtTrace environment (.classDecl line declaration)))) ∧
    (∀ (check : ClassCheck) (inside : Environment) (error : ScopeError),
      .left inside ∈ check.stmtsTrace .empty program → inside.pop ≠ .error error) ∧
    Analysis.inference.stmtsTrace .empty program = Analysis.operators.stmtsTrace .empty program ∧
    (Analysis.inference.stmtsTrace .empty program).filterMap Event.statement? =
      program.allStatements := by
  refine ⟨fun check environment => ⟨fun body => ?_, fun declaration => ?_, ?_⟩, ?_, ?_, ?_⟩
  · exact (framed_block check body environment).scopesKept (met_blockTrace check body environment)
  · exact (framed_function check declaration environment).scopesKept
      (met_functionTrace check declaration environment)
  · intro line declaration
    exact (framed_classDecl check line declaration environment).scopesKept
      (met_stmtTrace check _ environment)
  · intro check inside error hleft
    have hdepth := (framed_stmts check program .empty).leaves inside hleft
    exact Scopes.pop_ne_error (Nat.zero_lt_of_lt hdepth) error
  · exact (stmts_congr Analysis.inference Analysis.operators program .empty).2
  · exact met_stmtsTrace Analysis.inference program .empty

end ClassCheck

end Tide
