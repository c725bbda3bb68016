import Tide.Proofs.Sign.Changes

/-!
# Scopes are taken away only where they were opened

Taking the outermost scope away is an error.  The walk here makes that error where the walk of the
check would pass over it, and gives the same facts otherwise.  It never ends in the error, so the
walk of the check never takes the outermost scope away.
-/

namespace Tide

namespace SignCheck.Guarded

variable (check : SignCheck) (table : FunctionTable)

mutual

/-- The facts after a statement, or the error. -/
def stmt (contract : Option Contract) (facts : Facts) : Stmt → Except ScopeError Facts
  | .simple line action => .ok (check.action contract facts line action).1
  | .function _ declaration => function facts declaration
  | .classDecl _ ⟨_, _, _, _, classMembers⟩ => members facts classMembers
  | .nested _ _ body => block contract facts body
  | .branch _ _ positive alternative => do
    let after ← block contract facts positive
    negative contract after alternative
  | .switch _ _ clauses default => do
    let after ← cases contract facts clauses
    fallback contract after default
  | .select _ _ clauses default => do
    let after ← arms contract facts clauses
    fallback contract after default
  | .attempt _ body _ handler => do
    let after ← block contract facts body
    block contract after handler

def stmts (contract : Option Contract) (facts : Facts) : List Stmt → Except ScopeError Facts
  | [] => .ok facts
  | first :: rest => do
    let after ← stmt contract facts first
    stmts contract after rest

def block (contract : Option Contract) (facts : Facts) : Block → Except ScopeError Facts
  | ⟨_, statements⟩ => do
    let inside ← stmts contract facts.push statements
    let (bindings, around) ← inside.pop
    return bindings.names.foldl (fun outer name => outer.bind name .unknown) around

def function (facts : Facts) : FunctionDecl → Except ScopeError Facts
  | ⟨_, _, name, _, _, _, ⟨_, statements⟩⟩ => do
    let contract := contractOf table name
    let start := contract.parameters.foldl (fun inner parameter => inner.bind parameter .nonneg)
      facts.push
    let inside ← stmts (some contract) start statements
    let (_, around) ← inside.pop
    return around

def members (facts : Facts) : List ClassMember → Except ScopeError Facts
  | [] => .ok facts
  | .field _ _ :: rest => members facts rest
  | .method _ declaration :: rest => do
    let after ← function facts declaration
    members after rest

def negative (contract : Option Contract) (facts : Facts) : Option Stmt → Except ScopeError Facts
  | none => .ok facts
  | some statement => stmt contract facts statement

def cases (contract : Option Contract) (facts : Facts) : List SwitchCase → Except ScopeError Facts
  | [] => .ok facts
  | ⟨_, body⟩ :: rest => do
    let after ← block contract facts body
    cases contract after rest

def arms (contract : Option Contract) (facts : Facts) : List MatchArm → Except ScopeError Facts
  | [] => .ok facts
  | ⟨_, body⟩ :: rest => do
    let after ← block contract facts body
    arms contract after rest

def fallback (contract : Option Contract) (facts : Facts) : Option Block → Except ScopeError Facts
  | none => .ok facts
  | some body => block contract facts body

end

mutual

/-- The walk does not end in the error, and its facts are those of the check. -/
theorem stmt_eq : ∀ statement contract facts,
    stmt check table contract facts statement = .ok (check.stmt table contract facts statement).1
  | .simple _ _, _, _ => rfl
  | .function _ declaration, _, facts => function_eq declaration facts
  | .classDecl _ ⟨_, _, _, _, classMembers⟩, _, facts => members_eq classMembers facts
  | .nested _ _ body, contract, facts => block_eq body contract facts
  | .branch _ _ positive alternative, contract, facts => by
      rw [stmt, block_eq positive]
      exact negative_eq alternative contract _
  | .switch _ _ clauses default, contract, facts => by
      rw [stmt, cases_eq clauses]
      exact fallback_eq default contract _
  | .select _ _ clauses default, contract, facts => by
      rw [stmt, arms_eq clauses]
      exact fallback_eq default contract _
  | .attempt _ body _ handler, contract, facts => by
      rw [stmt, block_eq body]
      exact block_eq handler contract _

theorem stmts_eq : ∀ statements contract facts,
    stmts check table contract facts statements =
      .ok (check.stmts table contract facts statements).1
  | [], _, _ => rfl
  | first :: rest, contract, facts => by
      rw [stmts, stmt_eq first]
      exact stmts_eq rest contract _

theorem block_eq : ∀ body contract facts,
    block check table contract facts body = .ok (check.block table contract facts body).1
  | ⟨line, statements⟩, contract, facts => by
      have hchanges := changes_run check table contract statements facts.push
      have hafter : (check.block table contract facts ⟨line, statements⟩).1 =
        Facts.leaveBlock (check.stmts table contract facts.push statements).1 := rfl
      rw [block, stmts_eq statements, hafter, Facts.leaveBlock, hchanges.leave_eq]
      change (Scopes.pop _ >>= _) = _
      rw [hchanges.pop_eq]
      rfl

theorem function_eq : ∀ declaration facts,
    function check table facts declaration = .ok (check.function table facts declaration).1
  | ⟨_, _, name, _, _, _, ⟨_, statements⟩⟩, facts => by
      obtain ⟨touched, hchanges⟩ := changes_body (contractOf table name)
        (fun statement (_ : statement ∈ statements) => changes_stmt check table statement) facts
      rw [function_unchanged, function, stmts_eq statements]
      change (Scopes.pop _ >>= _) = _
      rw [hchanges.pop_eq]
      rfl

theorem members_eq : ∀ classMembers facts,
    members check table facts classMembers = .ok (check.members table facts classMembers).1
  | [], _ => rfl
  | .field _ _ :: rest, facts => members_eq rest facts
  | .method _ declaration :: rest, facts => by
      rw [members, function_eq declaration]
      exact members_eq rest _

theorem negative_eq : ∀ alternative contract facts,
    negative check table contract facts alternative =
      .ok (check.negative table contract facts alternative).1
  | none, _, _ => rfl
  | some statement, contract, facts => stmt_eq statement contract facts

theorem cases_eq : ∀ clauses contract facts,
    cases check table contract facts clauses = .ok (check.cases table contract facts clauses).1
  | [], _, _ => rfl
  | ⟨_, body⟩ :: rest, contract, facts => by
      rw [cases, block_eq body]
      exact cases_eq rest contract _

theorem arms_eq : ∀ clauses contract facts,
    arms check table contract facts clauses = .ok (check.arms table contract facts clauses).1
  | [], _, _ => rfl
  | ⟨_, body⟩ :: rest, contract, facts => by
      rw [arms, block_eq body]
      exact arms_eq rest contract _

theorem fallback_eq : ∀ default contract facts,
    fallback check table contract facts default =
      .ok (check.fallback table contract facts default).1
  | none, _, _ => rfl
  | some body, contract, facts => block_eq body contract facts

end

end SignCheck.Guarded

end Tide
