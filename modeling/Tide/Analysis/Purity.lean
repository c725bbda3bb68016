import Tide.Analysis.FunctionTable

/-!
# Purity

A function declared pure must not have side effects, assign to its parameters, or call an impure
function.  A pure region must not have side effects.  Inside a pure function or region everything
was looked at already, so regions in it are passed by.
-/

namespace Tide.Analysis

/-- The findings about a function declared pure. -/
def pureFunction (table : FunctionTable) (declaration : FunctionDecl) : List Diagnostic :=
  let effects := Effects.ofFunction declaration
  let name := declaration.name
  effects.sideEffects.map (fun (line, tag) => ⟨line, .sideEffect name tag⟩)
    ++ effects.reassigned.map (fun (line, parameter) =>
      ⟨line, .reassignedParameter name parameter⟩)
    ++ effects.calls.filterMap fun (line, callee) =>
      match table.find callee with
      | some info => if info.transitivelyPure then none else some ⟨line, .impureCall name callee⟩
      | none => none

/-- The findings about a pure region. -/
def pureRegion (body : Block) : List Diagnostic :=
  (Effects.ofBody [] body).sideEffects.map fun (line, tag) => ⟨line, .sideEffectInRegion tag⟩

namespace Purity

mutual

/-- The findings in a statement, where `inside` says that a pure function or region is around. -/
def stmt (table : FunctionTable) (inside : Bool) : Stmt → List Diagnostic
  | .simple _ _ => []
  | .function _ declaration => function table inside declaration
  | .classDecl _ ⟨_, _, _, _, classMembers⟩ => members table inside classMembers
  | .nested _ .pureRegion body =>
    (if inside then [] else pureRegion body) ++ block table true body
  | .nested _ _ body => block table inside body
  | .branch _ _ positive branch => block table inside positive ++ negative table inside branch
  | .switch _ _ clauses default => cases table inside clauses ++ fallback table inside default
  | .select _ _ clauses default => arms table inside clauses ++ fallback table inside default
  | .attempt _ body _ handler => block table inside body ++ block table inside handler

def stmts (table : FunctionTable) (inside : Bool) : List Stmt → List Diagnostic
  | [] => []
  | first :: rest => stmt table inside first ++ stmts table inside rest

def block (table : FunctionTable) (inside : Bool) : Block → List Diagnostic
  | ⟨_, statements⟩ => stmts table inside statements

def function (table : FunctionTable) (inside : Bool) : FunctionDecl → List Diagnostic
  | ⟨line, flavor, name, parameters, result, overlays, body⟩ =>
    let declaration : FunctionDecl := ⟨line, flavor, name, parameters, result, overlays, body⟩
    if declaration.isPure then pureFunction table declaration ++ block table true body
    else block table inside body

def members (table : FunctionTable) (inside : Bool) : List ClassMember → List Diagnostic
  | [] => []
  | .field _ _ :: rest => members table inside rest
  | .method _ declaration :: rest =>
    function table inside declaration ++ members table inside rest

def negative (table : FunctionTable) (inside : Bool) : Option Stmt → List Diagnostic
  | none => []
  | some statement => stmt table inside statement

def cases (table : FunctionTable) (inside : Bool) : List SwitchCase → List Diagnostic
  | [] => []
  | ⟨_, body⟩ :: rest => block table inside body ++ cases table inside rest

def arms (table : FunctionTable) (inside : Bool) : List MatchArm → List Diagnostic
  | [] => []
  | ⟨_, body⟩ :: rest => block table inside body ++ arms table inside rest

def fallback (table : FunctionTable) (inside : Bool) : Option Block → List Diagnostic
  | none => []
  | some body => block table inside body

end

end Purity

/-- Every breach of purity in a program. -/
def purity (table : FunctionTable) (program : Program) : List Diagnostic :=
  Purity.stmts table false program

end Tide.Analysis
