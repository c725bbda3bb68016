import Tide.Analysis.FunctionTable
import Tide.Number.Basic

/-!
# Signs of variables

Facts about the signs of variables flow from statement to statement.  They are kept block by block:
a nested block starts without any, and when it is left, every name it bound is unknown in the block
around it.  So no fact outlives a branch that may have changed it.
-/

namespace Tide

/-- What is known of the sign of a value. -/
inductive Sign where
  | unknown
  | nonneg
  | negative
  deriving DecidableEq, Inhabited

namespace Sign

def ofNumber (number : Number) : Sign :=
  if Number.atMost .zero number then nonneg
  else if number.lessThan .zero then negative
  else unknown

def add : Sign → Sign → Sign
  | nonneg, nonneg => nonneg
  | _, _ => unknown

/-- The sign of a product.  Nothing is said of the product of two negative values. -/
def multiply : Sign → Sign → Sign
  | nonneg, nonneg => nonneg
  | _, _ => unknown

/-- The sign of a negated literal.  Of the zero it is known too. -/
def ofNegated (operand : Expr) : Sign :=
  match operand.number? with
  | some value =>
    if Number.lessThan .zero value then negative
    else if value.isZero then nonneg
    else unknown
  | none => unknown

end Sign

/-- The signs of the names in scope. -/
abbrev Facts := Scopes Sign

namespace Facts

/-- What is known of a name in the current block. -/
def sign (facts : Facts) (name : String) : Sign :=
  (facts.shallow? name).getD .unknown

def evaluate (facts : Facts) : Expr → Sign
  | .literal _ (.number value) => .ofNumber value
  | .name _ name => facts.sign name
  | .unary _ .negate operand => .ofNegated operand
  | .binary _ .add left right => (facts.evaluate left).add (facts.evaluate right)
  | .binary _ .multiply left right => (facts.evaluate left).multiply (facts.evaluate right)
  | .ternary _ _ positive negative =>
    let sign := facts.evaluate positive
    if sign = facts.evaluate negative then sign else .unknown
  | _ => .unknown

/-- Leaves a block: what it bound is unknown in the block around it. -/
def leaveBlock (facts : Facts) : Facts :=
  facts.innermost.names.foldl (fun outer name => outer.bind name .unknown) facts.leave

end Facts

/-- What to report while signs are followed. -/
inductive SignCheck where
  /-- Contracted parameters that their own function makes negative. -/
  | definitions
  /-- Arguments that are negative for sure, where the parameter is contracted not to be. -/
  | callSites
  deriving DecidableEq

/-- The function around, and its contracted parameters. -/
structure Contract where
  function : String
  parameters : List String

namespace SignCheck

/-- The findings about the arguments of one call. -/
def callFindings (table : FunctionTable) (facts : Facts) : Expr → List Diagnostic
  | .call _ callee arguments =>
    match callee.calleeName.bind table.find with
    | none => []
    | some info =>
      (info.parameters.zip arguments).filterMap fun ((parameter, _), argument) =>
        if info.nonneg.contains parameter && facts.evaluate argument = .negative then
          some ⟨argument.line, .negativeArgument parameter info.name⟩
        else none
  | _ => []

/-- The findings about the calls in some expressions. -/
def calls (check : SignCheck) (table : FunctionTable) (facts : Facts) (expressions : List Expr) :
    List Diagnostic :=
  match check with
  | .definitions => []
  | .callSites =>
    expressions.flatMap fun expression => expression.subterms.flatMap (callFindings table facts)

/-- Gives a variable a new sign, which may break the contract of the function around. -/
def assign (check : SignCheck) (contract : Option Contract) (facts : Facts) (line : Nat)
    (name : String) (sign : Sign) : Facts × List Diagnostic :=
  let broken : List Diagnostic :=
    match check, sign, contract with
    | .definitions, .negative, some contract =>
      if contract.parameters.contains name then [⟨line, .madeNegative name contract.function⟩]
      else []
    | _, _, _ => []
  (facts.bind name sign, broken)

/-- The name that an action gives a new sign to, and that sign. -/
def assigned (facts : Facts) : Action → Option (String × Sign)
  | .assign target operator value =>
    target.rootName.map fun root =>
      (root,
        match target, operator with
        | .name _ _, .assign => facts.evaluate value
        | .name _ name, .add => (facts.sign name).add (facts.evaluate value)
        | .name _ name, .multiply => (facts.sign name).multiply (facts.evaluate value)
        | _, _ => .unknown)
  | .step target operator =>
    target.rootName.map fun root =>
      (root,
        match target, operator with
        | .name _ name, .increment => (facts.sign name).add .nonneg
        | _, _ => .unknown)
  | .mutate target value =>
    target.rootName.map fun root =>
      (root,
        match target with
        | .name _ _ => facts.evaluate value
        | _ => .unknown)
  | .bounds name low high =>
    some (name,
      if facts.evaluate low = .nonneg then .nonneg
      else if facts.evaluate high = .negative then .negative
      else .unknown)
  | .duration name amount _ => some (name, facts.evaluate amount)
  | .scale name _ _ _ _ | .input name | .readInto _ name | .receive _ name
  | .derivative name _ _ => some (name, .unknown)
  | _ => none

/-- The facts after an action, and what it breaks. -/
def action (check : SignCheck) (contract : Option Contract) (facts : Facts) (line : Nat)
    (action : Action) : Facts × List Diagnostic :=
  match action with
  | .declare binding =>
    (facts.bind binding.name ((binding.value.map facts.evaluate).getD .unknown), [])
  | action =>
    match assigned facts action with
    | some (name, sign) => check.assign contract facts line name sign
    | none => (facts, [])

/-- The contract that the table has for a function. -/
def contractOf (table : FunctionTable) (name : String) : Contract :=
  ⟨name, ((table.find name).map (·.nonneg)).getD []⟩

mutual

/-- The facts after a statement, and the findings in it. -/
def stmt (check : SignCheck) (table : FunctionTable) (contract : Option Contract) (facts : Facts) :
    Stmt → Facts × List Diagnostic
  | .simple line action =>
    let head := check.calls table facts action.expressions
    let (after, found) := check.action contract facts line action
    (after, head ++ found)
  | .function _ declaration => check.function table facts declaration
  | .classDecl _ ⟨_, _, _, _, classMembers⟩ => check.members table facts classMembers
  | .nested _ opener body =>
    let head := check.calls table facts opener.expressions
    let (after, found) := check.block table contract facts body
    (after, head ++ found)
  | .branch _ condition positive negative =>
    let head := check.calls table facts [condition]
    let (afterPositive, foundPositive) := check.block table contract facts positive
    let (after, foundNegative) := check.negative table contract afterPositive negative
    (after, head ++ foundPositive ++ foundNegative)
  | .switch _ scrutinee clauses fallback =>
    let head := check.calls table facts [scrutinee]
    let (afterCases, foundCases) := check.cases table contract facts clauses
    let (after, foundFallback) := check.fallback table contract afterCases fallback
    (after, head ++ foundCases ++ foundFallback)
  | .select _ scrutinee clauses fallback =>
    let head := check.calls table facts [scrutinee]
    let (afterArms, foundArms) := check.arms table contract facts clauses
    let (after, foundFallback) := check.fallback table contract afterArms fallback
    (after, head ++ foundArms ++ foundFallback)
  | .attempt _ body _ handler =>
    let (afterBody, foundBody) := check.block table contract facts body
    let (after, foundHandler) := check.block table contract afterBody handler
    (after, foundBody ++ foundHandler)

def stmts (check : SignCheck) (table : FunctionTable) (contract : Option Contract) (facts : Facts) :
    List Stmt → Facts × List Diagnostic
  | [] => (facts, [])
  | first :: rest =>
    let (afterFirst, foundFirst) := check.stmt table contract facts first
    let (after, foundRest) := check.stmts table contract afterFirst rest
    (after, foundFirst ++ foundRest)

def block (check : SignCheck) (table : FunctionTable) (contract : Option Contract) (facts : Facts) :
    Block → Facts × List Diagnostic
  | ⟨_, statements⟩ =>
    let (inside, found) := check.stmts table contract facts.push statements
    (inside.leaveBlock, found)

/-- A function starts from its own contract, and what it binds does not reach the outside. -/
def function (check : SignCheck) (table : FunctionTable) (facts : Facts) :
    FunctionDecl → Facts × List Diagnostic
  | ⟨_, _, name, _, _, _, ⟨_, statements⟩⟩ =>
    let contract := contractOf table name
    let start := contract.parameters.foldl (fun inner parameter => inner.bind parameter .nonneg)
      facts.push
    let (inside, found) := check.stmts table (some contract) start statements
    (inside.leave, found)

def members (check : SignCheck) (table : FunctionTable) (facts : Facts) :
    List ClassMember → Facts × List Diagnostic
  | [] => (facts, [])
  | .field _ _ :: rest => check.members table facts rest
  | .method _ declaration :: rest =>
    let (afterMethod, foundMethod) := check.function table facts declaration
    let (after, foundRest) := check.members table afterMethod rest
    (after, foundMethod ++ foundRest)

def negative (check : SignCheck) (table : FunctionTable) (contract : Option Contract)
    (facts : Facts) : Option Stmt → Facts × List Diagnostic
  | none => (facts, [])
  | some statement => check.stmt table contract facts statement

def cases (check : SignCheck) (table : FunctionTable) (contract : Option Contract) (facts : Facts) :
    List SwitchCase → Facts × List Diagnostic
  | [] => (facts, [])
  | ⟨_, body⟩ :: rest =>
    let (afterFirst, foundFirst) := check.block table contract facts body
    let (after, foundRest) := check.cases table contract afterFirst rest
    (after, foundFirst ++ foundRest)

def arms (check : SignCheck) (table : FunctionTable) (contract : Option Contract) (facts : Facts) :
    List MatchArm → Facts × List Diagnostic
  | [] => (facts, [])
  | ⟨_, body⟩ :: rest =>
    let (afterFirst, foundFirst) := check.block table contract facts body
    let (after, foundRest) := check.arms table contract afterFirst rest
    (after, foundFirst ++ foundRest)

def fallback (check : SignCheck) (table : FunctionTable) (contract : Option Contract)
    (facts : Facts) : Option Block → Facts × List Diagnostic
  | none => (facts, [])
  | some body => check.block table contract facts body

end

/-- The findings in a whole program. -/
def run (check : SignCheck) (table : FunctionTable) (program : Program) : List Diagnostic :=
  (check.stmts table none .empty program).2

end SignCheck

end Tide
