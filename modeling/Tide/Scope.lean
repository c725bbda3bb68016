/-!
# Scopes

What names stand for, scope by scope.  The outermost scope is always there; blocks and functions put
scopes inside it and take them away in the opposite order.
-/

namespace Tide

/-- The bindings of one scope, with one entry for each name. -/
abbrev Bindings (α : Type) := List (String × α)

namespace Bindings

variable {α : Type}

def get? (bindings : Bindings α) (name : String) : Option α :=
  bindings.lookup name

/-- Binds `name` to `value`, in place of what it was bound to. -/
def set (name : String) (value : α) : Bindings α → Bindings α
  | [] => [(name, value)]
  | (other, old) :: rest =>
    if other = name then (name, value) :: rest else (other, old) :: set name value rest

def names (bindings : Bindings α) : List String :=
  bindings.map (·.1)

end Bindings

structure Scopes (α : Type) where
  outermost : Bindings α
  /-- The scopes inside the outermost one, the innermost first. -/
  inner : List (Bindings α)

inductive ScopeError where
  /-- The outermost scope cannot be taken away. -/
  | outermost
  deriving DecidableEq

def ScopeError.message : ScopeError → String
  | outermost => "Attempted to pop a shallow scope from the global context"

namespace Scopes

variable {α : Type}

def empty : Scopes α := ⟨[], []⟩

instance : Inhabited (Scopes α) := ⟨empty⟩

def depth (scopes : Scopes α) : Nat := scopes.inner.length

/-- Opens a scope inside the innermost one. -/
def push (scopes : Scopes α) : Scopes α :=
  { scopes with inner := [] :: scopes.inner }

/-- Takes the innermost scope away and gives its bindings. -/
def pop (scopes : Scopes α) : Except ScopeError (Bindings α × Scopes α) :=
  match scopes.inner with
  | [] => .error .outermost
  | innermost :: inner => .ok (innermost, { scopes with inner := inner })

/-- The bindings of the innermost scope. -/
def innermost (scopes : Scopes α) : Bindings α :=
  scopes.inner.headD scopes.outermost

/-- Binds a name in the innermost scope. -/
def bind (scopes : Scopes α) (name : String) (value : α) : Scopes α :=
  match scopes.inner with
  | [] => { scopes with outermost := scopes.outermost.set name value }
  | innermost :: inner => { scopes with inner := innermost.set name value :: inner }

/-- What a name is bound to in the innermost scope. -/
def shallow? (scopes : Scopes α) (name : String) : Option α :=
  scopes.innermost.get? name

/-- What a name is bound to in the innermost scope that binds it. -/
def get? (scopes : Scopes α) (name : String) : Option α :=
  (scopes.inner.findSome? (·.get? name)).or (scopes.outermost.get? name)

/-- Rebinds a name in the innermost of some scopes that binds it, if there is one. -/
def rebindIn? (name : String) (value : α) : List (Bindings α) → Option (List (Bindings α))
  | [] => none
  | bindings :: rest =>
    if (bindings.get? name).isSome then some (bindings.set name value :: rest)
    else (rebindIn? name value rest).map (bindings :: ·)

/-- Rebinds a name in the innermost scope that binds it, or binds it in the innermost scope when
none does. -/
def rebind (scopes : Scopes α) (name : String) (value : α) : Scopes α :=
  match rebindIn? name value scopes.inner with
  | some inner => { scopes with inner := inner }
  | none =>
    if (scopes.outermost.get? name).isSome then
      { scopes with outermost := scopes.outermost.set name value }
    else scopes.bind name value

/-- Leaves the innermost scope, whose bindings are given up. -/
def leave (scopes : Scopes α) : Scopes α :=
  match scopes.pop with
  | .ok (_, outer) => outer
  | .error _ => scopes

end Scopes

end Tide
