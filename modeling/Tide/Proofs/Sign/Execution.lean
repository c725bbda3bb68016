import Tide.Analysis.Sign
import Tide.Proofs.Number.ZeroSign

/-!
# Straight-line runs on exact numbers

Variables hold rational numbers, literals stand for their exact values, and arithmetic does not
round.  Which branch a condition takes is left open, and so is what calls, indexing and member
access give, so an expression can have several values and a run can end in several ways.
-/

namespace Tide

/-- The exact value of a finite number. -/
def Number.exact (number : Number) : ℚ := number.units / unitsPerOne

/-- The value of an arithmetic operator.  There is none for a division by zero, and a remainder has
the sign of the dividend. -/
def BinaryOp.onRationals (operator : BinaryOp) (left right : ℚ) : Option ℚ :=
  match operator with
  | .add => some (left + right)
  | .subtract => some (left - right)
  | .multiply => some (left * right)
  | .divide => if right = 0 then none else some (left / right)
  | .modulus =>
    let quotient := left / right
    if right = 0 then none else some (left - right * quotient.num.tdiv quotient.den)
  | _ => none

/-- How many seconds the unit has. -/
def TimeUnit.seconds : TimeUnit → ℚ
  | nanosecond => 1 / 1000000000
  | microsecond => 1 / 1000000
  | millisecond => 1 / 1000
  | second => 1
  | minute => 60
  | hour => 3600

/-- The values of the variables. -/
abbrev Store := String → ℚ

namespace Expr

/-- The expression can have the value. -/
inductive HasValue (store : Store) : Expr → ℚ → Prop
  | literal {line number} (hfinite : number.isFinite = true) :
      HasValue store (.literal line (.number number)) number.exact
  | name {line text} : HasValue store (.name line text) (store text)
  | negate {line operand value} (hoperand : HasValue store operand value) :
      HasValue store (.unary line .negate operand) (-value)
  | binary {line operator left right leftValue rightValue value}
      (hleft : HasValue store left leftValue) (hright : HasValue store right rightValue)
      (hvalue : operator.onRationals leftValue rightValue = some value) :
      HasValue store (.binary line operator left right) value
  | positive {line condition positive negative value} (hbranch : HasValue store positive value) :
      HasValue store (.ternary line condition positive negative) value
  | negative {line condition positive negative value} (hbranch : HasValue store negative value) :
      HasValue store (.ternary line condition positive negative) value
  | call {line callee arguments value} : HasValue store (.call line callee arguments) value
  | index {line target place value} : HasValue store (.index line target place) value
  | member {line target field value} : HasValue store (.member line target field) value

/-- The target is an element or a member of the variable. -/
inductive IsPartOf : Expr → String → Prop
  | index {line target place root} (hroot : target.rootName = some root) :
      IsPartOf (.index line target place) root
  | member {line target field root} (hroot : target.rootName = some root) :
      IsPartOf (.member line target field) root

end Expr

/-- The action can leave the value in the variable.  A variable that is declared without a value can
have any, and so can one that was assigned to in part. -/
inductive Action.Sets (store : Store) : Action → String → ℚ → Prop
  | declare {binding expression value} (hbinding : binding.value = some expression)
      (hvalue : expression.HasValue store value) : Sets store (.declare binding) binding.name value
  | declareOpen {binding value} (hbinding : binding.value = none) :
      Sets store (.declare binding) binding.name value
  | assign {line name expression value} (hvalue : expression.HasValue store value) :
      Sets store (.assign (.name line name) .assign expression) name value
  | compound {line name operator binary expression value result}
      (hoperator : operator.binary? = some binary) (hvalue : expression.HasValue store value)
      (hresult : binary.onRationals (store name) value = some result) :
      Sets store (.assign (.name line name) operator expression) name result
  | assignPart {target operator expression name value} (hpart : target.IsPartOf name) :
      Sets store (.assign target operator expression) name value
  | increment {line name} :
      Sets store (.step (.name line name) .increment) name (store name + 1)
  | decrement {line name} :
      Sets store (.step (.name line name) .decrement) name (store name - 1)
  | stepPart {target operator name value} (hpart : target.IsPartOf name) :
      Sets store (.step target operator) name value
  | mutate {line name expression value} (hvalue : expression.HasValue store value) :
      Sets store (.mutate (.name line name) expression) name value
  | mutatePart {target expression name value} (hpart : target.IsPartOf name) :
      Sets store (.mutate target expression) name value
  | bounds {name low high lowValue highValue} (hlow : low.HasValue store lowValue)
      (hhigh : high.HasValue store highValue) :
      Sets store (.bounds name low high) name (min (max (store name) lowValue) highValue)
  | duration {name amount unit value} (hvalue : amount.HasValue store value) :
      Sets store (.duration name amount unit) name (value * unit.seconds)

/-- Running the statements from the first store can end in the second. -/
inductive Runs (store : Store) : List Stmt → Store → Prop
  | start : Runs store [] store
  | step {front before line action name value} (hfront : Runs store front before)
      (hsets : action.Sets before name value) :
      Runs store (front ++ [.simple line action]) (Function.update before name value)

/-! ## Signs of exact values -/

namespace Number

theorem cast_unitsPerOne_pos : (0 : ℚ) < unitsPerOne := Nat.cast_pos.mpr unitsPerOne_pos

/-- A number has the sign of its units. -/
theorem exact_nonneg_iff (number : Number) : 0 ≤ number.exact ↔ 0 ≤ number.units := by
  rw [exact, le_div_iff₀ cast_unitsPerOne_pos, zero_mul, Int.cast_nonneg_iff]

theorem exact_neg_iff (number : Number) : number.exact < 0 ↔ number.units < 0 := by
  rw [exact, div_lt_iff₀ cast_unitsPerOne_pos, zero_mul, Int.cast_lt_zero]

theorem exact_pos_iff (number : Number) : 0 < number.exact ↔ 0 < number.units := by
  rw [exact, lt_div_iff₀ cast_unitsPerOne_pos, zero_mul, Int.cast_pos]

theorem units_zero : zero.units = 0 := by
  decide +kernel

theorem exact_of_isZero {number : Number} (hzero : number.isZero = true) : number.exact = 0 := by
  rw [exact, units_of_isZero hzero, Int.cast_zero, zero_div]

theorem exact_one : one.exact = 1 := by
  rw [exact, units_one, Int.cast_natCast, div_self cast_unitsPerOne_pos.ne']

end Number

theorem TimeUnit.seconds_pos (unit : TimeUnit) : 0 < unit.seconds := by
  cases unit <;> norm_num [seconds]

end Tide
