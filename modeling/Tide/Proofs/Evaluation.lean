import Tide.Optimize.Fold
import Tide.Proofs.Number.ZeroSign

/-!
# Values of expressions

An expression has a value when its names and operators have one.  Which values calls, indexing and
member access give is left open: they are arbitrary partial functions of the values of their parts.

Values are compared up to the sign of zero, and nothing in an expression can tell the two zeros
apart.
-/

namespace Tide

namespace Literal

/-- The literal, with a negative zero read as zero. -/
def unsignedZero : Literal → Literal
  | number value => number value.unsignedZero
  | value => value

/-- Equal up to the sign of zero. -/
def SameValue (left right : Literal) : Prop :=
  left.unsignedZero = right.unsignedZero

instance (left right : Literal) : Decidable (SameValue left right) :=
  inferInstanceAs (Decidable (left.unsignedZero = right.unsignedZero))

@[simp]
theorem SameValue.refl (value : Literal) : SameValue value value := rfl

theorem SameValue.symm {left right : Literal} (hsame : SameValue left right) :
    SameValue right left := Eq.symm hsame

theorem SameValue.trans {left middle right : Literal} (hleft : SameValue left middle)
    (hright : SameValue middle right) : SameValue left right := Eq.trans hleft hright

@[simp]
theorem sameValue_number_iff (left right : Number) :
    SameValue (number left) (number right) ↔ left.SameValue right := by
  simp [SameValue, Number.SameValue, unsignedZero]

/-- Only numbers differ from the same value. -/
theorem SameValue.cases {left right : Literal} (hsame : SameValue left right) :
    left = right ∨ ∃ leftValue rightValue, left = number leftValue ∧ right = number rightValue ∧
      leftValue.SameValue rightValue := by
  cases left <;> cases right <;>
    simp_all [SameValue, Number.SameValue, unsignedZero]

end Literal

/-! ## Operators on the same values -/

namespace BinaryOp

/-- A number that an operator gives is kept when it is finite. -/
theorem exists_sameValue_of_finite {result result' : Number} {value : Literal}
    (hsame : result.isFinite = true → result.SameValue result')
    (hvalue : (if result.isFinite then some (Literal.number result) else none) = some value) :
    ∃ value', (if result'.isFinite then some (Literal.number result') else none) = some value' ∧
      value.SameValue value' := by
  split at hvalue
  case isTrue hfinite =>
    have hfinite' : result'.isFinite = true := (hsame hfinite).isFinite_eq ▸ hfinite
    rw [if_pos hfinite']
    cases hvalue
    exact ⟨_, rfl, (Literal.sameValue_number_iff _ _).mpr (hsame hfinite)⟩
  case isFalse => simp at hvalue

theorem exists_onNumbers_of_sameValue (operator : BinaryOp) {left left' right right' : Number}
    {value : Literal} (hleft : left.SameValue left') (hright : right.SameValue right')
    (hvalue : operator.onNumbers left right = some value) :
    ∃ value', operator.onNumbers left' right' = some value' ∧ value.SameValue value' := by
  cases operator with
  | add => exact exists_sameValue_of_finite (hleft.add hright) hvalue
  | subtract => exact exists_sameValue_of_finite (hleft.sub hright) hvalue
  | multiply => exact exists_sameValue_of_finite (hleft.mul hright) hvalue
  | divide => exact exists_sameValue_of_finite (fun _ => hright.unlessZero hleft.div) hvalue
  | modulus => exact exists_sameValue_of_finite (fun _ => hright.unlessZero hleft.rem) hvalue
  | lessThan | greaterThan | lessOrEqual | greaterOrEqual | equals | notEquals =>
      refine ⟨value, ?_, Literal.SameValue.refl value⟩
      simpa only [onNumbers, Number.lessThan, Number.atMost, Number.equals, hleft.isNaN_eq,
        hright.isNaN_eq, hleft.units_eq, hright.units_eq] using hvalue
  | logicalAnd | logicalOr => simp [onNumbers] at hvalue

/-- An operator gives the same value on the same values. -/
theorem exists_onLiterals_of_sameValue (operator : BinaryOp) {left left' right right' : Literal}
    {value : Literal} (hleft : left.SameValue left') (hright : right.SameValue right')
    (hvalue : operator.onLiterals left right = some value) :
    ∃ value', operator.onLiterals left' right' = some value' ∧ value.SameValue value' := by
  rcases hleft.cases with rfl | ⟨leftNumber, leftNumber', rfl, rfl, hleftNumber⟩
  · rcases hright.cases with rfl | ⟨rightNumber, rightNumber', rfl, rfl, hrightNumber⟩
    · exact ⟨value, hvalue, Literal.SameValue.refl value⟩
    · cases left with
      | number leftNumber =>
          exact exists_onNumbers_of_sameValue operator (Number.SameValue.refl _) hrightNumber hvalue
      | string | boolean => simp [onLiterals] at hvalue
  · cases right with
    | number rightNumber =>
        cases right' with
        | number rightNumber' =>
            exact exists_onNumbers_of_sameValue operator hleftNumber
              ((Literal.sameValue_number_iff _ _).mp hright) hvalue
        | string | boolean => simp [Literal.SameValue, Literal.unsignedZero] at hright
    | string | boolean => simp [onLiterals] at hvalue

end BinaryOp

theorem UnaryOp.exists_onLiteral_of_sameValue (operator : UnaryOp)
    {operand operand' value : Literal} (hsame : operand.SameValue operand')
    (hvalue : operator.onLiteral operand = some value) :
    ∃ value', operator.onLiteral operand' = some value' ∧ value.SameValue value' := by
  rcases hsame.cases with rfl | ⟨number, number', rfl, rfl, hnumber⟩
  · exact ⟨value, hvalue, Literal.SameValue.refl value⟩
  · cases operator with
    | negate =>
        cases hvalue
        exact ⟨_, rfl, (Literal.sameValue_number_iff _ _).mpr hnumber.neg⟩
    | complement => simp [onLiteral] at hvalue

theorem Literal.SameValue.truth?_eq {left right : Literal} (hsame : left.SameValue right) :
    left.truth? = right.truth? := by
  rcases hsame.cases with rfl | ⟨number, number', rfl, rfl, hnumber⟩
  · rfl
  · simp only [truth?, hnumber.isZero_eq]

/-! ## Evaluation -/

/-- What calls, indexing and member access give, where they give anything. -/
structure Interpretation where
  call : (callee : Literal) → (arguments : List Literal) → Option Literal
  index : (target place : Literal) → Option Literal
  member : (target : Literal) → (field : String) → Option Literal

namespace Expr

mutual

/-- The value of an expression whose names have the values of `valuation`.  Calls, indexing and
member access are functions of values, so the sign of a zero is not passed on to them. -/
def eval (meaning : Interpretation) (valuation : String → Option Literal) :
    Expr → Option Literal
  | literal _ value => some value
  | name _ text => valuation text
  | unary _ operator operand => (operand.eval meaning valuation).bind operator.onLiteral
  | binary _ operator left right =>
    (left.eval meaning valuation).bind fun leftValue =>
      (right.eval meaning valuation).bind fun rightValue =>
        operator.onLiterals leftValue rightValue
  | ternary _ condition positive negative =>
    ((condition.eval meaning valuation).bind Literal.truth?).bind fun holds =>
      if holds then positive.eval meaning valuation else negative.eval meaning valuation
  | call _ callee arguments =>
    (callee.eval meaning valuation).bind fun calleeValue =>
      (evalAll meaning valuation arguments).bind fun values =>
        meaning.call calleeValue.unsignedZero (values.map Literal.unsignedZero)
  | index _ target place =>
    (target.eval meaning valuation).bind fun targetValue =>
      (place.eval meaning valuation).bind fun placeValue =>
        meaning.index targetValue.unsignedZero placeValue.unsignedZero
  | member _ target field =>
    (target.eval meaning valuation).bind fun targetValue =>
      meaning.member targetValue.unsignedZero field

def evalAll (meaning : Interpretation) (valuation : String → Option Literal) :
    List Expr → Option (List Literal)
  | [] => some []
  | expression :: rest =>
    (expression.eval meaning valuation).bind fun value =>
      (evalAll meaning valuation rest).bind fun values => some (value :: values)

end

end Expr

end Tide
