import Tide.Number.Basic

/-!
# Rounding and arithmetic

Sums, products, quotients and remainders are formed exactly, as fractions of the least positive
double, and rounded once to the nearest number.  A value halfway between two numbers goes to the one
with an even significand.
-/

namespace Tide.Number

/-- The whole number nearest to `numerator / denominator`, the even one of two equally near. -/
def roundHalfEven (numerator denominator : Nat) : Nat :=
  let quotient := numerator / denominator
  let remainder := numerator % denominator
  if 2 * remainder < denominator then quotient
  else if denominator < 2 * remainder then quotient + 1
  else quotient + quotient % 2

/-- The bits below the sign bit of the number nearest to `numerator / denominator` units.

The quotient picks the binade.  There a significand `m` doubled `k` times is written as
`k * 2 ^ 52 + m`, also when rounding carries into the next binade, and everything past the largest
finite number is an infinity. -/
def roundedBits (numerator denominator : Nat) : Nat :=
  let doublings := (numerator / denominator).log2 - 52
  min
    (doublings * Nat.pow 2 52 + roundHalfEven numerator (denominator * Nat.pow 2 doublings))
    infinityBits

/-- The number with sign `negative` nearest to `numerator / denominator` units. -/
def ofUnits (negative : Bool) (numerator denominator : Nat) : Number :=
  ofParts negative (roundedBits numerator denominator)

/-- The sum.  An exact zero is negative only when both operands are. -/
def add (left right : Number) : Number :=
  if left.isNaN || right.isNaN then nan false
  else if left.isInfinite then
    if right.isInfinite && left.isNegative != right.isNegative then nan false else left
  else if right.isInfinite then right
  else
    let total := left.units + right.units
    if total = 0 then ofParts (left.isNegative && right.isNegative) 0
    else ofUnits (total < 0) total.natAbs 1

def sub (left right : Number) : Number :=
  left.add (-right)

def mul (left right : Number) : Number :=
  let negative := left.isNegative != right.isNegative
  if left.isNaN || right.isNaN then nan false
  else if left.isInfinite || right.isInfinite then
    if left.magnitude = 0 || right.magnitude = 0 then nan false else infinity negative
  else ofUnits negative (left.magnitude * right.magnitude) unitsPerOne

def div (left right : Number) : Number :=
  let negative := left.isNegative != right.isNegative
  if left.isNaN || right.isNaN then nan false
  else if left.isInfinite then
    if right.isInfinite then nan false else infinity negative
  else if right.isInfinite then ofParts negative 0
  else if right.magnitude = 0 then
    if left.magnitude = 0 then nan false else infinity negative
  else ofUnits negative (left.magnitude * unitsPerOne) right.magnitude

/-- What is left of `left` after taking `right` away as often as it fits, with the sign of `left`.
The remainder of two numbers is itself a number, so it is exact. -/
def rem (left right : Number) : Number :=
  if left.isNaN || right.isNaN || left.isInfinite || right.magnitude = 0 then nan false
  else if right.isInfinite then left
  else ofUnits left.isNegative (left.magnitude % right.magnitude) 1

instance : Add Number := ⟨add⟩
instance : Sub Number := ⟨sub⟩
instance : Mul Number := ⟨mul⟩
instance : Div Number := ⟨div⟩
instance : Mod Number := ⟨rem⟩

end Tide.Number
