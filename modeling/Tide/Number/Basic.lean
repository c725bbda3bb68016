/-!
# Double precision numbers

A number is its 64 bits: one sign bit, eleven exponent bits and 52 fraction bits.  Keeping the bits
tells both zeros and every NaN apart, and makes equality of numbers decidable.

Every finite double is a whole multiple of `2 ^ (-1074)`, the least positive one.  Counting in that
unit turns comparison and arithmetic into exact arithmetic on integers, so nothing here is
approximate.
-/

namespace Tide

/-- A double precision number, as its bits. -/
structure Number where
  bits : UInt64
  deriving DecidableEq, Inhabited

namespace Number

/-- The sign bit, which a zero and a NaN carry too. -/
def isNegative (number : Number) : Bool :=
  Nat.pow 2 63 ≤ number.bits.toNat

def exponentField (number : Number) : Nat :=
  number.bits.toNat / Nat.pow 2 52 % Nat.pow 2 11

def fraction (number : Number) : Nat :=
  number.bits.toNat % Nat.pow 2 52

def isFinite (number : Number) : Bool :=
  number.exponentField != 2047

def isNaN (number : Number) : Bool :=
  number.exponentField == 2047 && number.fraction != 0

def isInfinite (number : Number) : Bool :=
  number.exponentField == 2047 && number.fraction == 0

/-- The significand with its hidden bit, which only the numbers of the lowest binade lack. -/
def significand (number : Number) : Nat :=
  if number.exponentField = 0 then number.fraction else Nat.pow 2 52 + number.fraction

/-- How many times the significand is doubled. -/
def scale (number : Number) : Nat :=
  number.exponentField - 1

/-- The absolute value in units of `2 ^ (-1074)`.  An infinity counts as one binade above the
largest finite number, so the order of the units is the order of the numbers. -/
def magnitude (number : Number) : Nat :=
  number.significand * Nat.pow 2 number.scale

/-- The signed value in units of `2 ^ (-1074)`. -/
def units (number : Number) : Int :=
  if number.isNegative then -(number.magnitude : Int) else number.magnitude

/-- How many units make one. -/
def unitsPerOne : Nat := Nat.pow 2 1074

/-- The number with sign `negative` whose remaining 63 bits are `magnitudeBits`. -/
def ofParts (negative : Bool) (magnitudeBits : Nat) : Number :=
  ⟨UInt64.ofNat ((if negative then Nat.pow 2 63 else 0) + magnitudeBits)⟩

/-- The 63 bits below the sign bit. -/
def magnitudeBits (number : Number) : Nat :=
  number.bits.toNat % Nat.pow 2 63

def neg (number : Number) : Number :=
  ofParts (!number.isNegative) number.magnitudeBits

instance : Neg Number := ⟨neg⟩

/-- The 63 bits of an infinity. -/
def infinityBits : Nat := 2047 * Nat.pow 2 52

def infinity (negative : Bool) : Number :=
  ofParts negative infinityBits

/-- The quiet NaN with sign `negative` and no payload. -/
def nan (negative : Bool) : Number :=
  ofParts negative (infinityBits + Nat.pow 2 51)

def zero : Number := ⟨0⟩

def one : Number := ⟨0x3ff0000000000000⟩

/-- Numeric equality: the zeros are equal and a NaN equals nothing. -/
def equals (left right : Number) : Bool :=
  !left.isNaN && !right.isNaN && left.units == right.units

def lessThan (left right : Number) : Bool :=
  !left.isNaN && !right.isNaN && left.units < right.units

def atMost (left right : Number) : Bool :=
  !left.isNaN && !right.isNaN && left.units ≤ right.units

def isZero (number : Number) : Bool :=
  number.equals zero

/-- The number is finite and has no digits after the point. -/
def isWhole (number : Number) : Bool :=
  number.isFinite && number.magnitude % unitsPerOne == 0

/-- The absolute value is below the whole number `bound`. -/
def isBelow (number : Number) (bound : Nat) : Bool :=
  !number.isNaN && number.magnitude < bound * unitsPerOne

/-- The value with the digits after the point cut off. -/
def truncate (number : Number) : Int :=
  let whole := number.magnitude / unitsPerOne
  if number.isNegative then -(whole : Int) else whole

end Number

end Tide
