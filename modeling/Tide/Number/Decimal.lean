import Tide.Number.Rounding

/-!
# Decimal text of numbers

A decimal `digits * 10 ^ exponent` is read as the nearest number.  Writing picks the fewest digits
that read back as the same number, and of two decimals with that many digits the nearer one, the
larger when both are equally near.  The layouts place the point in those digits.
-/

namespace Tide.Number

/-- The number nearest to `digits * 10 ^ exponent`.  Decimals beyond every finite number, or below
half the least positive one, are settled by their order of magnitude. -/
def ofDecimal (negative : Bool) (digits : Nat) (exponent : Int) : Number :=
  if digits = 0 then ofParts negative 0
  else
    let order := exponent + (Nat.toDigits 10 digits).length
    if 310 < order then infinity negative
    else if order < -325 then ofParts negative 0
    else ofUnits negative (digits * Nat.pow 10 exponent.toNat * unitsPerOne)
      (Nat.pow 10 (-exponent).toNat)

/-- A positive decimal: `digits` times ten to the `exponent`. -/
structure Decimal where
  digits : Nat
  exponent : Int
  deriving DecidableEq

namespace Decimal

/-- Ten of one digit are one of the next, so trailing zeros move into the exponent.  `places` is an
upper bound on how many there are. -/
def trimZeros : (places : Nat) → Decimal → Decimal
  | 0, decimal => decimal
  | places + 1, decimal =>
    if decimal.digits % 10 = 0 then trimZeros places ⟨decimal.digits / 10, decimal.exponent + 1⟩
    else decimal

def text (decimal : Decimal) : List Char :=
  Nat.toDigits 10 decimal.digits

/-- All digits, without an exponent. -/
def plain (decimal : Decimal) : List Char :=
  let digits := decimal.text
  if 0 ≤ decimal.exponent then digits ++ List.replicate decimal.exponent.toNat '0'
  else
    let places := decimal.exponent.natAbs
    if places < digits.length then
      digits.take (digits.length - places) ++ '.' :: digits.drop (digits.length - places)
    else '0' :: '.' :: (List.replicate (places - digits.length) '0' ++ digits)

/-- One digit before the point, and the power of ten after an `e`. -/
def scientific (decimal : Decimal) : List Char :=
  let digits := decimal.text
  let fraction := if digits.length ≤ 1 then [] else '.' :: digits.drop 1
  let power : Int := decimal.exponent + (digits.length - 1 : Nat)
  let sign := if power < 0 then ['-'] else []
  digits.take 1 ++ fraction ++ 'e' :: sign ++ Nat.toDigits 10 power.natAbs

end Decimal

/-- The power of ten just above a positive value of `magnitude` units.  Shifting by 400 places makes
even the least one a whole number with at least one digit. -/
def decimalOrder (magnitude : Nat) : Int :=
  ((Nat.toDigits 10 (magnitude * Nat.pow 10 400 / unitsPerOne)).length : Int) - 400

/-- Of the two whole numbers around `numerator / denominator` the one that is accepted.  Of two the
nearer one, the larger when both are equally near. -/
def nearestAccepted? (accepted : Nat → Bool) (numerator denominator : Nat) : Option Nat :=
  let lower := numerator / denominator
  match accepted lower, accepted (lower + 1) with
  | true, true => some (if denominator ≤ 2 * (numerator % denominator) then lower + 1 else lower)
  | true, false => some lower
  | false, true => some (lower + 1)
  | false, false => none

/-- `length` decimal digits suffice when one of the two decimals around the value with that many
digits reads back as it. -/
def decimalOfLength? (number : Number) (length : Nat) : Option Decimal :=
  let exponent := decimalOrder number.magnitude - length
  let readsBack (digits : Nat) : Bool := ofDecimal number.isNegative digits exponent == number
  (nearestAccepted? readsBack (number.magnitude * Nat.pow 10 (-exponent).toNat)
    (unitsPerOne * Nat.pow 10 exponent.toNat)).map fun digits => ⟨digits, exponent⟩

/-- The digits of one unit, the last of them 1074 places after the point. -/
def digitsPerUnit : Nat := Nat.pow 5 1074

/-- Every digit the value has. -/
def exactDecimal (number : Number) : Decimal :=
  ⟨number.magnitude * digitsPerUnit, -1074⟩

/-- The shortest decimal of at least `length` digits, of the next `attempts` lengths; failing those,
the exact one. -/
def shortestFrom (number : Number) (length : Nat) : (attempts : Nat) → Decimal
  | 0 => number.exactDecimal
  | attempts + 1 =>
    (number.decimalOfLength? length).getD (shortestFrom number (length + 1) attempts)

/-- The decimal with the fewest digits that reads back as this number, which is finite. -/
def shortest (number : Number) : Decimal :=
  if number.magnitude = 0 then ⟨0, 0⟩
  else (number.shortestFrom 1 17).trimZeros 20

private def signed (number : Number) (text : List Char) : String :=
  String.ofList (if number.isNegative then '-' :: text else text)

/-- The value without an exponent, whole numbers without a point. -/
def plainText (number : Number) : String :=
  if number.isNaN then "NaN"
  else if number.isInfinite then number.signed ['i', 'n', 'f']
  else number.signed number.shortest.plain

/-- The value of a finite number with one digit before the point and a power of ten. -/
def scientificText (number : Number) : String :=
  number.signed number.shortest.scientific

/-- A whole number with one zero after the point. -/
def wholeText (number : Number) : String :=
  number.signed (Nat.toDigits 10 number.truncate.natAbs ++ ['.', '0'])

end Tide.Number
