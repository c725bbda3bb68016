import Tide.Number.Decimal

/-!
# Reading numbers

A number is written as digits with an optional sign, point and power of ten, or as one of the words
for the values that have no digits.
-/

namespace Tide.Number

/-- A decimal digit. -/
def isDecimalDigit (char : Char) : Bool := '0' ≤ char && char ≤ '9'

/-- The value of a run of digits. -/
def digitsValue (digits : List Char) : Nat :=
  digits.foldl (fun value char => value * 10 + (char.toNat - '0'.toNat)) 0

/-- A sign in front of a text, true for minus, and the text after it. -/
def signAndRest : List Char → Bool × List Char
  | '+' :: rest => (false, rest)
  | '-' :: rest => (true, rest)
  | text => (false, text)

/-- The power of ten that ends a number: nothing, or `e` and a whole number. -/
def exponent? : List Char → Option Int
  | [] => some 0
  | mark :: rest =>
    if mark = 'e' ∨ mark = 'E' then
      let (negative, digits) := signAndRest rest
      if digits.isEmpty || !digits.all isDecimalDigit then none
      else some (if negative then -(digitsValue digits : Int) else digitsValue digits)
    else none

/-- A number of digits, which may stand on either side of a point. -/
def unsignedDecimal? (negative : Bool) (text : List Char) : Option Number :=
  let whole := text.takeWhile isDecimalDigit
  let afterWhole := text.dropWhile isDecimalDigit
  let (fraction, rest) :=
    match afterWhole with
    | '.' :: rest => (rest.takeWhile isDecimalDigit, rest.dropWhile isDecimalDigit)
    | _ => ([], afterWhole)
  if whole.isEmpty && fraction.isEmpty then none
  else
    (exponent? rest).map fun exponent =>
      ofDecimal negative (digitsValue (whole ++ fraction)) (exponent - fraction.length)

/-- The number that a text stands for. -/
def ofText? (text : List Char) : Option Number :=
  let (negative, unsigned) := signAndRest text
  let lower := String.ofList (unsigned.map Char.toLower)
  if lower = "inf" || lower = "infinity" then some (infinity negative)
  else if lower = "nan" then some (nan negative)
  else unsignedDecimal? negative unsigned

end Tide.Number
