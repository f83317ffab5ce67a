import Typeahead.Text.Integer

namespace Typeahead.Text

/-! Numbers with a point or an exponent. -/

/-- A decimal number: its digits as one number, and the power of ten that it counts. -/
structure Decimal where
  negative : Bool
  digits : Nat
  power : Int
deriving DecidableEq, Repr

namespace Decimal

def exponentOf : List Char → Int
  | '-' :: digits => -(decimalValue digits : Int)
  | '+' :: digits => decimalValue digits
  | digits => decimalValue digits

/-- Reads digits, a point and digits, and an exponent after the letter e. -/
def ofText (text : String) : Decimal :=
  let negative := text.toList.head? == some '-'
  let cs := if negative then text.toList.drop 1 else text.toList
  let mantissa := cs.takeWhile fun c => c != 'e' && c != 'E'
  let whole := mantissa.takeWhile (· != '.')
  let fraction := mantissa.drop (whole.length + 1)
  { negative
    digits := decimalValue (whole ++ fraction)
    power := exponentOf (cs.drop (mantissa.length + 1)) - fraction.length }

/-- The decimal places beyond which every number is infinite or zero. -/
def farAway : Int := 400

/-- The nearest floating-point number. -/
def toFloat (decimal : Decimal) : Float :=
  let size : Int := (Nat.repr decimal.digits).length + decimal.power
  let magnitude : Float :=
    if decimal.digits == 0 || size < -farAway then 0
    else if farAway < size then 1 / 0
    else Float.ofScientific decimal.digits (decimal.power < 0) decimal.power.natAbs
  if decimal.negative then -magnitude else magnitude

end Decimal

end Typeahead.Text
