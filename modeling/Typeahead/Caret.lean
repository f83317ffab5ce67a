import Typeahead.Text.Integer

namespace Typeahead

/-! Carets: a line, counted from one, and how many characters of it stand on the left. -/

structure Caret where
  line : Nat
  column : Nat
deriving DecidableEq, Repr

namespace Caret

/-- What may be given for the line or the column. -/
inductive Field where
  | absent
  | integer (value : Int)
  | boolean (value : Bool)
  /-- A number that is not whole. -/
  | fraction
  /-- A floating-point number that is whole and does not fit in 64 bits. -/
  | wide
  /-- An infinite number or no number at all. -/
  | unbounded
  | text (value : String)
  | other
deriving DecidableEq, Repr

/-- The field that a floating-point number makes. -/
def Field.ofFloat (value : Float) : Field :=
  if value.isNaN || value.isInf then .unbounded
  else if value.floor != value then .fraction
  else if value.abs < Float.ofScientific (Nat.pow 2 63) false 0 then .integer value.toInt64.toInt
  else .wide

inductive FieldError where
  | missing
  | notANumber
  | unreadable
  | tooLong
  | notWhole
  | infinite
  | tooSmall
deriving DecidableEq, Repr

def FieldError.code : FieldError → String
  | .missing => "missing"
  | .notANumber => "int_type"
  | .unreadable => "int_parsing"
  | .tooLong => "int_parsing_size"
  | .notWhole => "int_from_float"
  | .infinite => "finite_number"
  | .tooSmall => "greater_than_equal"

def FieldError.ofNumber : Text.NumberError → FieldError
  | .unreadable => .unreadable
  | .tooLong => .tooLong

def Field.toInt : Field → Except FieldError Int
  | .absent => .error .missing
  | .integer value => .ok value
  | .boolean value => .ok (if value then 1 else 0)
  | .fraction => .error .notWhole
  | .wide => .error .tooLong
  | .unbounded => .error .infinite
  | .text value => (Text.wholeNumber value).mapError .ofNumber
  | .other => .error .notANumber

/-- The number that a field holds, which must not be below `least`. -/
def Field.atLeast (least : Nat) (field : Field) : Except FieldError Nat := do
  let value ← field.toInt
  if value < least then throw .tooSmall else return value.toNat

/-- The caret of two fields, or what is wrong with each of them. -/
def ofFields (line column : Field) : Except (List (String × FieldError)) Caret :=
  match line.atLeast 1, column.atLeast 0 with
  | .ok line, .ok column => .ok ⟨line, column⟩
  | .error l, .ok _ => .error [("line", l)]
  | .ok _, .error c => .error [("column", c)]
  | .error l, .error c => .error [("line", l), ("column", c)]

end Caret

end Typeahead
