import Typeahead.Text.Blank
import Typeahead.Text.Digit

namespace Typeahead.Text

/-!
Whole numbers as they are written.  A plain number has digits without a leading zero, perhaps after
a minus sign.  A text that is no plain number is cleaned first: white space around it, a sign,
leading zeros, a fraction of zeros and underscores between digits may be there.
-/

inductive NumberError where
  | unreadable
  | tooLong
deriving DecidableEq, Repr

/-- The most digits that a plain number may have. -/
def maxNumberLength : Nat := 4300

/-- Reads digits at the start of a text, in which nothing may follow them.  Too many digits are a
fault even if something follows. -/
def plainMagnitude (cs : List Char) : Except NumberError Nat :=
  match cs.takeWhile Char.isDigit, cs.dropWhile Char.isDigit with
  | [], _ => .error .unreadable
  | '0' :: _ :: _, _ => .error .unreadable
  | digits, rest =>
      if maxNumberLength < digits.length then .error .tooLong
      else if rest.isEmpty then .ok (decimalValue digits)
      else .error .unreadable

def plainNumber : List Char → Except NumberError Int
  | '-' :: digits => (plainMagnitude digits).map fun n => -(n : Int)
  | digits => (plainMagnitude digits).map fun n => (n : Int)

/-- Unicode's white space, which is less than what counts as blank. -/
def isWhiteSpace (c : Char) : Bool := isBlank c && !(0x1c ≤ c.toNat && c.toNat ≤ 0x1f)

/-- Whether a character starts what is left of a number without its leading zeros. -/
def startsNumber (c : Char) : Bool := c == '-' || (c.isDigit && c != '0')

/-- Drops the zeros and underscores in front of a number, up to the character in front of a point
or the last one.  Fails if the text does not start like a number. -/
def withoutLeadingZeros? : List Char → Option (List Char)
  | '0' :: rest =>
      let zeros := '0' :: rest.takeWhile fun c => c == '0' || c == '_'
      match rest.dropWhile fun c => c == '0' || c == '_' with
      | [] => some (zeros.drop (zeros.length - 1))
      | '.' :: fraction => some (zeros.drop (zeros.length - 1) ++ '.' :: fraction)
      | c :: digits => if startsNumber c then some (c :: digits) else none
  | c :: rest => if startsNumber c then some (c :: rest) else none
  | [] => none

/-- Drops a fraction of zeros; fails if there is another fraction. -/
def withoutZeroFraction? (cs : List Char) : Option (List Char) :=
  match cs.dropWhile (· != '.') with
  | [] => some cs
  | _ :: fraction =>
      if !fraction.isEmpty && fraction.all (· == '0') then some (cs.takeWhile (· != '.')) else none

/-- Drops single underscores inside; leaves them if one stands at an end or beside another. -/
def withoutUnderscores (cs : List Char) : List Char :=
  let paired := (cs.zip (cs.drop 1)).contains ('_', '_')
  if cs.head? == some '_' || cs.getLast? == some '_' || paired then cs
  else cs.filter (· != '_')

/-- The plain form of a number without a sign. -/
def unsigned? (cs : List Char) : Option (List Char) := do
  return withoutUnderscores (← withoutZeroFraction? (← withoutLeadingZeros? cs))

/-- The plain form of a number that may have a sign. -/
def cleaned? : List Char → Option (List Char)
  | '-' :: cs => (unsignedAfterSign? cs).map ('-' :: ·)
  | '+' :: cs => unsignedAfterSign? cs
  | cs => unsigned? cs
where
  unsignedAfterSign? (cs : List Char) : Option (List Char) :=
    if cs.head? == some '-' || cs.head? == some '+' then none else unsigned? cs

/-- Reads a whole number.  Only a text that starts as a plain number can be too long; one that has
too many digits after it is cleaned is unreadable. -/
def wholeNumber (text : String) : Except NumberError Int :=
  match plainNumber text.toList with
  | .ok n => .ok n
  | .error .tooLong => .error .tooLong
  | .error .unreadable =>
      let cs := ((text.toList.dropWhile isWhiteSpace).reverse.dropWhile isWhiteSpace).reverse
      match cleaned? cs with
      | some plain => (plainNumber plain).mapError fun _ => .unreadable
      | none => .error .unreadable

end Typeahead.Text
