import Typeahead.Display.Literal.Lexeme

namespace Typeahead.Display

/-!
Literals: numbers, quoted texts, constants with names, and tuples, sets and dictionaries of
literals.  A number may have a sign, and a real number an imaginary one added to it.
-/

/-- What a literal is, as far as this limits what it can be a part of. -/
inductive LiteralKind where
  | real
  | imaginary
  | signedReal
  /-- Another literal that can be in a set and be a key. -/
  | fixed
  /-- A set, a dictionary, or a tuple with one of these in it. -/
  | changeable
deriving DecidableEq, Repr

namespace LiteralKind

/-- A literal with a sign in front. -/
def signed? : LiteralKind → Option LiteralKind
  | .real => some .signedReal
  | .imaginary => some .fixed
  | _ => none

/-- Two literals with a sign between them. -/
def sum? : (left right : LiteralKind) → Option LiteralKind
  | .real, .imaginary | .signedReal, .imaginary => some .fixed
  | _, _ => none

end LiteralKind

/-- What stands between two commas: a literal, or a key with its value, of which the key counts. -/
structure LiteralItem where
  kind : LiteralKind
  isKey : Bool
deriving DecidableEq, Repr

/-- Reads a part of a literal in front of lexemes that remain. -/
abbrev LiteralReader := List Lexeme → Option (LiteralKind × List Lexeme)

namespace Literal

def isSign (lexeme : Lexeme) : Bool := lexeme == .mark '+' || lexeme == .mark '-'

/-- A value with a sign, or without. -/
def readSigned (value : LiteralReader) : LiteralReader := fun lexemes => do
  if lexemes.head?.any isSign then
    let (kind, rest) ← value (lexemes.drop 1)
    return (← kind.signed?, rest)
  else
    value lexemes

/-- A value, perhaps with signs, in front and before another value. -/
def readSum (value : LiteralReader) : LiteralReader := fun lexemes => do
  let (left, rest) ← readSigned value lexemes
  if rest.head?.any isSign then
    let (right, rest) ← value (rest.drop 1)
    return (← left.sum? right, rest)
  else
    return (left, rest)

/-- An item in front of a comma or a closing bracket. -/
def readItem (value : LiteralReader) (lexemes : List Lexeme) :
    Option (LiteralItem × List Lexeme) := do
  let (kind, rest) ← readSum value lexemes
  if rest.head? == some (.mark ':') then
    let (_, rest) ← readSum value (rest.drop 1)
    return (⟨kind, true⟩, rest)
  else
    return (⟨kind, false⟩, rest)

/-- At most `fuel` items up to a closing bracket, whether a comma or nothing stands in front of the
bracket, and the lexemes behind it. -/
def readItems (value : LiteralReader) (close : Char) :
    (fuel : Nat) → List Lexeme → Option (List LiteralItem × Bool × List Lexeme)
  | 0, _ => none
  | fuel + 1, lexemes =>
      if lexemes.head? == some (.mark close) then some ([], true, lexemes.drop 1)
      else do
        let (item, rest) ← readItem value lexemes
        if rest.head? == some (.mark ',') then
          let (items, comma, rest) ← readItems value close fuel (rest.drop 1)
          return (item :: items, comma, rest)
        else if rest.head? == some (.mark close) then
          return ([item], false, rest.drop 1)
        else
          none

/-- Items in parentheses: one without a comma is itself, others make a tuple. -/
def parenthesised? (items : List LiteralItem) (comma : Bool) : Option LiteralKind :=
  match items, comma with
  | [item], false => if item.isKey then none else some item.kind
  | _, _ =>
      if items.any (·.isKey) then none
      else if items.any (·.kind == .changeable) then some .changeable
      else some .fixed

/-- Items in braces: a dictionary has keys, a set has none, and neither keys nor members change. -/
def braced? (items : List LiteralItem) : Option LiteralKind :=
  let alike := items.all (·.isKey) || items.all (!·.isKey)
  if alike && items.all (·.kind != .changeable) then some .changeable else none

/-- Reads a value, with at most `fuel` brackets inside each other. -/
def readValue : (fuel : Nat) → LiteralReader
  | 0, _ => none
  | fuel + 1, lexemes =>
      match lexemes with
      | .real :: rest => some (.real, rest)
      | .imaginary :: rest => some (.imaginary, rest)
      | .text :: rest => some (.fixed, rest.dropWhile (· == .text))
      | .bytes :: rest => some (.fixed, rest.dropWhile (· == .bytes))
      | .ellipsis :: rest => some (.fixed, rest)
      | .name ['s', 'e', 't'] :: .mark '(' :: .mark ')' :: rest => some (.changeable, rest)
      | .name cs :: rest =>
          if ["None", "True", "False"].contains (String.ofList cs) then some (.fixed, rest)
          else none
      | .mark '(' :: rest => do
          let (items, comma, rest) ← readItems (readValue fuel) ')' lexemes.length rest
          return (← parenthesised? items comma, rest)
      | .mark '\x7b' :: rest => do
          let (items, _, rest) ← readItems (readValue fuel) '\x7d' lexemes.length rest
          return (← braced? items, rest)
      | _ => none

/-- Whether lexemes make a literal.  Several with commas between them make a tuple even without
parentheses. -/
def accepts (lexemes : List Lexeme) : Bool :=
  let inside := (lexemes.reverse.dropWhile (· == .lineEnd)).reverse
  !inside.isEmpty &&
    (readValue (lexemes.length + 1) (.mark '(' :: inside ++ [.mark ')'])).any (·.2.isEmpty)

end Literal

/-- Whether characters are a literal. -/
def isLiteral (cs : List Char) : Bool := (Lexeme.scan? cs).any Literal.accepts

end Typeahead.Display
