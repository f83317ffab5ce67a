import Typeahead.Language.CharClass
import Typeahead.Text.Integer

namespace Typeahead.Display

/-!
The lexemes of literals: numbers, quoted texts, names and punctuation.  Blanks and comments stand
between them; a line may end between them too, which matters outside brackets only.
-/

inductive Lexeme where
  | real
  | imaginary
  | text
  | bytes
  | name (cs : List Char)
  | ellipsis
  | mark (c : Char)
  | lineEnd
deriving DecidableEq, Repr

namespace Lexeme

/-- Whether a character can stand inside a name, and so must not follow a number. -/
def isNamePart (c : Char) : Bool := Language.isWordPart c || 0x80 ≤ c.toNat

/-- Digits, each perhaps behind an underscore, and what follows them. -/
def moreDigits (isDigit : Char → Bool) : List Char → List Char × List Char
  | [] => ([], [])
  | '_' :: d :: rest =>
      if isDigit d then
        let (digits, rest) := moreDigits isDigit rest
        (d :: digits, rest)
      else ([], '_' :: d :: rest)
  | d :: rest =>
      if isDigit d then
        let (digits, rest) := moreDigits isDigit rest
        (d :: digits, rest)
      else ([], d :: rest)

/-- Decimal digits with single underscores between them, and what follows them. -/
def decimalDigits (cs : List Char) : List Char × List Char :=
  if cs.head?.any Char.isDigit then moreDigits Char.isDigit cs else ([], cs)

/-- The digits that follow a zero and a letter for the base. -/
def digitsOfBase? : Char → Option (Char → Bool)
  | 'x' | 'X' => some Language.isHexDigit
  | 'o' | 'O' => some fun c => '0' ≤ c && c ≤ '7'
  | 'b' | 'B' => some fun c => c == '0' || c == '1'
  | _ => none

/-- Drops an exponent, if there is one. -/
def dropExponent? : List Char → Option (List Char)
  | e :: rest =>
      let digits := if rest.head?.any (fun c => c == '+' || c == '-') then rest.drop 1 else rest
      if (e == 'e' || e == 'E') && digits.head?.any Char.isDigit then some (decimalDigits digits).2
      else none
  | [] => none

/-- Whether digits without a point are a whole number: one that starts with a zero has only zeros,
and there are not too many. -/
def isWhole (digits : List Char) : Bool :=
  (digits.head? != some '0' || digits.all (· == '0')) && digits.length ≤ Text.maxNumberLength

/-- Reads a number in decimal digits. -/
def readDecimal? (cs : List Char) : Option (Lexeme × List Char) :=
  let (whole, rest) := decimalDigits cs
  let fraction? := if rest.head? == some '.' then some (decimalDigits (rest.drop 1)) else none
  let rest := (fraction?.map (·.2)).getD rest
  let afterExponent? := dropExponent? rest
  let rest := afterExponent?.getD rest
  if whole.isEmpty && (fraction?.all fun fraction => fraction.1.isEmpty) then none
  else if rest.head?.any fun c => c == 'j' || c == 'J' then some (.imaginary, rest.drop 1)
  else if fraction?.isSome || afterExponent?.isSome || isWhole whole then some (.real, rest)
  else none

/-- Reads a number in digits of any base. -/
def readDigits? : List Char → Option (Lexeme × List Char)
  | '0' :: letter :: rest =>
      match digitsOfBase? letter with
      | some isDigit =>
          let (digits, rest) := moreDigits isDigit rest
          if digits.isEmpty then none else some (.real, rest)
      | none => readDecimal? ('0' :: letter :: rest)
  | cs => readDecimal? cs

/-- Reads a number, which must not run into a name. -/
def readNumber? (cs : List Char) : Option (Lexeme × List Char) :=
  (readDigits? cs).filter fun (_, rest) => !rest.head?.any isNamePart

/-- What stands in front of the closing quotes, and what follows them.  A backslash keeps the next
character from closing. -/
def untilQuotes (quotes : List Char) : List Char → Option (List Char × List Char)
  | [] => none
  | '\\' :: c :: rest => do
      let (body, rest) ← untilQuotes quotes rest
      return ('\\' :: c :: body, rest)
  | c :: rest =>
      if quotes.isPrefixOf (c :: rest) then some ([], (c :: rest).drop quotes.length)
      else if c == '\n' && quotes.length == 1 then none
      else do
        let (body, rest) ← untilQuotes quotes rest
        return (c :: body, rest)

/-- Whether a text starts with `count` hexadecimal digits. -/
def hasHexDigits (count : Nat) (cs : List Char) : Bool :=
  (cs.takeWhile Language.isHexDigit).length ≥ count

/-- Whether a text starts with the name of a character in braces. -/
def hasCharacterName : List Char → Bool
  | '\x7b' :: cs =>
      let name := cs.takeWhile fun c => c.isAlphanum || c == ' ' || c == '-'
      !name.isEmpty && (cs.drop name.length).head? == some '\x7d'
  | _ => false

/-- Whether the text after a backslash starts an escape that stands for a character. -/
def isEscape : List Char → Bool
  | 'x' :: rest => hasHexDigits 2 rest
  | 'u' :: rest => hasHexDigits 4 rest
  | 'U' :: rest =>
      hasHexDigits 8 rest && (['0', '0', '0'].isPrefixOf rest || "0010".toList.isPrefixOf rest)
  | 'N' :: rest => hasCharacterName rest
  | _ => true

/-- Whether the text after a backslash starts an escape that stands for a byte. -/
def isByteEscape : List Char → Bool
  | 'x' :: rest => hasHexDigits 2 rest
  | _ => true

/-- Whether every backslash in a text starts an escape. -/
def hasEscapes (isEscape : List Char → Bool) : List Char → Bool
  | '\\' :: c :: rest => isEscape (c :: rest) && hasEscapes isEscape rest
  | _ :: rest => hasEscapes isEscape rest
  | [] => true

/-- Reads a quoted text from its first quote on.  The letters in front of it say whether it is of
bytes, which are ASCII, and whether backslashes stand for themselves. -/
def readQuoted? (letters cs : List Char) : Option (Lexeme × List Char) := do
  let letters := letters.map Char.toLower
  let quote ← cs.head?
  let triple := List.replicate 3 quote
  let quotes := if triple.isPrefixOf cs then triple else [quote]
  let (body, rest) ← untilQuotes quotes (cs.drop quotes.length)
  let raw := letters.contains 'r'
  if ["", "r", "u"].contains (String.ofList letters) then
    if raw || hasEscapes isEscape body then some (.text, rest) else none
  else if ["b", "br", "rb"].contains (String.ofList letters) then
    if body.all (·.toNat < 0x80) && (raw || hasEscapes isByteEscape body) then some (.bytes, rest)
    else none
  else none

def isQuote (c : Char) : Bool := c == '"' || c == '\''

/-- Reads the lexeme at the start of a text. -/
def read? : List Char → Option (Lexeme × List Char)
  | '.' :: '.' :: '.' :: rest => some (.ellipsis, rest)
  | '\n' :: rest => some (.lineEnd, rest)
  | c :: rest =>
      let word := (c :: rest).takeWhile isNamePart
      let afterWord := (c :: rest).dropWhile isNamePart
      if c.isDigit || c == '.' then readNumber? (c :: rest)
      else if afterWord.head?.any isQuote then readQuoted? word afterWord
      else if !word.isEmpty then some (.name word, afterWord)
      else if "()\x7b\x7d,:+-".toList.contains c then some (.mark c, rest)
      else none
  | [] => none

/-- How many brackets may be open at once. -/
def maxNesting : Nat := 200

/-- How many brackets are open behind a lexeme, with `depth` open in front of it. -/
def depthAfter? (depth : Nat) : Lexeme → Option Nat
  | .mark '(' | .mark '\x7b' => if depth < maxNesting then some (depth + 1) else none
  | .mark ')' | .mark '\x7d' => if depth = 0 then none else some (depth - 1)
  | _ => some depth

/-- The lexemes of a text inside `depth` brackets, in at most `fuel` steps. -/
def scanUpTo : (fuel depth : Nat) → List Char → Option (List Lexeme)
  | _, _, [] => some []
  | 0, _, _ => none
  | fuel + 1, depth, '\\' :: '\n' :: rest => scanUpTo fuel depth rest
  | fuel + 1, depth, c :: rest =>
      if Language.isSpacing c || (c == '\n' && 0 < depth) then scanUpTo fuel depth rest
      else if c == '#' then scanUpTo fuel depth (rest.dropWhile (· != '\n'))
      else do
        let (lexeme, rest) ← read? (c :: rest)
        return lexeme :: (← scanUpTo fuel (← depthAfter? depth lexeme) rest)

/-- Whether a line is blank or holds a comment only. -/
def isCommentLine (line : List Char) : Bool :=
  (line.dropWhile Language.isSpacing).head?.all (· == '#')

/-- The lexemes of a text.  The first line other than a comment must not be indented. -/
def scan? (cs : List Char) : Option (List Lexeme) :=
  let body := ['\n'].intercalate ((cs.splitOn '\n').dropWhile isCommentLine)
  if body.head?.any Language.isSpacing then none else scanUpTo body.length 0 body

end Lexeme

end Typeahead.Display
