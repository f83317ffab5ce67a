import Typeahead.Text.Printable

namespace Typeahead.Text

/-! Texts in quotation marks, as they stand in messages. -/

/-- The last `width` digits of `n` in base sixteen. -/
def hexDigits : (width n : Nat) → List Char
  | 0, _ => []
  | width + 1, n => hexDigits width (n / 16) ++ [Nat.digitChar (n % 16)]

/-- The escape of a character without a printable form, as short as its code allows. -/
def escapeCode (c : Char) : List Char :=
  let code := c.toNat
  if code < 0x100 then '\\' :: 'x' :: hexDigits 2 code
  else if code < 0x10000 then '\\' :: 'u' :: hexDigits 4 code
  else '\\' :: 'U' :: hexDigits 8 code

/-- A character as it stands between two marks `mark`. -/
def quoteChar (mark c : Char) : List Char :=
  if c = mark || c = '\\' then ['\\', c]
  else if c = '\n' then ['\\', 'n']
  else if c = '\r' then ['\\', 'r']
  else if c = '\t' then ['\\', 't']
  else if isPrintable c then [c]
  else escapeCode c

/-- Single marks, unless the text has such a mark and no double one. -/
def quotationMark (cs : List Char) : Char :=
  if cs.contains '\'' && !cs.contains '"' then '"' else '\''

def quoted (text : String) : String :=
  let cs := text.toList
  let mark := quotationMark cs
  .ofList (mark :: cs.flatMap (quoteChar mark) ++ [mark])

end Typeahead.Text
