import Typeahead.Text.CharRange

namespace Typeahead.Text

/-! Blank characters, and texts trimmed of them or cut at them. -/

/-- Ranges of the blank characters: Unicode's white space and the four separator controls. -/
def blankRanges : List (Nat × Nat) := [
    (0x9, 0xd), (0x1c, 0x20), (0x85, 0x85), (0xa0, 0xa0), (0x1680, 0x1680), (0x2000, 0x200a),
    (0x2028, 0x2029), (0x202f, 0x202f), (0x205f, 0x205f), (0x3000, 0x3000)]

def isBlank (c : Char) : Bool := inRanges blankRanges c

/-- Whether a text has no other than blank characters. -/
def allBlank (text : String) : Bool := text.toList.all isBlank

/-- The text without the blank characters at its two ends. -/
def trim (text : String) : String :=
  .ofList ((text.toList.dropWhile isBlank).reverse.dropWhile isBlank).reverse

/-- The runs of characters that are not blank. -/
def words (text : String) : List String :=
  ((text.toList.splitOnP isBlank).filter (!·.isEmpty)).map .ofList

end Typeahead.Text
