namespace Typeahead.Language

/-! Classes of characters that the lexicons of several languages use.  All of them hold ASCII
characters only. -/

def isWordStart (c : Char) : Bool := c.isAlpha || c == '_'

def isWordPart (c : Char) : Bool := c.isAlphanum || c == '_'

def isHexDigit (c : Char) : Bool :=
  c.isDigit || ('a' ≤ c && c ≤ 'f') || ('A' ≤ c && c ≤ 'F')

/-- Spaces, tabs and form feeds. -/
def isSpacing (c : Char) : Bool := c == ' ' || c == '\t' || c == '\x0c'

def isLineEnd (c : Char) : Bool := c == '\r' || c == '\n'

end Typeahead.Language
