import Typeahead.Text.Place

namespace Typeahead

/-!
Tokens.  A token type is a small number given by a vocabulary, counted from one; the token that
ends every stream has a type of its own.
-/

/-- The type of the token that ends a stream. -/
def eofType : Int := -1

structure Token where
  type : Int
  text : String
  /-- The position in the stream; a token made up by the parser has none. -/
  index : Option Int
  line : Int
  column : Int
  /-- The number of characters in front of the token. -/
  start : Int
  /-- The parser never sees hidden tokens. -/
  hidden : Bool := false
  comment : Bool := false
deriving DecidableEq, Repr

namespace Token

/-- The column just past the token's last character on its first line. -/
def stopColumn (token : Token) : Int :=
  token.column + (token.text.toList.takeWhile (· ≠ '\n')).length

def conjured (token : Token) : Bool := token.index.isNone

def isVisible (token : Token) : Bool := !token.hidden && token.type != eofType

/-- Whether a caret in column `column` of line `line` touches the token. -/
def covers (token : Token) (line column : Int) : Bool :=
  token.line == line && token.column ≤ column && column ≤ token.stopColumn

end Token

end Typeahead
