import Typeahead.Text.Blank
import Typeahead.Text.Lowercase

namespace Typeahead

/-! Matchers: which candidates survive the text typed so far. -/

abbrev Matcher := (text : String) → (candidates : List String) → List String

namespace Matcher

/-- Keeps the candidates whose lowercase form stands in a relation to that of the text.  A blank
text keeps them all. -/
def byLowercase (holds : (text candidate : List Char) → Bool) : Matcher := fun text candidates =>
  if Text.allBlank text then candidates
  else
    let typed := (Text.lowercase text).toList
    candidates.filter fun candidate => holds typed (Text.lowercase candidate).toList

/-- Candidates that start with the text, in any letter case. -/
def startsWith : Matcher := byLowercase List.isPrefixOf

/-- The characters behind the first `c`, if there is one. -/
def behind? : List Char → (c : Char) → Option (List Char)
  | [], _ => none
  | d :: rest, c => if d = c then some rest else behind? rest c

/-- Whether the characters of the text occur in that order, when each is searched for behind the
place where the one before it was found. -/
def inOrder (text candidate : List Char) : Bool := (text.foldlM behind? candidate).isSome

/-- Candidates that have the characters of the text in that order, in any letter case. -/
def fuzzy : Matcher := byLowercase inOrder

end Matcher

end Typeahead
