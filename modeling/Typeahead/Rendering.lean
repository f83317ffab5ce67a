import Typeahead.Candidates
import Typeahead.Data.Assignment
import Typeahead.Matcher
import Typeahead.ParseTree

namespace Typeahead

/-!
Candidate tokens as words.  A token is written as its type's name in lowercase, unless its type is
given another text or none.
-/

/-- A token type, given by its name or its number. -/
inductive TokenKey where
  | name (name : String)
  | type (type : Int)
deriving DecidableEq, Repr

/-- What stands for a token of the type; without a text, nothing does. -/
abbrev Renderings := List (TokenKey × Option String)

/-- A vocabulary does not have the name. -/
structure UnknownTokenName where
  name : String
deriving DecidableEq, Repr

def TokenKey.resolve (vocabulary : Vocabulary) : TokenKey → Except UnknownTokenName Int
  | .type number => .ok number
  | .name text =>
      match vocabulary.type? text with
      | some number => .ok number
      | none => .error ⟨text⟩

namespace Renderings

/-- The renderings by type.  Of two for one key, or for one type, the later holds. -/
def byType (renderings : Renderings) (vocabulary : Vocabulary) :
    Except UnknownTokenName (List (Int × Option String)) := do
  let resolved ← (assignAll renderings).mapM fun (key, text) => do
    return (← key.resolve vocabulary, text)
  return assignAll resolved

end Renderings

/-- The word for a token type, if it has one. -/
def wordFor? (vocabulary : Vocabulary) (byType : List (Int × Option String)) (type : Int) :
    Option String :=
  match byType.find? (·.1 == type) with
  | some (_, text) => text
  | none => (vocabulary.symbolicName? type).map Text.lowercase

def Renderings.words (renderings : Renderings) (vocabulary : Vocabulary) (types : List Int) :
    Except UnknownTokenName (List String) := do
  let byType ← renderings.byType vocabulary
  return types.filterMap (wordFor? vocabulary byType)

/-- The typed text that candidates have to match: nothing on an ignored token. -/
def textToMatch (ignored : List Int) (context : NodeLabel) (typed : String) : String :=
  match context with
  | .token token => if ignored.contains token.type then "" else typed
  | .rule _ | .bare => typed

end Typeahead
