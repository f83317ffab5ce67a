import Typeahead.Grammar.Parsing
import Typeahead.Language
import Typeahead.Symbol.Declaration

namespace Typeahead

/-! What the completion of a language rests on. -/

/-- How a language suggests the names of its variables. -/
structure VariableReading where
  /-- The name of the language in notes. -/
  language : String
  kind : SymbolKind
  /-- The rule inside which the typed text is the start of a variable's name. -/
  readingRule : String

structure LanguageSupport where
  language : Language
  grammar : Grammar
  renderings : Renderings
  /-- The types of the tokens that are never suggested, and on which nothing counts as typed. -/
  ignored : List Int
  /-- The rules that are candidates as a whole. -/
  preferred : List String := []
  declarations : Declarations
  /-- Variables are suggested where a preferred rule may come next. -/
  variableReading : Option VariableReading := none
  /-- The name under which the language is known to syntax colouring. -/
  colouring : Option String := none

namespace LanguageSupport

def filter (support : LanguageSupport) : CandidateFilter :=
  { ignored := support.ignored, preferred := support.preferred }

end LanguageSupport

end Typeahead
