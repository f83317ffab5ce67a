import Typeahead.Automaton
import Typeahead.Caret
import Typeahead.Lexicon
import Typeahead.Rendering

namespace Typeahead

/-! What can be wrong with a grammar, and what could go wrong when one is used. -/

inductive GrammarError where
  /-- The grammar's definition cannot be read. -/
  | unreadable (path : String)
  /-- The grammar's definition is not one of a grammar. -/
  | malformed
  /-- The lexicon finds a terminal that the vocabulary does not name. -/
  | missingTerminal (terminal grammar : String)
deriving DecidableEq, Repr

/-- A malformed definition is described by whoever reads it. -/
def GrammarError.message? : GrammarError → Option String
  | .unreadable path => some s!"Cannot read grammar file {path}"
  | .malformed => none
  | .missingTerminal terminal grammar =>
      some s!"Terminal {terminal} is missing from the {grammar} vocabulary"

inductive Fault where
  | grammar (error : GrammarError)
  | layout (error : LayoutError)
  | automaton (fault : AutomatonFault)
  /-- The parser refused a terminal that it had called acceptable. -/
  | refusedAcceptable (terminal : String)
  /-- The renderings name a token type that the vocabulary does not have. -/
  | rendering (error : UnknownTokenName)
  /-- A position mapper asked for a token that the stream does not have. -/
  | noSuchToken (index : Nat)
  /-- The cursor of a document makes no caret. -/
  | caret (errors : List (String × Caret.FieldError))
deriving DecidableEq, Repr

instance : MonadLift (Except AutomatonFault) (Except Fault) := ⟨Except.mapError .automaton⟩

instance : MonadLift (Except LayoutError) (Except Fault) := ⟨Except.mapError .layout⟩

instance : MonadLift (Except UnknownTokenName) (Except Fault) := ⟨Except.mapError .rendering⟩

end Typeahead
