import Typeahead.Fault
import Typeahead.Candidates
import Typeahead.Token.Stream

namespace Typeahead

/-! Grammars: all that is needed to read and parse the texts of one language. -/

structure Grammar where
  name : String
  lexicon : Lexicon
  vocabulary : Vocabulary
  /-- The terminals that the parser never sees. -/
  hidden : List String := []
  comments : List String := []
  /-- The terminals that the parser may make up, the preferred one first. -/
  repairs : List String := []
  /-- The rules that give way to their child when they have just one. -/
  transparent : List String := []
  automaton : Automaton

namespace Grammar

def table (grammar : Grammar) : RuleTable := grammar.automaton.table

def describe (grammar : Grammar) : String := s!"Grammar({Text.quoted grammar.name})"

/-- The token of a lexeme, whose columns are counted from zero. -/
def token (grammar : Grammar) (index : Nat) (lexeme : Lexeme) : Except Fault Token :=
  match grammar.vocabulary.type? lexeme.terminal with
  | none => .error (.grammar (.missingTerminal lexeme.terminal grammar.name))
  | some type => .ok
      { type, text := .ofList lexeme.text, index := some index,
        line := lexeme.line, column := (lexeme.column : Int) - 1, start := lexeme.start,
        hidden := grammar.hidden.contains lexeme.terminal,
        comment := grammar.comments.contains lexeme.terminal }

/-- The tokens of lexemes, numbered from `index` on. -/
def tokensFrom (grammar : Grammar) (index : Nat) : List Lexeme → Except Fault (List Token)
  | [] => .ok []
  | lexeme :: rest => do
      let token ← grammar.token index lexeme
      return token :: (← grammar.tokensFrom (index + 1) rest)

/-- All tokens of a text.  The end token stands at the end of the text even where the lexicon
found nothing before that. -/
def tokenize (grammar : Grammar) (text : String) : Except Fault TokenStream := do
  let lexemes ← grammar.lexicon.lexemes text
  let tokens ← grammar.tokensFrom 0 lexemes
  return .close tokens.toArray (.atEnd text.toList)

/-- The name of a token's type as the parser sees it. -/
def terminalOf (grammar : Grammar) (token : Token) : String :=
  (grammar.vocabulary.symbolicName? token.type).getD ""

/-- The chart of the visible tokens in front of stream position `stop`. -/
def chartBefore (grammar : Grammar) (stream : TokenStream) (stop : Int) : Chart :=
  .recognize grammar.table ((stream.visibleBefore stop).map grammar.terminalOf)

end Grammar

end Typeahead
