import Typeahead.Language.Script
import Typeahead.Language.Architecture
import Typeahead.Note

namespace Typeahead

/-! Completion requests: a text and a caret in it, and the words that may stand there. -/

structure Completion where
  suggestions : List String
  notes : List Note

/-- How a caret is found in a parsed text. -/
abbrev PositionMapper := ParseTree → TokenStream → Caret → Except Fault Located

def PositionMapper.default : PositionMapper := fun tree stream caret =>
  .ok (tree.locate stream caret)

def Language.support : Language → LanguageSupport
  | .structurizr => Architecture.support
  | .kotlin => Script.support

namespace LanguageSupport

/-- The variables that can be named at a node: those visible from its scope; at the outermost level
only those that stand there themselves. -/
def variablesAt (reading : VariableReading) (tree : ParseTree) (table : SymbolTable)
    (context : Nat) : List String :=
  let symbols :=
    match tree.resolveScope? table context with
    | some scope => table.visibleFrom scope reading.kind
    | none => (table.children 0).filter (table.isA reading.kind)
  symbols.map table.nameOf

/-- What has been typed of a variable's name at a position. -/
def typedVariable (reading : VariableReading) (tree : ParseTree) (position : TokenPosition) :
    String :=
  if (tree.ancestors position.context).any fun i => tree.rule? i == some reading.readingRule then
    position.text
  else ""

/-- The variables that match at a position, where one of the preferred rules may come next. -/
def variableSuggestions (support : LanguageSupport) (tree : ParseTree) (candidates : Candidates)
    (position : TokenPosition) (matcher : Matcher) : Completion :=
  match support.variableReading with
  | none => ⟨[], []⟩
  | some reading =>
      if candidates.rules.toList.any support.preferred.contains then
        let declared := tree.declared support.declarations
        let names := variablesAt reading tree declared.table position.context
        let typed := typedVariable reading tree position
        { suggestions := matcher typed names
          notes := declared.unnamed.map Note.ofUnnamed ++
            [.ofVariables reading.language names.length typed] }
      else ⟨[], []⟩

/-- The words for candidate tokens that match at a position. -/
def wordSuggestions (support : LanguageSupport) (tree : ParseTree) (candidates : Candidates)
    (position : TokenPosition) (matcher : Matcher) : Except Fault (List String) := do
  let words ← support.renderings.words support.grammar.vocabulary (candidates.tokens.map (·.1))
  let typed :=
    match tree.node? position.context with
    | some node => textToMatch support.ignored node.label position.text
    | none => position.text
  return matcher typed words

/-- The suggestions at a position of a parsed text. -/
def suggestAt (support : LanguageSupport) (matcher : Matcher) (stream : TokenStream)
    (tree : ParseTree) (caret : Caret) (position : TokenPosition) : Except Fault Completion := do
  let grammar := support.grammar
  let names := (stream.visibleBefore position.index).map grammar.terminalOf
  let chart := Chart.recognize grammar.table names
  let candidates := Candidates.after grammar.table grammar.vocabulary support.filter chart
  let named := support.variableSuggestions tree candidates position matcher
  let words ← support.wordSuggestions tree candidates position matcher
  let suggestions := named.suggestions ++ words
  return {
    suggestions
    notes := Note.ofSkipped names chart ++ [.ofCandidates grammar candidates position.index] ++
      named.notes ++ [.ofSuggestions grammar suggestions.length caret] }

/-- The suggestions for a caret in a text; none if the caret is on no token. -/
def suggest (support : LanguageSupport) (matcher : Matcher) (mapper : PositionMapper)
    (code : String) (caret : Caret) : Except Fault Completion := do
  let stream ← support.grammar.tokenize code
  let parse ← support.grammar.parse stream
  let located ← mapper parse.tree stream caret
  let notes := parse.repairs.map (.ofRepair support.grammar stream) ++ Note.ofLocated caret located
  match located.position? with
  | none => return { suggestions := [], notes }
  | some position =>
      let completion ← support.suggestAt matcher stream parse.tree caret position
      return { completion with notes := notes ++ completion.notes }

end LanguageSupport

/-- The completion of one language with a matcher of its own. -/
structure Engine where
  language : Language
  matcher : Matcher := Matcher.startsWith

namespace Engine

def describe (engine : Engine) : String := s!"CompletionEngine({engine.language.name})"

def suggest (engine : Engine) (code : String) (caret : Caret)
    (mapper : PositionMapper := .default) : Except Fault Completion :=
  engine.language.support.suggest engine.matcher mapper code caret

end Engine

end Typeahead
