import Typeahead.Grammar.Parsing
import Typeahead.Position

namespace Typeahead

/-! Notes on how a completion came about. -/

/-- The part of the work that a note is about. -/
inductive Stage where
  | parsing
  | analysis
  | position
  | symbols
  | variableNames
  | completion
deriving DecidableEq, Repr

structure Note where
  stage : Stage
  text : String
deriving DecidableEq, Repr

namespace Note

def ofRepair (grammar : Grammar) (stream : TokenStream) (repair : Repair) : Note where
  stage := .parsing
  text :=
    match repair with
    | .skipped index =>
        let token := stream.tokens.getD index stream.eof
        let terminal := grammar.terminalOf token
        s!"{grammar.name}: skipping unexpected {terminal} at {token.line}:{token.column}"
    | .inserted name before =>
        let token := stream.tokens.getD before stream.eof
        let terminal := grammar.terminalOf token
        s!"{grammar.name}: conjured {name} before {terminal} at {token.line}:{token.column}"
    | .closed name => s!"{grammar.name}: conjuring {name} at end of input"
    | .incomplete => s!"{grammar.name}: input incomplete, using partial parse"

def ofLocated (caret : Caret) : Located → List Note
  | .found _ | .unplaced => []
  | .inComment => [⟨.position, s!"position: {caret.line}:{caret.column} is inside a comment"⟩]
  | .nowhere => [⟨.position, s!"position: no token at {caret.line}:{caret.column}"⟩]

/-- On the terminals of an input that its chart skipped. -/
def ofSkipped (names : List String) (chart : Chart) : List Note :=
  chart.skipped.toList.map fun i =>
    let name := names.getD i ""
    ⟨.analysis, s!"analysis: skipping unexpected {name} at position {i}"⟩

def ofCandidates (grammar : Grammar) (candidates : Candidates) (index : Int) : Note where
  stage := .analysis
  text :=
    let tokens := candidates.tokens.length
    let rules := candidates.rules.size
    s!"{grammar.name}: {tokens} token and {rules} rule candidates at token {index}"

def ofUnnamed (rule : String) : Note := ⟨.symbols, s!"symbols: skipping unnamed {rule}"⟩

def ofVariables (language : String) (count : Nat) (typed : String) : Note :=
  ⟨.variableNames, s!"{language}: {count} visible variables, prefix {Text.quoted typed}"⟩

def ofSuggestions (grammar : Grammar) (count : Nat) (caret : Caret) : Note :=
  ⟨.completion, s!"{grammar.name}: {count} suggestions at {caret.line}:{caret.column}"⟩

end Note

end Typeahead
