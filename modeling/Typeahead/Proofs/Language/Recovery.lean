import Typeahead.Proofs.Language.Trees
import Typeahead.Proofs.Parsing.PassedOver

namespace Typeahead

/-! What passing over a token does to the parser of a text. -/

theorem Grammar.unwrapping_of_all {grammar : Grammar} {productions : List Production}
    {start : String} (table : grammar.table = .closed productions start)
    (checked : (productions.all fun production =>
      !grammar.transparent.contains production.origin || production.symbols.length != 1 ||
        !production.symbols.any isInlined) = true) :
    grammar.Unwrapping := by
  intro production member symbol single inlined
  rw [table, RuleTable.mem_closed] at member
  have holds := List.all_eq_true.1 checked production member
  simpa [single, inlined] using holds

theorem Grammar.topmost_of_all {grammar : Grammar} {productions : List Production}
    {start : String} (table : grammar.table = .closed productions start)
    (checked : (productions.all fun production => !production.symbols.contains start) = true) :
    grammar.Topmost := by
  intro production member used
  rw [table, RuleTable.mem_closed] at member
  have unused := List.all_eq_true.1 checked production member
  have used' : start ∈ production.symbols := by
    rw [table] at used
    exact used
  simp [used'] at unused

namespace Language

theorem Script.unwrapping_grammar : grammar.Unwrapping := by
  have table : grammar.table = .closed productions startRule := rfl
  exact Grammar.unwrapping_of_all table (by decide +kernel)

theorem Architecture.unwrapping_grammar : grammar.Unwrapping := by
  have table : grammar.table = .closed productions startRule := rfl
  exact Grammar.unwrapping_of_all table (by decide +kernel)

theorem unwrapping (language : Language) : language.support.grammar.Unwrapping := by
  cases language with
  | structurizr => exact Architecture.unwrapping_grammar
  | kotlin => exact Script.unwrapping_grammar

theorem topmost (language : Language) : language.support.grammar.Topmost := by
  cases language with
  | structurizr =>
      have table : Architecture.grammar.table = .closed Architecture.productions
        Architecture.startRule := rfl
      exact Grammar.topmost_of_all table (by decide +kernel)
  | kotlin =>
      have table : Script.grammar.table = .closed Script.productions Script.startRule := rfl
      exact Grammar.topmost_of_all table (by decide +kernel)

/-- Every stream has a parse.  Where it passes a token over, the parser behind that token would
take the same terminals and has the same trees on its stack as in front of it just when the token
goes unnoticed: no trial in front of it appends to the list of a value on the stack, and the
reductions made for it are silent and leave the terminals as they were.  They do that to a terminal
that selects them itself.  One that cannot come behind a rule that they reduce, they lose. -/
theorem skip_unnoticed_iff (language : Language) (stream : TokenStream) :
    ∃ parse, language.support.grammar.parse stream = .ok parse ∧
      ∀ front token index rest, stream.visiblePlaced = front ++ (token, index) :: rest →
        .skipped index ∈ parse.repairs →
        ∃ parser repairs next names others,
          language.support.grammar.steps front .initial = .ok (parser, repairs) ∧
          language.support.grammar.step (language.support.grammar.terminalOf token) index parser =
            .ok (next, some (.skipped index)) ∧
          language.support.grammar.automaton.acceptable parser.stack = .ok names ∧
          language.support.grammar.automaton.acceptable next.stack = .ok others ∧
          ((∀ name, name ∈ others ↔ name ∈ names) ∧ next.trees = parser.trees ↔
            language.support.grammar.unnoticed (language.support.grammar.terminalOf token) index
              parser = true) := by
  have sound := language.sound
  obtain ⟨weigh, weighs⟩ := Grammar.exists_weighs sound
  obtain ⟨parse, _, _, parsed, -⟩ := Grammar.exists_parse sound stream
  refine ⟨parse, parsed, ?_⟩
  intro front token index rest split listed
  have inner := Grammar.terminalOf_ne_endMarker sound token
  obtain ⟨parser, repairs, next, stepped, advances, onward, advance⟩ :=
    Grammar.exists_skip sound parsed split listed
  obtain ⟨_, _, settled⟩ :=
    (Grammar.settled_initial language.support.grammar).advances sound advances
  obtain ⟨_, _, settled'⟩ := settled.advance sound inner advance
  obtain ⟨names, before, -⟩ := Automaton.exists_acceptable sound.proper settled.standing.linked
  obtain ⟨others, after, -⟩ := Automaton.exists_acceptable sound.proper settled'.standing.linked
  exact ⟨parser, repairs, next, names, others, stepped, onward, before, after,
    settled.unnoticed_iff sound language.unwrapping weighs language.topmost inner advance before
      after⟩

end Language

end Typeahead
