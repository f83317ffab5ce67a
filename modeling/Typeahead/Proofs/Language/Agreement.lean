import Typeahead.Proofs.Language.Trees
import Typeahead.Proofs.Parsing.Agreement

namespace Typeahead

/-! The parsers of the languages agree with the analysis of their rules. -/

theorem Vocabulary.mem_names_of_symbolicName? {vocabulary : Vocabulary} {type : Int} {name : String}
    (named : vocabulary.symbolicName? type = some name) : some name ∈ vocabulary.names := by
  unfold symbolicName? at named
  split at named
  · exact List.mem_of_getElem? (Option.join_eq_some_iff.1 named)
  · cases named

theorem Production.mem_origins_ofAlternatives {rules : List (String × List (List String))}
    (filled : (rules.all fun rule => !rule.2.isEmpty) = true) {name : String} :
    name ∈ (ofAlternatives rules).map (·.origin) ↔ name ∈ rules.map (·.1) := by
  simp only [ofAlternatives, List.mem_map, List.mem_flatMap]
  constructor
  · intro given
    obtain ⟨_, ⟨rule, member, symbols, -, rfl⟩, rfl⟩ := given
    exact ⟨rule, member, rfl⟩
  · intro given
    obtain ⟨⟨name, alternatives⟩, member, rfl⟩ := given
    have nonempty := List.all_eq_true.1 filled _ member
    cases alternatives with
    | nil => cases nonempty
    | cons symbols rest => exact ⟨_, ⟨_, member, symbols, List.mem_cons_self, rfl⟩, rfl⟩

theorem Vocabulary.exists_type? {names : List String} {name : String} (member : name ∈ names) :
    ∃ type, (⟨names.map some⟩ : Vocabulary).type? name = some type := by
  have listed : some name ∈ names.map some := List.mem_map_of_mem member
  rw [← Option.isSome_iff_exists, type?, Option.isSome_map, List.isSome_idxOf?]
  exact listed

/-- Whether a name begins like those of terminals. -/
def beginsCapital (name : String) : Bool := name.toByteArray.data.toList.head?.any (· ≤ 90)

/-- A grammar over all the symbols of its rules is legible if its terminals have types and no type is
named like a rule. -/
theorem Grammar.legible_of_alternatives {grammar : Grammar}
    {rules : List (String × List (List String))} {start : String} {names : List String}
    (vocabulary : grammar.vocabulary = ⟨names.map some⟩)
    (table : grammar.table = .closed (Production.ofAlternatives rules) start)
    (filled : (rules.all fun rule => !rule.2.isEmpty) = true)
    (rooted : start ∈ rules.map (·.1))
    (upper : names.all beginsCapital = true)
    (lower : (rules.all fun rule => rule.1 != "" && !beginsCapital rule.1) = true)
    (typed : ((RuleTable.usedSymbols (Production.ofAlternatives rules)).all fun symbol =>
      if beginsCapital symbol then names.contains symbol else (rules.map (·.1)).contains symbol) =
        true) :
    grammar.Legible where
  used := by
    intro production member symbol listed
    rw [table, RuleTable.mem_closed] at member
    simp only [table, RuleTable.isTerminal_closed, RuleTable.mem_closed]
    by_cases rule : symbol ∈ (Production.ofAlternatives rules).map (·.origin)
    · exact .inr (List.mem_map.1 rule)
    · exact .inl ⟨List.mem_flatMap.2 ⟨production, member, listed⟩, rule⟩
  start := by
    obtain ⟨production, member, origin⟩ :=
      List.mem_map.1 ((Production.mem_origins_ofAlternatives filled).2 rooted)
    rw [table]
    exact ⟨production, RuleTable.mem_closed.2 member, origin⟩
  tokens := by
    intro token production member same
    rw [table, RuleTable.mem_closed] at member
    obtain ⟨rule, inside, named⟩ := List.mem_map.1
      ((Production.mem_origins_ofAlternatives filled).1 (List.mem_map.2 ⟨production, member, rfl⟩))
    have holds := List.all_eq_true.1 lower rule inside
    rw [named, same, Bool.and_eq_true, bne_iff_ne, Bool.not_eq_true'] at holds
    cases known : grammar.vocabulary.symbolicName? token.type with
    | none => exact holds.1 (by rw [Grammar.terminalOf, known]; rfl)
    | some name =>
        rw [Grammar.terminalOf, known, Option.getD_some] at holds
        have listed := Vocabulary.mem_names_of_symbolicName? known
        rw [vocabulary] at listed
        have capital := List.all_eq_true.1 upper name (by simpa using listed)
        rw [holds.2] at capital
        cases capital
  typed := by
    intro name isTerminal
    rw [table, RuleTable.isTerminal_closed, Production.mem_origins_ofAlternatives filled]
      at isTerminal
    have known := List.all_eq_true.1 typed name isTerminal.1
    rw [vocabulary]
    split at known
    · exact Vocabulary.exists_type? (List.contains_iff_mem.1 known)
    · exact absurd (List.contains_iff_mem.1 known) isTerminal.2

namespace Language

theorem Script.legible_grammar : grammar.Legible := by
  have table : grammar.table = .closed (Production.ofAlternatives alternatives) startRule := rfl
  refine Grammar.legible_of_alternatives rfl table ?_ ?_ ?_ ?_ ?_ <;> decide +kernel

theorem Architecture.legible_grammar : grammar.Legible := by
  have table : grammar.table = .closed (Production.ofAlternatives alternatives) startRule := rfl
  refine Grammar.legible_of_alternatives rfl table ?_ ?_ ?_ ?_ ?_ <;> decide +kernel

theorem legible (language : Language) : language.support.grammar.Legible := by
  cases language with
  | structurizr => exact Architecture.legible_grammar
  | kotlin => exact Script.legible_grammar

/-- At every point of a parse the chart of the terminals that the parser has consumed skips none of
them; each terminal that the parser would take is a candidate there; and where it would accept, a
production of the start is completed over the whole input.  The parser comes to every token and to
the end. -/
theorem parser_agrees_with_chart (language : Language) (stream : TokenStream) :
    (∀ front rest, stream.visiblePlaced = front ++ rest →
      ∃ read parser repairs,
        language.support.grammar.steps front .initial = .ok (parser, repairs) ∧
        language.support.grammar.Reaches stream rest read parser) ∧
    ∀ read parser, language.support.grammar.Visits stream read parser →
      (Chart.recognize language.support.grammar.table read).skipped = #[] ∧
      ∃ names, language.support.grammar.automaton.acceptable parser.stack = .ok names ∧
        (∀ name ∈ names, name ≠ endMarker →
          ∃ type, language.support.grammar.vocabulary.type? name = some type ∧
            type ∈ (Candidates.after language.support.grammar.table
              language.support.grammar.vocabulary {}
              (.recognize language.support.grammar.table read)).tokens.map (·.1)) ∧
        (endMarker ∈ names →
          ∃ p production, language.support.grammar.table.productions[p]? = some production ∧
            production.origin = language.support.grammar.table.start ∧
            ⟨⟨p, production.symbols.length⟩, 0⟩ ∈
              (Chart.recognize language.support.grammar.table read).last) := by
  have sound := language.sound
  have legible := language.legible
  have disjoint := sound.proper.disjoint
  refine ⟨fun front rest split => Grammar.exists_reaches sound split, ?_⟩
  intro read parser visits
  have agrees := visits.agrees sound legible
  obtain ⟨symbols, linked, -⟩ := agrees.consumed
  obtain ⟨names, listed, -⟩ := Automaton.exists_acceptable sound.proper linked
  refine ⟨agrees.whole, names, listed, ?_, ?_⟩
  · intro name member inner
    obtain ⟨isTerminal, expects⟩ := agrees.expects_of_acceptable sound legible listed member inner
    obtain ⟨type, typed⟩ := legible.typed name isTerminal
    refine ⟨type, typed, (Candidates.mem_tokens_iff_expects disjoint).2 ?_⟩
    rw [Chart.keptNames_of_skipped_empty agrees.whole]
    exact ⟨name, isTerminal, typed, by simp, expects⟩
  · intro ended
    obtain ⟨production, member, origin, yields⟩ := agrees.yields_of_acceptable sound listed ended
    obtain ⟨p, found⟩ := Array.mem_iff_getElem?.1 member
    exact ⟨p, production, found, origin,
      Chart.completed_of_yields disjoint agrees.whole found origin yields⟩

/-- Behind a workspace that has been opened and not closed. -/
theorem parser_agrees_in_workspace :
    ∃ stream read parser, Architecture.grammar.tokenize "workspace \x7b" = .ok stream ∧
      Architecture.grammar.Visits stream read parser ∧
      (Chart.recognize Architecture.grammar.table read).skipped = #[] ∧
      ∃ names, Architecture.grammar.automaton.acceptable parser.stack = .ok names := by
  obtain ⟨stream, tokenized, -⟩ := tokenizes .structurizr "workspace \x7b"
  obtain ⟨reaches, agrees⟩ := parser_agrees_with_chart .structurizr stream
  obtain ⟨read, parser, -, -, reached⟩ :=
    reaches stream.visiblePlaced [] (List.append_nil _).symm
  obtain ⟨whole, names, acceptable, -⟩ := agrees read parser (.between reached)
  exact ⟨stream, read, parser, tokenized, .between reached, whole, names, acceptable⟩

end Language

end Typeahead
