import Typeahead.Proofs.Language.Agreement
import Typeahead.Proofs.Language.Locating
import Typeahead.Proofs.ParseTree.Stopping
import Typeahead.Proofs.Parsing.Responding

namespace Typeahead

/-!
Every request for suggestions gets an answer, whatever the text and wherever the caret is.  Each of
the steps on the way could fault and does not: the lexemes are known, the strings can be divided, the
parser always goes on, and the token under the caret has a position in the stream.
-/

namespace Pattern

theorem startsBy_take {same : Char → Char → Bool} {text cs : List Char} {stop : Nat}
    (enough : text.length ≤ stop) : startsBy same text (cs.take stop) = startsBy same text cs := by
  induction text generalizing cs stop with
  | nil => simp [startsBy]
  | cons k text ih =>
      obtain ⟨stop, rfl⟩ := Nat.exists_eq_add_of_le' enough
      cases cs with
      | nil => rfl
      | cons c cs =>
          have shorter : text.length ≤ text.length + stop := Nat.le_add_right _ _
          rw [List.length_cons, ← Nat.add_assoc, List.take_succ_cons, startsBy, startsBy, ih]
          omega

theorem length_le_of_startsBy {same : Char → Char → Bool} {text cs : List Char}
    (starts : startsBy same text cs = true) : text.length ≤ cs.length := by
  induction text generalizing cs with
  | nil => simp
  | cons k text ih =>
      cases cs with
      | nil => cases starts
      | cons c cs =>
          have later := ih (Bool.and_eq_true_iff.1 starts).2
          simpa using later

theorem steady_word (text : List Char) : (word text).Steady := by
  intro cs size member
  simp only [lengths] at member
  split at member
  · rename_i starts
    obtain rfl := List.mem_singleton.1 member
    refine ⟨length_le_of_startsBy starts, ?_⟩
    intro stop enough
    simp [lengths, startsBy_take enough, starts]
  · cases member

theorem steady_maybe {pattern : Pattern} (steady : pattern.Steady) : (maybe pattern).Steady := by
  intro cs size member
  rcases List.mem_append.1 member with here | nothing
  · obtain ⟨bound, again⟩ := steady cs size here
    exact ⟨bound, fun stop later => List.mem_append_left _ (again stop later)⟩
  · obtain rfl := List.mem_singleton.1 nothing
    exact ⟨Nat.zero_le _, fun stop _ => List.mem_append_right _ List.mem_cons_self⟩

theorem Steady.matchesWhole {pattern : Pattern} (steady : pattern.Steady) {cs : List Char}
    {size : Nat} (member : size ∈ pattern.lengths cs) :
    pattern.matchesWhole (cs.take size) = true := by
  obtain ⟨bound, again⟩ := steady cs size member
  rw [Pattern.matchesWhole, List.contains_iff_mem, List.length_take_of_le bound]
  exact again size (Nat.le_refl size)

end Pattern

theorem Grammar.Covers.draws {grammar : Grammar} {stream : TokenStream} {parse : Parse}
    {skipped gained : List Nat} {tree : SyntaxTree} {outline : Outline}
    (covers : grammar.Covers stream parse skipped gained tree outline) :
    parse.tree.Draws stream outline where
  depicts := covers.closed.depicts
  distinct := covers.closed.distinct
  members := by
    intro token member
    obtain ⟨inside, placed⟩ := List.mem_filter.1 member
    rw [← covers.closed.tokens_eq] at inside
    rcases covers.mem_tokens_cases inside with ⟨index, found⟩ | ⟨none, -⟩
    · exact Array.mem_toList_iff.2 (Array.mem_of_getElem? found)
    · simp [Token.conjured, none] at placed

namespace LanguageSupport

variable {support : LanguageSupport} {matcher : Matcher} {text : String} {caret : Caret}

theorem exists_suggestAt {byType : List (Int × Option String)}
    (rendered : support.renderings.byType support.grammar.vocabulary = .ok byType)
    (matcher : Matcher) (stream : TokenStream) (tree : ParseTree) (caret : Caret)
    (position : TokenPosition) :
    ∃ completion, support.suggestAt matcher stream tree caret position = .ok completion := by
  have words : ∀ candidates, ∃ words, support.wordSuggestions tree candidates position matcher =
      .ok words := by
    intro candidates
    simp only [wordSuggestions, Renderings.words, rendered]
    exact ⟨_, rfl⟩
  unfold suggestAt
  obtain ⟨listed, made⟩ := words (Candidates.after support.grammar.table support.grammar.vocabulary
    support.filter (Chart.recognize support.grammar.table
      ((stream.visibleBefore position.index).map support.grammar.terminalOf)))
  simp only [made]
  exact ⟨_, rfl⟩

/-- The suggestions are those at the position of the caret; without a position there are none. -/
theorem exists_suggest {byType : List (Int × Option String)}
    (rendered : support.renderings.byType support.grammar.vocabulary = .ok byType)
    {stream : TokenStream} {parse : Parse} (tokenized : support.grammar.tokenize text = .ok stream)
    (parsed : support.grammar.parse stream = .ok parse) (matcher : Matcher) (caret : Caret) :
    ∃ completion, support.suggest matcher .default text caret = .ok completion ∧
      match (parse.tree.locate stream caret).position? with
      | none => completion.suggestions = []
      | some position => ∃ here, support.suggestAt matcher stream parse.tree caret position =
          .ok here ∧ completion.suggestions = here.suggestions := by
  simp only [suggest, tokenized, parsed, PositionMapper.default, Grammar.ok_bind]
  cases (parse.tree.locate stream caret).position? with
  | none => exact ⟨_, rfl, rfl⟩
  | some position =>
      obtain ⟨here, suggested⟩ := exists_suggestAt rendered matcher stream parse.tree caret position
      simp only [suggested, Grammar.ok_bind]
      exact ⟨_, rfl, here, rfl, rfl⟩

end LanguageSupport

namespace Language

theorem exists_byType (language : Language) : ∃ byType,
    language.support.renderings.byType language.support.grammar.vocabulary = .ok byType := by
  cases language with
  | structurizr => exact ⟨_, rfl⟩
  | kotlin => exact ⟨_, rfl⟩

/-- Every text has lexemes, and the vocabulary knows their terminals. -/
theorem exists_lexemes (language : Language) (text : String) :
    ∃ lexemes, language.support.grammar.lexicon.lexemes text = .ok lexemes ∧
      ∀ lexeme ∈ lexemes,
        language.support.grammar.vocabulary.contains lexeme.terminal = true := by
  cases language with
  | structurizr =>
      refine ⟨Architecture.lexicon.scan text.toList, rfl, ?_⟩
      intro lexeme member
      obtain ⟨rule, listed, found⟩ := (Lexicon.finds_of_mem_scanUpTo member).exists_rule
      exact List.all_eq_true.1
        (List.all_eq_true.1 Architecture.contains_terminals rule listed) _ found
  | kotlin =>
      exact Script.exists_layoutWithin (fun lexeme => Lexicon.finds_of_mem_scanUpTo) []

theorem Script.steady_lineString : lineString.Steady :=
  Pattern.steady_both (Pattern.steady_word quote)
    (Pattern.steady_both steady_lineText (Pattern.steady_maybe (Pattern.steady_word quote)))

/-- What is taken for a string on one line is one as a whole, so that it can be divided. -/
theorem Script.matchesWhole_lineString {reading : Reading} (finds : lexicon.Finds reading)
    (line : reading.terminal = "LINE_STRING") : lineString.matchesWhole reading.text = true := by
  obtain ⟨rule, member, cs, size, matched, rfl⟩ := finds
  have pattern := pattern_of_lineString member (line ▸ rule.terminalOf_mem _)
  exact steady_lineString.matchesWhole (pattern ▸ matched)

/-- The parser's own tree has just the tokens that were read if no trial has left a trace. -/
theorem exists_covers (language : Language) {text : String} {stream : TokenStream}
    (tokenized : language.support.grammar.tokenize text = .ok stream) :
    ∃ parse skipped gained tree outline, language.support.grammar.parse stream = .ok parse ∧
      language.support.grammar.Covers stream parse skipped gained tree outline ∧
      (tree.indices = gained ↔
        language.support.grammar.undisturbed stream.visiblePlaced .initial = true) := by
  have standing := Grammar.standing_initial language.support.grammar
  obtain ⟨_, repairs, stepped, advances⟩ :=
    Grammar.exists_steps language.sound stream.visiblePlaced standing
  obtain ⟨_, _, gained, passage, sublist, perm, verdict⟩ :=
    advances.verdict language.sound standing List.Pairwise.nil (by intro value ending; cases ending)
  have traceable := (language.spells tokenized).traceable
  obtain ⟨parse, tree, outline, parsed, finishes, covers⟩ :=
    Grammar.exists_covers language.sound traceable stepped passage sublist perm
  exact ⟨parse, _, _, tree, outline, parsed, covers, verdict.indices_iff finishes⟩

/-- Every caret in every text gets an answer, with any matcher.  On the way all lexemes have types,
strings on one line match as a whole, the parser has a move for each reduction and reads each
terminal that it calls acceptable, and the token under the caret is one of the stream. -/
theorem suggest_answers (language : Language) (matcher : Matcher) (text : String) (caret : Caret) :
    ∃ lexemes stream parse completion,
      language.support.grammar.lexicon.lexemes text = .ok lexemes ∧
      (∀ lexeme ∈ lexemes,
        language.support.grammar.vocabulary.contains lexeme.terminal = true) ∧
      (∀ lexeme ∈ Script.lexicon.scan text.toList, lexeme.terminal = "LINE_STRING" →
        Script.lineString.matchesWhole lexeme.text = true ∧
          ∃ parts, Script.splitLineString lexeme = .ok parts) ∧
      language.support.grammar.tokenize text = .ok stream ∧
      language.support.grammar.parse stream = .ok parse ∧
      (∀ read parser, language.support.grammar.Visits stream read parser →
        ∃ names, language.support.grammar.automaton.acceptable parser.stack = .ok names ∧
          language.support.grammar.Attentive parser.stack names) ∧
      parse.tree.locate stream caret ≠ .unplaced ∧
      (∀ position, parse.tree.locate stream caret = .found position →
        ∃ index : Nat, position.index = index ∧ index < stream.size) ∧
      ({ language, matcher } : Engine).suggest text caret = .ok completion := by
  obtain ⟨lexemes, read, known⟩ := language.exists_lexemes text
  obtain ⟨stream, tokenized, indexed⟩ := language.tokenizes text
  obtain ⟨parse, _, _, _, outline, parsed, covers, -⟩ := language.exists_covers tokenized
  obtain ⟨byType, rendered⟩ := language.exists_byType
  obtain ⟨completion, suggested, -⟩ :=
    LanguageSupport.exists_suggest rendered tokenized parsed matcher caret
  have spells := language.spells tokenized
  have answered := covers.draws.locate_cases covers.closed.place spells caret
  refine ⟨lexemes, stream, parse, completion, read, known, ?_, tokenized, parsed, ?_, ?_, ?_,
    suggested⟩
  · intro lexeme member line
    have finds := Lexicon.finds_of_mem_scanUpTo member
    refine ⟨Script.matchesWhole_lineString finds line, ?_⟩
    obtain ⟨rule, listed, cs, size, matched, same⟩ := finds
    have named : "LINE_STRING" = rule.terminalOf (cs.take size) := by
      rw [← line, same]
    have pattern := Script.pattern_of_lineString listed (named ▸ rule.terminalOf_mem _)
    obtain ⟨parts, split, -⟩ :=
      Script.exists_splitLineString (pattern ▸ matched) (congrArg Reading.text same)
    exact ⟨parts, split⟩
  · intro read parser visits
    exact visits.exists_attentive language.sound language.legible
  · rcases answered with nowhere | answers
    · rw [nowhere]
      exact Located.noConfusion
    · exact answers.ne_unplaced spells
  · intro position found
    rw [found] at answered
    rcases answered with nowhere | answers
    · cases nowhere
    · obtain ⟨token, known, -, -, same, -⟩ := answers.exists_token spells
      obtain ⟨index, here, place⟩ := spells.exists_getElem? known
      exact ⟨index, same.trans place, (Array.getElem?_eq_some_iff.1 here).1⟩

end Language

end Typeahead
