import Typeahead.Proofs.Automaton.ViablePrefix
import Typeahead.Proofs.Candidates.Skipping
import Typeahead.Proofs.Parsing.Run

namespace Typeahead

/-!
The parser and the chart agree.  At every point of a parse the chart of the terminals that the parser
has consumed skips none of them, and what the parser would take next is a candidate there.
-/

namespace Chart

variable {table : RuleTable} {names : List String} {name : String}

theorem keptNames_of_skipped_empty (whole : (recognize table names).skipped = #[]) :
    keptNames table names = names := by
  simp [keptNames, kept, whole]

theorem skipped_concat_of_expects (disjoint : table.Disjoint)
    (whole : (recognize table names).skipped = #[]) (terminal : table.isTerminal name = true)
    (expects : table.Expects names name) :
    (recognize table (names ++ [name])).skipped = #[] := by
  have taken : skips table names name = false := by
    rw [skips_eq_false_iff_expects disjoint, keptNames_of_skipped_empty whole]
    exact ⟨terminal, expects⟩
  rw [skipped_concat, taken]
  exact whole

/-- A production of the start that yields the whole input is completed in the last column. -/
theorem completed_of_yields (disjoint : table.Disjoint)
    (whole : (recognize table names).skipped = #[]) {p : Nat} {production : Production}
    (found : table.productions[p]? = some production) (origin : production.origin = table.start)
    (yields : table.Yields production.symbols names) :
    ⟨⟨p, production.symbols.length⟩, 0⟩ ∈ (recognize table names).last := by
  have listed : p ∈ table.productionsOf table.start :=
    RuleTable.mem_productionsOf.2 ⟨production, found, origin⟩
  have first : ⟨⟨p, 0⟩, 0⟩ ∈ column table [] := by
    rw [column_nil]
    exact Column.mem_close_of_mem (OrderedSet.mem_ofList.2 (List.mem_map_of_mem listed))
  have after : (table.symbols p).drop 0 = production.symbols ++ [] := by
    rw [RuleTable.symbols_of_getElem? found, List.drop_zero, List.append_nil]
  have kept : keptNames table ([] ++ names) = keptNames table [] ++ names :=
    keptNames_of_skipped_empty whole
  have moved := advance_over disjoint yields first after kept
  simp only [Nat.zero_add] at moved
  exact moved

end Chart

namespace Grammar

variable {grammar : Grammar} {stream : TokenStream} {read : List String} {parser : LiveParser}
  {terminal : String} {leaf : Leaf} {forest : Forest} {stack : List (Frame Branch)}

/-- Every symbol of the grammar is a terminal with a type or a rule, and no token is named like a
rule. -/
structure Legible (grammar : Grammar) : Prop where
  used : ∀ production ∈ grammar.table.productions, ∀ symbol ∈ production.symbols,
    grammar.table.isTerminal symbol = true ∨
      ∃ other ∈ grammar.table.productions, other.origin = symbol
  start : ∃ production ∈ grammar.table.productions, production.origin = grammar.table.start
  tokens : ∀ token, ∀ production ∈ grammar.table.productions,
    production.origin ≠ grammar.terminalOf token
  typed : ∀ name, grammar.table.isTerminal name = true →
    ∃ type, grammar.vocabulary.type? name = some type

theorem Legible.expects (legible : grammar.Legible) (disjoint : grammar.table.Disjoint)
    (isTerminal : grammar.table.isTerminal terminal = true)
    (opens : grammar.table.Opens read terminal) : grammar.table.Expects read terminal := by
  rcases RuleTable.opens_iff_expects.1 opens with ⟨-, rfl⟩ | expects
  · obtain ⟨production, member, origin⟩ := legible.start
    rw [← origin, disjoint.isTerminal_origin member] at isTerminal
    cases isTerminal
  · exact expects

theorem Legible.isTerminal_terminalOf (legible : grammar.Legible) {token : Token}
    (opens : grammar.table.Opens read (grammar.terminalOf token)) :
    grammar.table.isTerminal (grammar.terminalOf token) = true := by
  rcases RuleTable.opens_iff_expects.1 opens with ⟨-, start⟩ | expects
  · obtain ⟨production, member, origin⟩ := legible.start
    exact absurd (origin.trans start.symm) (legible.tokens token production member)
  · obtain ⟨production, member, _, _, _, _, place, -⟩ := expects
    have listed : grammar.terminalOf token ∈ production.symbols := by simp [place]
    rcases legible.used production member _ listed with terminal | ⟨other, inside, same⟩
    · exact terminal
    · exact absurd same (legible.tokens token other inside)

/-- The parser has consumed the terminals `read`, and the chart skips none of them. -/
structure Agrees (grammar : Grammar) (read : List String) (parser : LiveParser) : Prop where
  consumed : grammar.automaton.Consumed read parser.stack
  whole : (Chart.recognize grammar.table read).skipped = #[]

namespace Agrees

theorem initial (grammar : Grammar) : grammar.Agrees [] .initial where
  consumed := .initial grammar.automaton
  whole := rfl

theorem of_stack {last : Forest} (agrees : grammar.Agrees read ⟨forest, stack⟩) :
    grammar.Agrees read ⟨last, stack⟩ :=
  ⟨agrees.consumed, agrees.whole⟩

theorem refused (agrees : grammar.Agrees read parser)
    (reads : grammar.Reads terminal leaf parser (.refused forest stack)) :
    grammar.Agrees read ⟨forest, stack⟩ :=
  ⟨agrees.consumed.refused reads, agrees.whole⟩

section Legible

variable (legible : grammar.Legible) (disjoint : grammar.table.Disjoint)

include legible disjoint

theorem shifted (agrees : grammar.Agrees read parser)
    (isTerminal : grammar.table.isTerminal terminal = true)
    (reads : grammar.Reads terminal leaf parser (.shifted forest stack)) :
    grammar.Agrees (read ++ [terminal]) ⟨forest, stack⟩ := by
  obtain ⟨opens, consumed⟩ := agrees.consumed.shifted reads
  exact ⟨consumed, Chart.skipped_concat_of_expects disjoint agrees.whole isTerminal
    (legible.expects disjoint isTerminal opens)⟩

theorem shifted_token (agrees : grammar.Agrees read parser) {token : Token}
    (reads : grammar.Reads (grammar.terminalOf token) leaf parser (.shifted forest stack)) :
    grammar.Agrees (read ++ [grammar.terminalOf token]) ⟨forest, stack⟩ :=
  agrees.shifted legible disjoint
    (legible.isTerminal_terminalOf (agrees.consumed.shifted reads).1) reads

end Legible

section Acceptable

variable (sound : grammar.Sound) (legible : grammar.Legible) (agrees : grammar.Agrees read parser)
  {names : List String} (listed : grammar.automaton.acceptable parser.stack = .ok names)

include sound agrees listed

theorem exists_takes {name : String} (member : name ∈ names) :
    (name = endMarker ∨ grammar.table.isTerminal name = true) ∧
      ∃ outcome, grammar.Reads name (.conjured name 0) parser outcome ∧ outcome.taken = true := by
  obtain ⟨symbols, linked, -⟩ := agrees.consumed
  obtain ⟨others, same, members⟩ := Automaton.exists_acceptable sound.proper linked
  obtain rfl := Except.ok.inj (listed.symm.trans same)
  obtain ⟨choice, takes⟩ := (members name).1 member
  obtain ⟨outcome, -, reads, taken⟩ := Automaton.exists_feeds_of_takes sound.proper linked takes
    (Forest.reduce grammar.transparent) (.leaf (.conjured name 0)) parser.forest
  exact ⟨Automaton.isTerminal_of_mem_choices choice, outcome, reads, taken⟩

include legible

theorem expects_of_acceptable {name : String} (member : name ∈ names) (inner : name ≠ endMarker) :
    grammar.table.isTerminal name = true ∧ grammar.table.Expects read name := by
  obtain ⟨ended | isTerminal, outcome, reads, taken⟩ := agrees.exists_takes sound listed member
  · exact absurd ended inner
  · rcases reads.cases_of_ne inner with ⟨forest, stack, rfl⟩ | ⟨_, _, rfl⟩
    · exact ⟨isTerminal, legible.expects sound.proper.disjoint isTerminal
        (agrees.consumed.shifted reads).1⟩
    · cases taken

omit legible

theorem yields_of_acceptable (member : endMarker ∈ names) :
    ∃ production ∈ grammar.table.productions, production.origin = grammar.table.start ∧
      grammar.table.Yields production.symbols read := by
  obtain ⟨-, outcome, reads, taken⟩ := agrees.exists_takes sound listed member
  cases outcome with
  | refused => cases taken
  | accepted => exact agrees.consumed.accepted reads
  | shifted =>
      cases reads with
      | shifted _ move =>
          rw [move?_endMarker sound] at move
          cases move

end Acceptable

end Agrees

section Points

/-- The terminals that a step over a token reads. -/
def readBy (terminal : String) : Option Repair → List String
  | some (.skipped _) => []
  | some (.inserted name _) => [name, terminal]
  | _ => [terminal]

/-- The parser between two tokens of a stream: those that are left, the terminals that it has
consumed, and the parser itself. -/
inductive Reaches (grammar : Grammar) (stream : TokenStream) :
    (rest : List (Token × Nat)) → (read : List String) → LiveParser → Prop where
  | start : Reaches grammar stream stream.visiblePlaced [] .initial
  | step {token : Token} {index : Nat} {rest : List (Token × Nat)} {read : List String}
      {parser next : LiveParser} {repair : Option Repair}
      (reached : Reaches grammar stream ((token, index) :: rest) read parser)
      (stepped : grammar.step (grammar.terminalOf token) index parser = .ok (next, repair)) :
      Reaches grammar stream rest (read ++ readBy (grammar.terminalOf token) repair) next

/-- The parser behind the last token, after some rounds in which it did not accept. -/
inductive Closes (grammar : Grammar) (stream : TokenStream) :
    (rounds : Nat) → (read : List String) → LiveParser → Prop where
  | start {read : List String} {parser : LiveParser}
      (reached : Reaches grammar stream [] read parser) :
      Closes grammar stream maxRepairs read parser
  | round {rounds : Nat} {read names : List String} {parser : LiveParser} {name : String}
      {forest : Forest} {stack : List (Frame Branch)}
      (reached : Closes grammar stream (rounds + 1) read parser)
      (acceptable : grammar.automaton.acceptable parser.stack = .ok names)
      (unended : endMarker ∉ names)
      (chosen : grammar.repairs.find? names.contains = some name)
      (fed : grammar.feed name (.conjured name (stream.size - 1)) parser =
        .ok (.shifted forest stack)) :
      Closes grammar stream rounds (read ++ [name]) ⟨forest, stack⟩

/-- The points of a parse: in front of a token and behind the last one, where a token has just been
refused, and in the rounds at the end. -/
inductive Visits (grammar : Grammar) (stream : TokenStream) :
    (read : List String) → LiveParser → Prop where
  | between {rest : List (Token × Nat)} {read : List String} {parser : LiveParser}
      (reached : Reaches grammar stream rest read parser) : Visits grammar stream read parser
  | refused {token : Token} {index : Nat} {rest : List (Token × Nat)} {read : List String}
      {parser : LiveParser} {forest : Forest} {stack : List (Frame Branch)}
      (reached : Reaches grammar stream ((token, index) :: rest) read parser)
      (fed : grammar.feed (grammar.terminalOf token) (.token index) parser =
        .ok (.refused forest stack)) :
      Visits grammar stream read ⟨forest, stack⟩
  | closing {rounds : Nat} {read : List String} {parser : LiveParser}
      (reached : Closes grammar stream rounds read parser) : Visits grammar stream read parser

/-- A parser at work that agrees with the chart. -/
def Abides (grammar : Grammar) (read : List String) (parser : LiveParser) : Prop :=
  (∃ level symbols, grammar.Standing level symbols parser) ∧ grammar.Agrees read parser

variable (sound : grammar.Sound) (legible : grammar.Legible)

include sound legible

theorem Agrees.advance {token : Token} {index : Nat} {next : LiveParser} {repair : Option Repair}
    (agrees : grammar.Agrees read parser)
    (advance : grammar.Advance (grammar.terminalOf token) index parser next repair) :
    grammar.Agrees (read ++ readBy (grammar.terminalOf token) repair) next := by
  cases advance with
  | taken _ reads => exact agrees.shifted_token legible sound.proper.disjoint reads
  | skipped _ reads _ _ =>
      rw [readBy, List.append_nil]
      exact (agrees.refused reads).of_stack
  | @inserted forest left stack tried later name next _ reads tries _ inserts =>
      have stuck : grammar.Agrees read ⟨left, stack⟩ := (agrees.refused reads).of_stack
      obtain ⟨names, acceptable, split⟩ := tries
      have listed : name ∈ grammar.repairs.filter names.contains := by simp [← split]
      obtain ⟨repair, member⟩ := List.mem_filter.1 listed
      have inner : name ≠ endMarker := fun same => sound.repairs (same ▸ repair)
      obtain ⟨isTerminal, -⟩ := stuck.expects_of_acceptable sound legible acceptable
        (List.contains_iff_mem.1 member) inner
      cases inserts with
      | mk _ conjures _ follows =>
          have conjured := stuck.shifted legible sound.proper.disjoint isTerminal conjures
          have taken := conjured.shifted_token legible sound.proper.disjoint follows
          simpa [readBy] using taken

theorem Reaches.abides {rest : List (Token × Nat)} (reached : grammar.Reaches stream rest read parser) :
    grammar.Abides read parser := by
  induction reached with
  | start => exact ⟨⟨_, _, standing_initial grammar⟩, .initial grammar⟩
  | @step token index rest read parser next repair _ stepped ih =>
      obtain ⟨⟨_, _, standing⟩, agrees⟩ := ih
      have inner := terminalOf_ne_endMarker sound token
      obtain ⟨other, other', same, advance⟩ := exists_advance sound inner index standing
      obtain ⟨rfl, rfl⟩ := Prod.mk.inj (Except.ok.inj (stepped.symm.trans same))
      obtain ⟨level, symbols, passage⟩ := advance.passage sound inner standing
      exact ⟨⟨level, symbols, passage.standing⟩, agrees.advance sound legible advance⟩

theorem Closes.abides {rounds : Nat} (reached : grammar.Closes stream rounds read parser) :
    grammar.Abides read parser := by
  induction reached with
  | start reached => exact reached.abides sound legible
  | @round rounds read names parser name forest stack _ acceptable _ chosen fed ih =>
      obtain ⟨⟨_, _, standing⟩, agrees⟩ := ih
      have member := List.contains_iff_mem.1 (List.find?_some chosen)
      have inner : name ≠ endMarker :=
        fun same => sound.repairs (same ▸ List.mem_of_find?_eq_some chosen)
      obtain ⟨isTerminal, -⟩ :=
        agrees.expects_of_acceptable sound legible acceptable member inner
      obtain ⟨outcome, same, reads⟩ :=
        exists_reads sound standing name (.conjured name (stream.size - 1))
      obtain rfl := Except.ok.inj (fed.symm.trans same)
      obtain ⟨level, symbols, passage, -⟩ := standing.shifted sound reads
      exact ⟨⟨level, _, passage.standing⟩,
        agrees.shifted legible sound.proper.disjoint isTerminal reads⟩

omit sound legible in
theorem Advances.exists_reaches {placed rest : List (Token × Nat)} {last : LiveParser}
    {repairs : List Repair} (advances : grammar.Advances placed parser last repairs)
    (reached : grammar.Reaches stream (placed ++ rest) read parser) :
    ∃ more, grammar.Reaches stream rest (read ++ more) last := by
  induction advances generalizing read with
  | nil => exact ⟨[], by simpa using reached⟩
  | cons stepped _ _ ih =>
      obtain ⟨more, later⟩ := ih (reached.step stepped)
      exact ⟨_, by simpa using later⟩

omit legible in
/-- The parser comes to stand in front of every token and behind the last one. -/
theorem exists_reaches {front rest : List (Token × Nat)}
    (split : stream.visiblePlaced = front ++ rest) :
    ∃ read parser repairs, grammar.steps front .initial = .ok (parser, repairs) ∧
      grammar.Reaches stream rest read parser := by
  obtain ⟨parser, repairs, stepped, advances⟩ :=
    exists_steps sound front (standing_initial grammar)
  have first : grammar.Reaches stream (front ++ rest) [] .initial := split ▸ .start
  obtain ⟨read, reached⟩ := advances.exists_reaches first
  exact ⟨_, parser, repairs, stepped, reached⟩

theorem Visits.agrees (visits : grammar.Visits stream read parser) : grammar.Agrees read parser := by
  cases visits with
  | between reached => exact (reached.abides sound legible).2
  | closing reached => exact (reached.abides sound legible).2
  | @refused token index rest _ parser forest stack reached fed =>
      obtain ⟨⟨_, _, standing⟩, agrees⟩ := reached.abides sound legible
      obtain ⟨outcome, same, reads⟩ :=
        exists_reads sound standing (grammar.terminalOf token) (.token index)
      obtain rfl := Except.ok.inj (fed.symm.trans same)
      exact agrees.refused reads

end Points

end Grammar

end Typeahead
