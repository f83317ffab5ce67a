import Typeahead.Proofs.Parsing.Run
import Typeahead.Proofs.Parsing.Trial

namespace Typeahead.Grammar

/-!
The traces of trials over a whole stream.  As long as no trial leaves one, each token that is read
is below the stack once and in its place; from the first trace on, a token is there twice.
-/

/-- Whether none of the trials in front of a token leaves a trace.  They end with the first that is
taken over. -/
def calm (grammar : Grammar) (terminal : String) (stack : List (Frame Branch)) : List String → Bool
  | [] => true
  | name :: names =>
      match grammar.trace? terminal name stack with
      | none => true
      | some trace => !trace && grammar.calm terminal stack names

/-- Whether the parser goes on over a token without a trace. -/
def calmAt (grammar : Grammar) (terminal : String) (index : Nat) (parser : LiveParser) : Bool :=
  match grammar.feed terminal (.token index) parser with
  | .ok (.refused _ stack) =>
      match grammar.automaton.acceptable stack with
      | .ok names => grammar.calm terminal stack (grammar.repairs.filter names.contains)
      | .error _ => true
  | _ => true

/-- Whether the parser goes on over all the tokens without a trace. -/
def undisturbed (grammar : Grammar) : List (Token × Nat) → LiveParser → Bool
  | [], _ => true
  | (token, index) :: rest, parser =>
      grammar.calmAt (grammar.terminalOf token) index parser &&
        match grammar.step (grammar.terminalOf token) index parser with
        | .ok (next, _) => grammar.undisturbed rest next
        | .error _ => true

/-- What the trials that came to nothing have made of a parser that has gone on: without a trace its
values are unshared and it has just the tokens that it read, with a trace it has more. -/
structure Verdict (quiet : Bool) (gained : List Nat) (symbols : List String) (parser : LiveParser)
    (symbols' : List String) (parser' : LiveParser) : Prop where
  exactly : quiet = true → parser'.forest.Unshared (parser'.row symbols') ∧
    parser'.indices symbols' = parser.indices symbols ++ gained
  longer : quiet = false →
    (parser.indices symbols ++ gained).length < (parser'.indices symbols').length

variable {grammar : Grammar} {level : Nat → Nat} {symbols : List String} {parser : LiveParser}
  {terminal : String} {index : Nat} {forest last : Forest} {stack : List (Frame Branch)}

namespace Verdict

variable {quiet quiet' : Bool} {gained gained' : List Nat} {level' level'' : Nat → Nat}
  {symbols' symbols'' : List String} {parser' parser'' : LiveParser}

theorem of_exact (exactly : Exact gained symbols parser symbols' parser')
    (unshared : parser.forest.Unshared (parser.row symbols)) :
    Verdict true gained symbols parser symbols' parser' :=
  ⟨fun _ => exactly unshared, by simp⟩

theorem trans (first : Verdict quiet gained symbols parser symbols' parser')
    (passage : grammar.Passage gained' level' symbols' parser' level'' symbols'' parser'')
    (second : quiet = true → Verdict quiet' gained' symbols' parser' symbols'' parser'') :
    Verdict (quiet && quiet') (gained ++ gained') symbols parser symbols'' parser'' := by
  cases quiet with
  | false =>
      refine ⟨by simp, ?_⟩
      intro _
      have shorter := first.longer rfl
      have kept := passage.indices.length_le
      simp only [List.length_append] at *
      omega
  | true =>
      obtain ⟨-, same⟩ := first.exactly rfl
      have later := second rfl
      rw [Bool.true_and]
      refine ⟨?_, ?_⟩
      · intro quiet
        obtain ⟨unshared, same'⟩ := later.exactly quiet
        exact ⟨unshared, by rw [same', same, List.append_assoc]⟩
      · intro loud
        have longer := later.longer loud
        rw [same, List.append_assoc] at longer
        exact longer

end Verdict

theorem holds_of_extends {grown : Forest} {row : List (String × Branch)}
    (extended : forest.Extends grown) (holds : forest.Holds row) : grown.Holds row := by
  intro value ending empty
  have kept := extended.indices_sublist value.2
  rw [empty] at kept
  exact holds value ending (List.sublist_nil.1 kept)

theorem holds_of_top {below : List (String × Branch)} {symbol : String}
    {row : List (String × Branch)} (top : row = below ++ [(symbol, .leaf (.token index))]) :
    forest.Holds row := by
  intro value ending
  rw [top, List.getLast?_concat] at ending
  obtain rfl := Option.some.inj ending
  simp [Leaf.index?]

theorem calmAt_of_refused {names : List String}
    (fed : grammar.feed terminal (.token index) parser = .ok (.refused forest stack))
    (tries : grammar.Tries stack names) :
    grammar.calmAt terminal index parser = grammar.calm terminal stack names := by
  obtain ⟨acceptable, listed, rfl⟩ := tries
  rw [calmAt, fed]
  simp only [listed]

theorem Inserts.trace? (sound : grammar.Sound) {name : String} {next : LiveParser}
    (inserts : grammar.Inserts terminal index name ⟨forest, stack⟩ next)
    (linked : grammar.automaton.Linked symbols stack) :
    grammar.trace? terminal name stack = none := by
  cases inserts with
  | mk fed _ fedAgain _ => exact trace?_of_shifted sound linked fed fedAgain

section Sound

variable (sound : grammar.Sound) (inner : terminal ≠ endMarker)

include sound inner

theorem Discards.verdict {tried later : List String}
    (discards : grammar.Discards terminal index stack tried forest last)
    (standing : grammar.Standing level symbols ⟨forest, stack⟩)
    (unshared : forest.Unshared (Automaton.row symbols stack))
    (holds : forest.Holds (Automaton.row symbols stack))
    (rest : grammar.calm terminal stack later = true) :
    Verdict (grammar.calm terminal stack (tried ++ later)) [] symbols ⟨forest, stack⟩ symbols
      ⟨last, stack⟩ := by
  induction discards generalizing level with
  | nil => exact ⟨fun _ => ⟨unshared, (List.append_nil _).symm⟩, by simp [rest]⟩
  | @cons name names forest middle left last trial stuck fed conjures fedAgain refuses more ih =>
      obtain ⟨trace, answer, untraced, traced⟩ :=
        exists_trace sound standing fed fedAgain unshared holds
      obtain ⟨_, first⟩ := passage_of_trial sound inner standing conjures refuses
      have same : grammar.calm terminal stack (name :: names ++ later) =
          (!trace && grammar.calm terminal stack (names ++ later)) := by
        rw [List.cons_append, calm, answer]
      rw [same]
      cases trace with
      | true =>
          obtain ⟨_, further⟩ := more.passage sound inner first.standing
          refine ⟨by simp, ?_⟩
          intro _
          have shorter := further.indices.length_le
          rw [List.append_nil] at shorter ⊢
          exact Nat.lt_of_lt_of_le (traced rfl) shorter
      | false =>
          obtain ⟨apart, indices⟩ := untraced rfl
          have verdict := ih first.standing apart (holds_of_extends first.growth.extended holds)
          have start : (⟨left, stack⟩ : LiveParser).indices symbols =
              (⟨forest, stack⟩ : LiveParser).indices symbols := indices
          rw [Bool.not_false, Bool.true_and]
          exact ⟨start ▸ verdict.exactly, start ▸ verdict.longer⟩

theorem Advance.verdict {next : LiveParser} {repair : Option Repair}
    (advance : grammar.Advance terminal index parser next repair)
    (standing : grammar.Standing level symbols parser)
    (unshared : parser.forest.Unshared (parser.row symbols))
    (holds : parser.forest.Holds (parser.row symbols)) :
    ∃ level' symbols',
      grammar.Passage (gainedBy index repair) level symbols parser level' symbols' next ∧
      next.forest.Holds (next.row symbols') ∧
      Verdict (grammar.calmAt terminal index parser) (gainedBy index repair) symbols parser symbols'
        next := by
  cases advance with
  | taken fed reads =>
      obtain ⟨level', symbols', passage, exactly, below, top⟩ := standing.shifted sound reads
      have quiet : grammar.calmAt terminal index parser = true := by
        rw [calmAt, fed]
      refine ⟨level', _, passage, holds_of_top top, ?_⟩
      rw [quiet]
      exact .of_exact exactly unshared
  | @inserted middle left stack tried later name next fed reads tries discards inserts =>
      obtain ⟨_, symbols', first, exactly, kept⟩ := standing.refused sound inner reads
      obtain ⟨apart, -⟩ := exactly unshared
      obtain ⟨_, second⟩ := discards.passage sound inner first.standing
      obtain ⟨level', symbols'', third, exactly', below, top⟩ :=
        inserts.passage sound second.standing
      have rest : grammar.calm terminal stack (name :: later) = true := by
        rw [calm, inserts.trace? sound first.standing.linked]
      have verdict := discards.verdict sound inner first.standing apart (kept holds) rest
      refine ⟨level', symbols'', (first.trans second).trans third, holds_of_top top, ?_⟩
      rw [calmAt_of_refused fed tries]
      have whole := (Verdict.of_exact exactly unshared).trans second fun _ => verdict
      have taken : (true && grammar.calm terminal stack (tried ++ name :: later)) = true →
          Verdict true [index] symbols' ⟨left, stack⟩ symbols'' next := by
        intro quiet
        exact .of_exact exactly' (verdict.exactly quiet).1
      simpa [gainedBy] using whole.trans third taken
  | @skipped middle left stack tried fed reads tries discards =>
      obtain ⟨_, symbols', first, exactly, kept⟩ := standing.refused sound inner reads
      obtain ⟨apart, -⟩ := exactly unshared
      obtain ⟨level', second⟩ := discards.passage sound inner first.standing
      have rest : grammar.calm terminal stack [] = true := rfl
      have verdict := discards.verdict sound inner first.standing apart (kept holds) rest
      refine ⟨level', symbols', first.trans second,
        holds_of_extends second.growth.extended (kept holds), ?_⟩
      rw [calmAt_of_refused fed tries]
      have whole := (Verdict.of_exact exactly unshared).trans second fun _ => verdict
      simpa [gainedBy] using whole

end Sound

theorem Advances.verdict (sound : grammar.Sound) {placed : List (Token × Nat)} {last : LiveParser}
    {repairs : List Repair} (advances : grammar.Advances placed parser last repairs)
    (standing : grammar.Standing level symbols parser)
    (unshared : parser.forest.Unshared (parser.row symbols))
    (holds : parser.forest.Holds (parser.row symbols)) :
    ∃ level' symbols' gained, grammar.Passage gained level symbols parser level' symbols' last ∧
      gained.Sublist (placed.map (·.2)) ∧
      (Repair.skippedIndices repairs ++ gained).Perm (placed.map (·.2)) ∧
      Verdict (grammar.undisturbed placed parser) gained symbols parser symbols' last := by
  induction advances generalizing level symbols with
  | nil =>
      refine ⟨level, symbols, [], .refl standing, List.Sublist.slnil, List.Perm.nil, ?_⟩
      exact ⟨fun _ => ⟨unshared, (List.append_nil _).symm⟩, by simp [undisturbed]⟩
  | @cons token index placed parser middle last repair repairs stepped advance rest ih =>
      obtain ⟨_, symbols₁, first, holds₁, verdict₁⟩ := advance.verdict sound
        (terminalOf_ne_endMarker sound token) standing unshared holds
      have same : grammar.undisturbed ((token, index) :: placed) parser =
          (grammar.calmAt (grammar.terminalOf token) index parser &&
            grammar.undisturbed placed middle) := by
        rw [undisturbed, stepped]
      rw [same]
      cases quiet : grammar.calmAt (grammar.terminalOf token) index parser with
      | true =>
          rw [quiet] at verdict₁
          obtain ⟨level', symbols', _, second, sublist, perm, verdict₂⟩ :=
            ih first.standing (verdict₁.exactly rfl).1 holds₁
          obtain ⟨sublist, perm⟩ := advance.gained sublist perm
          exact ⟨level', symbols', _, first.trans second, sublist, perm,
            verdict₁.trans second fun _ => verdict₂⟩
      | false =>
          -- the tokens stay doubled, whatever follows
          rw [quiet] at verdict₁
          obtain ⟨level', symbols', _, second, sublist, perm⟩ := rest.passage sound first.standing
          obtain ⟨sublist, perm⟩ := advance.gained sublist perm
          exact ⟨level', symbols', _, first.trans second, sublist, perm,
            verdict₁.trans second (by simp)⟩

/-- The tree at the end has the tokens that were read, each once, just when no trial has left a
trace. -/
theorem Verdict.indices_iff {quiet : Bool} {gained : List Nat} {symbols' : List String}
    {last : LiveParser} {tree : SyntaxTree}
    (verdict : Verdict quiet gained [] .initial symbols' last)
    (finishes : Finishes symbols' last tree) : tree.indices = gained ↔ quiet = true := by
  constructor
  · intro same
    by_contra loud
    have longer := verdict.longer (Bool.eq_false_iff.2 loud)
    have kept := finishes.indices.length_le
    rw [same] at kept
    exact Nat.lt_irrefl _ (Nat.lt_of_lt_of_le longer kept)
  · intro quiet
    obtain ⟨unshared, same⟩ := verdict.exactly quiet
    rw [finishes.unshared unshared, same]
    rfl

end Typeahead.Grammar
