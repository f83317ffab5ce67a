import Typeahead.Proofs.Parsing.Agreement

namespace Typeahead.Grammar

/-!
The parser never gets stuck.  Its stack follows the automaton at every point of a parse, so each
reduction uncovers a state that leads on, each terminal is shifted, accepted or refused, and a
terminal that was called acceptable is read, whatever lists the trials before have left behind.
-/

variable {grammar : Grammar} {stream : TokenStream} {read symbols : List String}
  {parser : LiveParser} {stack : List (Frame Branch)}

/-- With any lists and for any terminal, each reduction finds its move and the parser answers. -/
structure Responsive (grammar : Grammar) (stack : List (Frame Branch)) : Prop where
  feeds : ∀ terminal leaf forest,
    ∃ outcome, grammar.feed terminal leaf ⟨forest, stack⟩ = .ok outcome
  moves : ∀ terminal (forest last : Forest) (lastStack : List (Frame Branch)) p,
    Automaton.Runs (Forest.reduce grammar.transparent) terminal grammar.automaton
      forest stack last lastStack →
    grammar.automaton.action? (Automaton.topState lastStack) terminal = some (.reduce p) →
    ∃ production next, grammar.table.productions[p]? = some production ∧
      production.symbols.length ≤ lastStack.length ∧
      grammar.automaton.states.move?
        (Automaton.topState (lastStack.drop production.symbols.length)) production.origin =
          some next

/-- Each of the terminals `names` is read, or accepted if it is the end, and the parser is
responsive before and after. -/
structure Attentive (grammar : Grammar) (stack : List (Frame Branch)) (names : List String) :
    Prop where
  responsive : grammar.Responsive stack
  reads : ∀ name ∈ names, name ≠ endMarker → ∀ leaf forest, ∃ next nextStack,
    grammar.feed name leaf ⟨forest, stack⟩ = .ok (.shifted next nextStack) ∧
      grammar.Responsive nextStack
  ends : endMarker ∈ names → ∀ leaf forest, ∃ next value nextStack,
    grammar.feed endMarker leaf ⟨forest, stack⟩ = .ok (.accepted next value nextStack)

variable (sound : grammar.Sound)

include sound

theorem responsive_of_linked (linked : grammar.automaton.Linked symbols stack) :
    grammar.Responsive stack where
  feeds := by
    intro terminal leaf forest
    obtain ⟨outcome, fed, -⟩ := Automaton.exists_feeds sound.proper linked
      (Forest.reduce grammar.transparent) terminal (.leaf leaf) forest
    exact ⟨outcome, fed⟩
  moves := by
    intro terminal forest last lastStack p run action
    obtain ⟨_, linked'⟩ := run.linked linked
    obtain ⟨-, listed⟩ := Automaton.mem_reductions_of_action? action
    obtain ⟨production, found, contains, -⟩ := Automaton.complete_of_mem_reductions listed
    obtain ⟨enough, -, next, move⟩ := linked'.ended found contains
    exact ⟨production, next, found, enough, move⟩

theorem exists_attentive (linked : grammar.automaton.Linked symbols stack) :
    ∃ names, grammar.automaton.acceptable stack = .ok names ∧ grammar.Attentive stack names := by
  obtain ⟨names, listed, members⟩ := Automaton.exists_acceptable sound.proper linked
  have taken : ∀ name ∈ names, ∀ leaf forest, ∃ outcome,
      grammar.feed name leaf ⟨forest, stack⟩ = .ok outcome ∧
        grammar.Reads name leaf ⟨forest, stack⟩ outcome ∧ outcome.taken = true := by
    intro name member leaf forest
    exact Automaton.exists_feeds_of_takes sound.proper linked ((members name).1 member).2
      (Forest.reduce grammar.transparent) (.leaf leaf) forest
  refine ⟨names, listed, responsive_of_linked sound linked, ?_, ?_⟩
  · intro name member inner leaf forest
    obtain ⟨outcome, fed, reads, kept⟩ := taken name member leaf forest
    cases reads with
    | shifted run move =>
        obtain ⟨_, below⟩ := run.linked linked
        exact ⟨_, _, fed, responsive_of_linked sound (.cons move below)⟩
    | accepted _ _ ended _ => exact absurd ended inner
    | refused => cases kept
  · intro member leaf forest
    obtain ⟨outcome, fed, reads, kept⟩ := taken endMarker member leaf forest
    cases reads with
    | shifted _ move =>
        rw [move?_endMarker sound] at move
        cases move
    | accepted => exact ⟨_, _, _, fed⟩
    | refused => cases kept

theorem Visits.exists_attentive (legible : grammar.Legible)
    (visits : grammar.Visits stream read parser) :
    ∃ names, grammar.automaton.acceptable parser.stack = .ok names ∧
      grammar.Attentive parser.stack names := by
  obtain ⟨_, linked, -⟩ := (visits.agrees sound legible).consumed
  exact Grammar.exists_attentive sound linked

end Typeahead.Grammar
