import Typeahead.Grammar.Parsing
import Typeahead.Proofs.Automaton.Row
import Typeahead.Proofs.Forest.Row

namespace Typeahead

/-!
The parser between two terminals: its stack follows the automaton and its values fit the forest.
Whatever it reads, it loses no token from below its stack.
-/

/-- What the parser relies on in a grammar. -/
structure Grammar.Sound (grammar : Grammar) : Prop where
  proper : grammar.table.Proper
  /-- Inlined rules are never empty and never give way to a child. -/
  inlinable : ∀ production ∈ grammar.table.productions, isInlined production.origin = true →
    production.symbols ≠ [] ∧ grammar.transparent.contains production.origin = false
  rooted : grammar.transparent.contains grammar.table.start = false
  /-- The end of the input is no symbol of the grammar. -/
  unread : ∀ production ∈ grammar.table.productions, endMarker ∉ production.symbols
  start_ne : grammar.table.start ≠ endMarker
  repairs : endMarker ∉ grammar.repairs
  names : some endMarker ∉ grammar.vocabulary.names

namespace LiveParser

/-- The values of the stack with their symbols, the lowest first. -/
def row (parser : LiveParser) (symbols : List String) : List (String × Branch) :=
  Automaton.row symbols parser.stack

/-- The stream positions of the tokens below the stack. -/
def indices (parser : LiveParser) (symbols : List String) : List Nat :=
  parser.forest.rowIndices (parser.row symbols)

end LiveParser

namespace Grammar

variable {grammar : Grammar} {level : Nat → Nat} {symbols : List String} {parser : LiveParser}
  {terminal : String} {leaf : Leaf}

/-- The stack and the forest of a parser at work. -/
structure Standing (grammar : Grammar) (level : Nat → Nat) (symbols : List String)
    (parser : LiveParser) : Prop where
  linked : grammar.automaton.Linked symbols parser.stack
  leveled : Forest.Leveled level parser.forest
  fits : Forest.RowFits level parser.forest 0 (parser.row symbols)

theorem standing_initial (grammar : Grammar) : grammar.Standing (fun _ => 0) [] .initial where
  linked := .nil
  leveled := by
    intro list rule child member
    have inside := Forest.lt_size_of_mem member
    exact absurd inside (Nat.not_lt_zero list)
  fits := trivial

theorem within_initial (allowed : Nat → Prop) :
    Forest.Within allowed LiveParser.initial.forest (LiveParser.initial.row []) := by
  constructor
  · intro list index member
    exact absurd (Forest.lt_size_of_mem member) (Nat.not_lt_zero list)
  · intro symbol index member
    cases member

/-- A parser has gone on and has read the tokens at the positions `gained` on the way. -/
structure Passage (grammar : Grammar) (gained : List Nat) (level : Nat → Nat)
    (symbols : List String) (parser : LiveParser) (level' : Nat → Nat) (symbols' : List String)
    (parser' : LiveParser) : Prop where
  standing : grammar.Standing level' symbols' parser'
  growth : Forest.Growth level parser.forest level' parser'.forest
  indices : (parser.indices symbols ++ gained).Sublist (parser'.indices symbols')
  within : ∀ allowed : Nat → Prop, (∀ index ∈ gained, allowed index) →
    Forest.Within allowed parser.forest (parser.row symbols) →
    Forest.Within allowed parser'.forest (parser'.row symbols')
  front : Forest.KeepsFront gained parser.forest (parser.row symbols) parser'.forest
    (parser'.row symbols')
  /-- The first token that was read has come in front. -/
  begins : ∀ index rest, gained = index :: rest → index ∉ rest →
    Forest.Within (fun _ => False) parser.forest (parser.row symbols) →
    Forest.InFront index parser'.forest (parser'.row symbols')

/-- Where no two values shared a list none do now, and nothing but the tokens read has been
added. -/
def Exact (gained : List Nat) (symbols : List String) (parser : LiveParser)
    (symbols' : List String) (parser' : LiveParser) : Prop :=
  parser.forest.Unshared (parser.row symbols) →
    parser'.forest.Unshared (parser'.row symbols') ∧
      parser'.indices symbols' = parser.indices symbols ++ gained

namespace Passage

variable {gained gained' : List Nat} {level' level'' : Nat → Nat}
  {symbols' symbols'' : List String} {parser' parser'' : LiveParser}

theorem refl (standing : grammar.Standing level symbols parser) :
    grammar.Passage [] level symbols parser level symbols parser where
  standing := standing
  growth := .refl level parser.forest
  indices := by rw [List.append_nil]
  within := fun _ _ within => within
  front := .refl _ _
  begins := by simp

theorem trans (first : grammar.Passage gained level symbols parser level' symbols' parser')
    (second : grammar.Passage gained' level' symbols' parser' level'' symbols'' parser'') :
    grammar.Passage (gained ++ gained') level symbols parser level'' symbols'' parser'' where
  standing := second.standing
  growth := first.growth.trans second.growth
  indices := by
    rw [← List.append_assoc]
    exact (first.indices.append_right gained').trans second.indices
  within := by
    intro allowed fine within
    apply second.within allowed (fun index member => fine index (List.mem_append_right _ member))
    exact first.within allowed (fun index member => fine index (List.mem_append_left _ member)) within
  front := first.front.trans second.front
  begins := by
    intro index rest split fresh none
    cases gained with
    | nil => exact second.begins index rest split fresh (first.within _ (by simp) none)
    | cons head tail =>
        obtain ⟨rfl, same⟩ := List.cons.inj split
        have apart : head ∉ tail ++ gained' := fun member => fresh (same ▸ member)
        rw [List.mem_append, not_or] at apart
        exact second.front.inFront apart.2 (first.begins head tail rfl apart.1 none)

end Passage

theorem Exact.trans {gained gained' : List Nat} {symbols' symbols'' : List String}
    {parser' parser'' : LiveParser} (first : Exact gained symbols parser symbols' parser')
    (second : Exact gained' symbols' parser' symbols'' parser'') :
    Exact (gained ++ gained') symbols parser symbols'' parser'' := by
  intro unshared
  obtain ⟨middle, same⟩ := first unshared
  obtain ⟨last, same'⟩ := second middle
  exact ⟨last, by rw [same', same, List.append_assoc]⟩

/-- What becomes of a terminal whose value is `leaf`. -/
abbrev Reads (grammar : Grammar) (terminal : String) (leaf : Leaf) (parser : LiveParser)
    (outcome : Outcome Forest Branch) : Prop :=
  Automaton.Feeds (Forest.reduce grammar.transparent) terminal grammar.automaton (.leaf leaf)
    parser.forest parser.stack outcome

theorem exists_reads (sound : grammar.Sound) (standing : grammar.Standing level symbols parser)
    (terminal : String) (leaf : Leaf) :
    ∃ outcome, grammar.feed terminal leaf parser = .ok outcome ∧
      grammar.Reads terminal leaf parser outcome :=
  Automaton.exists_feeds sound.proper standing.linked _ terminal _ _

theorem passage_of_carried {level' : Nat → Nat} {symbols' : List String} {forest : Forest}
    {stack : List (Frame Branch)} (linked : grammar.automaton.Linked symbols' stack)
    (carried : Forest.Carried level parser.forest (parser.row symbols) level' forest
      (Automaton.row symbols' stack)) :
    grammar.Passage [] level symbols parser level' symbols' ⟨forest, stack⟩ ∧
      Exact [] symbols parser symbols' ⟨forest, stack⟩ := by
  refine ⟨⟨⟨linked, carried.leveled, carried.fits⟩, carried.growth, ?_, ?_, carried.front, by simp⟩,
    ?_⟩
  · rw [List.append_nil]
    exact carried.indices
  · intro allowed _
    exact carried.within allowed
  · intro unshared
    obtain ⟨apart, same⟩ := carried.unshared unshared
    exact ⟨apart, same.trans (List.append_nil _).symm⟩

section Run

variable (sound : grammar.Sound) (standing : grammar.Standing level symbols parser)

include sound standing

theorem Standing.run {forest : Forest} {stack : List (Frame Branch)}
    (run : Automaton.Runs (Forest.reduce grammar.transparent) terminal grammar.automaton
      parser.forest parser.stack forest stack) :
    ∃ level' symbols',
      grammar.Passage [] level symbols parser level' symbols' ⟨forest, stack⟩ ∧
        Exact [] symbols parser symbols' ⟨forest, stack⟩ := by
  have kept := run.row_induction standing.linked
    (P := fun forest row => ∃ level',
      Forest.Carried level parser.forest (parser.row symbols) level' forest row)
    ⟨level, .refl standing.leveled standing.fits⟩ ?_
  · obtain ⟨symbols', linked, level', carried⟩ := kept
    exact ⟨level', symbols', passage_of_carried linked carried⟩
  · intro forest below production branches member sized holds
    obtain ⟨level', carried⟩ := holds
    exact ⟨_, carried.trans (Forest.carried_reduce carried.leveled carried.fits sized
      (sound.inlinable production member))⟩

theorem Standing.shifted {forest : Forest} {stack : List (Frame Branch)}
    (reads : grammar.Reads terminal leaf parser (.shifted forest stack)) :
    ∃ level' symbols',
      grammar.Passage leaf.index?.toList level symbols parser level' (terminal :: symbols')
        ⟨forest, stack⟩ ∧
      Exact leaf.index?.toList symbols parser (terminal :: symbols') ⟨forest, stack⟩ ∧
      ∃ below, (⟨forest, stack⟩ : LiveParser).row (terminal :: symbols') =
        below ++ [(terminal, .leaf leaf)] := by
  cases reads with
  | @shifted _ lastStack next run move =>
      obtain ⟨level', symbols', passage, exact_⟩ := standing.run sound run
      have top : (⟨forest, ⟨next, .leaf leaf⟩ :: lastStack⟩ : LiveParser).row (terminal :: symbols') =
          (⟨forest, lastStack⟩ : LiveParser).row symbols' ++ [(terminal, .leaf leaf)] :=
        Automaton.row_cons passage.standing.linked.length_eq
      have gained : (⟨forest, ⟨next, .leaf leaf⟩ :: lastStack⟩ : LiveParser).indices
          (terminal :: symbols') =
            (⟨forest, lastStack⟩ : LiveParser).indices symbols' ++ leaf.index?.toList := by
        rw [LiveParser.indices, top, Forest.rowIndices_leaf]
        rfl
      refine ⟨level', symbols', ⟨⟨.cons move passage.standing.linked, passage.standing.leveled, ?_⟩,
        passage.growth, ?_, ?_, ?_, ?_⟩, ?_, _, top⟩
      · rw [top]
        exact Forest.rowFits_leaf _ _ passage.standing.fits
      · rw [gained]
        have kept := passage.indices
        rw [List.append_nil] at kept
        exact kept.append_right _
      · intro allowed fine within
        rw [top]
        apply Forest.within_leaf _ _ (passage.within allowed (by simp) within)
        intro index same
        exact fine index (by simp [same, Leaf.index?])
      · rw [top]
        intro old first later fresh leading led
        obtain ⟨later', fine, leading, led⟩ := passage.front old first later (by simp) leading led
        exact ⟨later', fine, leading, led.concat_leaf terminal (by simpa using fresh)⟩
      · intro index rest same _ none
        rw [top]
        cases leaf with
        | conjured name before => cases same
        | token other =>
            obtain ⟨rfl, -⟩ := List.cons.inj same
            exact (passage.within _ (by simp) none).inFront passage.standing.leveled
              passage.standing.fits terminal other
      · intro unshared
        obtain ⟨apart, same⟩ := exact_ unshared
        rw [List.append_nil] at same
        refine ⟨?_, by rw [gained, same]⟩
        rw [top]
        exact Forest.unshared_leaf _ _ apart

/-- Where a terminal is refused, the last value still has the last token that was read. -/
theorem Standing.refused (inner : terminal ≠ endMarker) {forest : Forest}
    {stack : List (Frame Branch)}
    (reads : grammar.Reads terminal leaf parser (.refused forest stack)) :
    ∃ level' symbols',
      grammar.Passage [] level symbols parser level' symbols' ⟨forest, stack⟩ ∧
        Exact [] symbols parser symbols' ⟨forest, stack⟩ ∧
        (parser.forest.Holds (parser.row symbols) →
          forest.Holds ((⟨forest, stack⟩ : LiveParser).row symbols')) := by
  cases reads with
  | refused run stuck =>
      have kept := run.row_induction_of_unread sound.proper inner standing.linked
        (P := fun forest row => ∃ level',
          Forest.Carried level parser.forest (parser.row symbols) level' forest row ∧
            (parser.forest.Holds (parser.row symbols) → forest.Holds row))
        ⟨level, .refl standing.leveled standing.fits, id⟩ ?_ (Automaton.unread_of_stuck stuck)
      · obtain ⟨symbols', linked, level', carried, holds⟩ := kept
        obtain ⟨passage, exactly⟩ := passage_of_carried linked carried
        exact ⟨level', symbols', passage, exactly, holds⟩
      · intro forest below production branches member nonempty sized kept
        obtain ⟨level', carried, holds⟩ := kept
        refine ⟨_, carried.trans (Forest.carried_reduce carried.leveled carried.fits sized
          (sound.inlinable production member)), ?_⟩
        intro first
        exact Forest.holds_reduce carried.leveled carried.fits nonempty sized (holds first)

end Run

end Grammar

end Typeahead
