import Typeahead.Proofs.Parsing.Standing

namespace Typeahead.Grammar

/-!
How the parser goes on over a token: it takes the token, it takes it after a terminal made up in
front of it, or it passes it over.  The trials in between are discarded, but the forest keeps what
they have added.
-/

variable {grammar : Grammar} {level : Nat → Nat} {symbols : List String} {parser : LiveParser}
  {terminal : String} {leaf : Leaf} {index : Nat} {outcome : Outcome Forest Branch}
  {forest last : Forest} {stack : List (Frame Branch)}

theorem lift_ok_bind {α β : Type} (a : α) (next : α → Except Fault β) :
    ((liftM (Except.ok a : Except AutomatonFault α) : Except Fault α) >>= next) = next a := rfl

theorem ok_bind {α β : Type} (a : α) (next : α → Except Fault β) :
    ((Except.ok a : Except Fault α) >>= next) = next a := rfl

theorem Reads.cases_of_ne (reads : grammar.Reads terminal leaf parser outcome)
    (inner : terminal ≠ endMarker) :
    (∃ forest stack, outcome = .shifted forest stack) ∨
      ∃ forest stack, outcome = .refused forest stack := by
  cases reads with
  | shifted => exact .inl ⟨_, _, rfl⟩
  | accepted _ _ ended => exact absurd ended inner
  | refused => exact .inr ⟨_, _, rfl⟩

theorem terminalOf_ne_endMarker (sound : grammar.Sound) (token : Token) :
    grammar.terminalOf token ≠ endMarker := by
  unfold terminalOf Vocabulary.symbolicName?
  split
  · cases found : grammar.vocabulary.names[(token.type - 1).toNat]? with
    | none => decide
    | some name =>
        cases name with
        | none => decide
        | some name =>
            intro same
            simp only [Option.join_some, Option.getD_some] at same
            subst same
            exact sound.names (List.mem_of_getElem? found)
  · decide

/-- Trials that make up the terminals `names` in front of a token, none of which lets the parser
take it. -/
inductive Discards (grammar : Grammar) (terminal : String) (index : Nat)
    (stack : List (Frame Branch)) : (names : List String) → Forest → Forest → Prop where
  | nil {forest : Forest} : Discards grammar terminal index stack [] forest forest
  | cons {name : String} {names : List String} {forest middle left last : Forest}
      {trial stuck : List (Frame Branch)}
      (fed : grammar.feed name (.conjured name index) ⟨forest, stack⟩ = .ok (.shifted middle trial))
      (conjures : grammar.Reads name (.conjured name index) ⟨forest, stack⟩ (.shifted middle trial))
      (fedAgain : grammar.feed terminal (.token index) ⟨middle, trial⟩ = .ok (.refused left stuck))
      (refuses : grammar.Reads terminal (.token index) ⟨middle, trial⟩ (.refused left stuck))
      (rest : Discards grammar terminal index stack names left last) :
      Discards grammar terminal index stack (name :: names) forest last

/-- A terminal made up in front of a token lets the parser take it. -/
inductive Inserts (grammar : Grammar) (terminal : String) (index : Nat) (name : String)
    (parser : LiveParser) : LiveParser → Prop where
  | mk {middle last : Forest} {trial stack : List (Frame Branch)}
      (fed : grammar.feed name (.conjured name index) parser = .ok (.shifted middle trial))
      (conjures : grammar.Reads name (.conjured name index) parser (.shifted middle trial))
      (fedAgain : grammar.feed terminal (.token index) ⟨middle, trial⟩ = .ok (.shifted last stack))
      (follows : grammar.Reads terminal (.token index) ⟨middle, trial⟩ (.shifted last stack)) :
      Inserts grammar terminal index name parser ⟨last, stack⟩

/-- The terminals that are tried in front of a token that is refused, in order. -/
def Tries (grammar : Grammar) (stack : List (Frame Branch)) (names : List String) : Prop :=
  ∃ acceptable, grammar.automaton.acceptable stack = .ok acceptable ∧
    names = grammar.repairs.filter acceptable.contains

/-- How the parser goes on over a token. -/
inductive Advance (grammar : Grammar) (terminal : String) (index : Nat) (parser : LiveParser) :
    LiveParser → Option Repair → Prop where
  | taken {forest : Forest} {stack : List (Frame Branch)}
      (fed : grammar.feed terminal (.token index) parser = .ok (.shifted forest stack))
      (reads : grammar.Reads terminal (.token index) parser (.shifted forest stack)) :
      Advance grammar terminal index parser ⟨forest, stack⟩ none
  | inserted {forest left : Forest} {stack : List (Frame Branch)} {tried later : List String}
      {name : String} {next : LiveParser}
      (fed : grammar.feed terminal (.token index) parser = .ok (.refused forest stack))
      (reads : grammar.Reads terminal (.token index) parser (.refused forest stack))
      (tries : grammar.Tries stack (tried ++ name :: later))
      (discards : grammar.Discards terminal index stack tried forest left)
      (inserts : grammar.Inserts terminal index name ⟨left, stack⟩ next) :
      Advance grammar terminal index parser next (some (.inserted name index))
  | skipped {forest left : Forest} {stack : List (Frame Branch)} {tried : List String}
      (fed : grammar.feed terminal (.token index) parser = .ok (.refused forest stack))
      (reads : grammar.Reads terminal (.token index) parser (.refused forest stack))
      (tries : grammar.Tries stack tried)
      (discards : grammar.Discards terminal index stack tried forest left) :
      Advance grammar terminal index parser ⟨left, stack⟩ (some (.skipped index))

theorem Standing.of_growth {level' : Nat → Nat}
    (standing : grammar.Standing level symbols ⟨forest, stack⟩)
    (growth : Forest.Growth level forest level' last) (leveled : Forest.Leveled level' last) :
    grammar.Standing level' symbols ⟨last, stack⟩ :=
  ⟨standing.linked, leveled, growth.rowFits standing.fits⟩

section Sound

variable (sound : grammar.Sound)

include sound

theorem passage_of_trial (inner : terminal ≠ endMarker) {name : String} {middle left : Forest}
    {trial stuck : List (Frame Branch)} (standing : grammar.Standing level symbols ⟨forest, stack⟩)
    (conjures : grammar.Reads name (.conjured name index) ⟨forest, stack⟩ (.shifted middle trial))
    (refuses : grammar.Reads terminal leaf ⟨middle, trial⟩ (.refused left stuck)) :
    ∃ level', grammar.Passage [] level symbols ⟨forest, stack⟩ level' symbols ⟨left, stack⟩ := by
  obtain ⟨_, _, first, -, -⟩ := standing.shifted sound conjures
  obtain ⟨level', _, second, -⟩ := first.standing.refused sound inner refuses
  have growth := first.growth.trans second.growth
  refine ⟨level', standing.of_growth growth second.standing.leveled, growth, ?_, ?_,
    (first.front.trans second.front).discard growth.extended, by simp⟩
  · rw [List.append_nil]
    exact Forest.sublist_rowIndices growth.extended _
  · intro allowed _ within
    have lists := second.within allowed (by simp) (first.within allowed (by simp [Leaf.index?]) within)
    exact ⟨lists.1, within.2⟩

theorem Discards.passage (inner : terminal ≠ endMarker) {names : List String}
    (discards : grammar.Discards terminal index stack names forest last)
    (standing : grammar.Standing level symbols ⟨forest, stack⟩) :
    ∃ level', grammar.Passage [] level symbols ⟨forest, stack⟩ level' symbols ⟨last, stack⟩ := by
  induction discards generalizing level with
  | nil => exact ⟨level, .refl standing⟩
  | cons _ conjures _ refuses _ ih =>
      obtain ⟨_, first⟩ := passage_of_trial sound inner standing conjures refuses
      obtain ⟨level', rest⟩ := ih first.standing
      exact ⟨level', first.trans rest⟩

theorem Inserts.passage {name : String} {next : LiveParser}
    (inserts : grammar.Inserts terminal index name parser next)
    (standing : grammar.Standing level symbols parser) :
    ∃ level' symbols', grammar.Passage [index] level symbols parser level' symbols' next ∧
      Exact [index] symbols parser symbols' next ∧
      ∃ below, next.row symbols' = below ++ [(terminal, .leaf (.token index))] := by
  cases inserts with
  | mk _ conjures _ follows =>
      obtain ⟨_, _, first, exactly, -⟩ := standing.shifted sound conjures
      obtain ⟨level', _, second, exactly', top⟩ := first.standing.shifted sound follows
      exact ⟨level', _, first.trans second, exactly.trans exactly', top⟩

/-- The tokens that a step reads. -/
def gainedBy (index : Nat) : Option Repair → List Nat
  | some (.skipped _) => []
  | _ => [index]

/-- The parser is sound after every step, and a token that was not passed over is below its
stack. -/
theorem Advance.passage (inner : terminal ≠ endMarker) {next : LiveParser} {repair : Option Repair}
    (advance : grammar.Advance terminal index parser next repair)
    (standing : grammar.Standing level symbols parser) :
    ∃ level' symbols',
      grammar.Passage (gainedBy index repair) level symbols parser level' symbols' next := by
  cases advance with
  | taken _ reads =>
      obtain ⟨level', symbols', passage, -⟩ := standing.shifted sound reads
      exact ⟨level', _, passage⟩
  | inserted _ reads _ discards inserts =>
      obtain ⟨_, _, first, -⟩ := standing.refused sound inner reads
      obtain ⟨_, second⟩ := discards.passage sound inner first.standing
      obtain ⟨level', symbols', third, -⟩ := inserts.passage sound second.standing
      exact ⟨level', symbols', (first.trans second).trans third⟩
  | skipped _ reads _ discards =>
      obtain ⟨_, symbols', first, -⟩ := standing.refused sound inner reads
      obtain ⟨level', second⟩ := discards.passage sound inner first.standing
      exact ⟨level', symbols', first.trans second⟩

/-- The trials are made in order, up to the first that lets the parser take the token. -/
theorem exists_insertBefore {names : List String} (inner : terminal ≠ endMarker) (index : Nat)
    (standing : grammar.Standing level symbols ⟨forest, stack⟩)
    (takes : ∀ name ∈ names, name ≠ endMarker ∧ grammar.automaton.takes stack name = .ok true) :
    ∃ left result, grammar.insertBefore terminal index stack names forest = .ok (left, result) ∧
      ((result = none ∧ grammar.Discards terminal index stack names forest left) ∨
        ∃ tried name later middle last, names = tried ++ name :: later ∧ result = some (name, last) ∧
          grammar.Discards terminal index stack tried forest middle ∧
          grammar.Inserts terminal index name ⟨middle, stack⟩ ⟨left, last⟩) := by
  induction names generalizing forest level with
  | nil => exact ⟨forest, none, rfl, .inl ⟨rfl, .nil⟩⟩
  | cons name names ih =>
      obtain ⟨outer, accepted⟩ := takes name List.mem_cons_self
      obtain ⟨outcome, fed, conjures, taken⟩ := Automaton.exists_feeds_of_takes sound.proper
        standing.linked accepted (Forest.reduce grammar.transparent)
        (.leaf (.conjured name index)) forest
      have fed' : grammar.feed name (.conjured name index) ⟨forest, stack⟩ = .ok outcome := fed
      have reads : grammar.Reads name (.conjured name index) ⟨forest, stack⟩ outcome := conjures
      rcases reads.cases_of_ne outer with ⟨middle, trial, rfl⟩ | ⟨_, _, rfl⟩
      · obtain ⟨_, _, first, -, -⟩ := standing.shifted sound reads
        obtain ⟨second, fedAgain, follows⟩ :=
          exists_reads sound first.standing terminal (.token index)
        rcases follows.cases_of_ne inner with ⟨last, lastStack, rfl⟩ | ⟨left, stuck, rfl⟩
        · refine ⟨last, some (name, lastStack), ?_, .inr ⟨[], name, names, forest, lastStack, rfl,
            rfl, .nil, .mk fed' reads fedAgain follows⟩⟩
          simp only [insertBefore, fed', fedAgain, lift_ok_bind]
          rfl
        · obtain ⟨_, discarded⟩ := passage_of_trial sound inner standing reads follows
          obtain ⟨last, result, rest, cases⟩ := ih discarded.standing
            fun name member => takes name (List.mem_cons_of_mem _ member)
          refine ⟨last, result, ?_, ?_⟩
          · simp only [insertBefore, fed', fedAgain, lift_ok_bind]
            exact rest
          · rcases cases with ⟨rfl, discards⟩ |
              ⟨tried, kept, later, middle', last', rfl, rfl, discards, inserts⟩
            · exact .inl ⟨rfl, .cons fed' reads fedAgain follows discards⟩
            · exact .inr ⟨name :: tried, kept, later, middle', last', rfl, rfl,
                .cons fed' reads fedAgain follows discards, inserts⟩
      · cases taken

theorem exists_advance (inner : terminal ≠ endMarker) (index : Nat)
    (standing : grammar.Standing level symbols parser) :
    ∃ next repair, grammar.step terminal index parser = .ok (next, repair) ∧
      grammar.Advance terminal index parser next repair := by
  obtain ⟨outcome, fed, reads⟩ := exists_reads sound standing terminal (.token index)
  rcases reads.cases_of_ne inner with ⟨forest, stack, rfl⟩ | ⟨forest, stack, rfl⟩
  · refine ⟨⟨forest, stack⟩, none, ?_, .taken fed reads⟩
    simp only [step, fed]
    rfl
  · obtain ⟨_, _, first, -⟩ := standing.refused sound inner reads
    obtain ⟨names, listed, members⟩ :=
      Automaton.exists_acceptable sound.proper first.standing.linked
    have takes : ∀ name ∈ grammar.repairs.filter names.contains,
        name ≠ endMarker ∧ grammar.automaton.takes stack name = .ok true := by
      intro name member
      obtain ⟨repair, acceptable⟩ := List.mem_filter.1 member
      refine ⟨?_, ((members name).1 (List.contains_iff_mem.1 acceptable)).2⟩
      intro same
      exact sound.repairs (same ▸ repair)
    obtain ⟨left, result, inserted, cases⟩ :=
      exists_insertBefore sound inner index first.standing takes
    rcases cases with
      ⟨rfl, discards⟩ | ⟨tried, name, later, middle, last, split, rfl, discards, inserts⟩
    · refine ⟨⟨left, stack⟩, some (.skipped index), ?_, .skipped fed reads ⟨names, listed, rfl⟩ discards⟩
      simp only [step, fed, listed, inserted, lift_ok_bind]
      rfl
    · refine ⟨⟨left, last⟩, some (.inserted name index), ?_,
        .inserted fed reads ⟨names, listed, split.symm⟩ discards inserts⟩
      simp only [step, fed, listed, inserted, lift_ok_bind]
      rfl

end Sound

end Typeahead.Grammar
