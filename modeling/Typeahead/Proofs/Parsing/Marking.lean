import Typeahead.Proofs.Parsing.Advance

namespace Typeahead

/-!
Marks on the parser's values.  A marking says what a reduction makes of the marks of the values that
it takes, and of a flag.  The parser does the same with marks as without them, so what it does to
its lists can be told from a run on the marks alone.
-/

/-- What becomes of the flag, and the mark of the new value. -/
abbrev Marking := Bool → Production → List Bool → Bool × Bool

namespace Grammar

/-- The flag after the trial to make up the terminal `name` in front of a token.  There is no answer
for a trial that is taken over. -/
def trial? (grammar : Grammar) (marking : Marking) (terminal name : String)
    (marks : List (Frame Bool)) : Option Bool :=
  match grammar.automaton.feed marking name false false marks with
  | .ok (.shifted flag trial) =>
      match grammar.automaton.feed marking terminal false flag trial with
      | .ok (.refused flag _) => some flag
      | _ => none
  | _ => none

/-- A reduction of values together with their marks. -/
def pairReduce (marking : Marking) (transparent : List String) (store : Forest × Bool)
    (production : Production) (values : List (Branch × Bool)) :
    (Forest × Bool) × (Branch × Bool) :=
  let reduced := store.1.reduce transparent production (values.map (·.1))
  let marked := marking store.2 production (values.map (·.2))
  ((reduced.1, marked.1), (reduced.2, marked.2))

def bare (value : String × (Branch × Bool)) : String × Branch := (value.1, value.2.1)

theorem map_bare_zip (symbols : List String) (values : List (Branch × Bool)) :
    (symbols.zip values).map bare = symbols.zip (values.map (·.1)) := by
  rw [List.zip_map_right]
  rfl

theorem row_map_fst (symbols : List String) (stack : List (Frame (Branch × Bool))) :
    Automaton.row symbols (stack.map (Frame.map (·.1))) =
      (Automaton.row symbols stack).map bare :=
  Automaton.row_map _ symbols stack

/-- The stack with a mark on each value. -/
def withMarks (mark : Branch → Bool) (stack : List (Frame Branch)) :
    List (Frame (Branch × Bool)) :=
  stack.map (Frame.map fun value => (value, mark value))

theorem map_fst_withMarks (mark : Branch → Bool) (stack : List (Frame Branch)) :
    (withMarks mark stack).map (Frame.map (·.1)) = stack := by
  simp [withMarks, Frame.map, Function.comp_def]

theorem map_snd_withMarks (mark : Branch → Bool) (stack : List (Frame Branch)) :
    (withMarks mark stack).map (Frame.map (·.2)) = stack.map (Frame.map mark) := by
  simp [withMarks, Frame.map, Function.comp_def]

theorem linked_withMarks {automaton : Automaton} {symbols : List String}
    {stack : List (Frame Branch)} (linked : automaton.Linked symbols stack)
    (mark : Branch → Bool) : automaton.Linked symbols (withMarks mark stack) :=
  linked.map _

variable {grammar : Grammar} {terminal name : String} {index : Nat} {symbols : List String}
  {forest middle left : Forest} {stack : List (Frame (Branch × Bool))}
  {trial : List (Frame Branch)} (sound : grammar.Sound)
  (linked : grammar.automaton.Linked symbols stack) (marking : Marking)

include sound linked

/-- The parser does the same with the marks as without them. -/
theorem exists_marked {leaf : Leaf} {outcome : Outcome Forest Branch} (flag : Bool)
    (fed : grammar.feed terminal leaf ⟨forest, stack.map (Frame.map (·.1))⟩ = .ok outcome) :
    ∃ paired, Automaton.Feeds (pairReduce marking grammar.transparent) terminal grammar.automaton
        (.leaf leaf, false) (forest, flag) stack paired ∧
      paired.map (·.1) (·.1) = outcome ∧
      grammar.automaton.feed marking terminal false flag (stack.map (Frame.map (·.2))) =
        .ok (paired.map (·.2) (·.2)) := by
  obtain ⟨paired, fedPair, feeds⟩ := Automaton.exists_feeds sound.proper linked
    (pairReduce marking grammar.transparent) terminal (.leaf leaf, false) (forest, flag)
  have values : grammar.automaton.feed (Forest.reduce grammar.transparent) terminal (.leaf leaf)
      forest (stack.map (Frame.map (·.1))) =
        (grammar.automaton.feed (pairReduce marking grammar.transparent) terminal
          (.leaf leaf, false) (forest, flag) stack).map (Outcome.map (·.1) (·.1)) :=
    Automaton.feed_map Prod.fst Prod.fst (fun _ _ _ => rfl) (.leaf leaf, false) (forest, flag) stack
  have marks : grammar.automaton.feed marking terminal false flag (stack.map (Frame.map (·.2))) =
      (grammar.automaton.feed (pairReduce marking grammar.transparent) terminal
        (.leaf leaf, false) (forest, flag) stack).map (Outcome.map (·.2) (·.2)) :=
    Automaton.feed_map Prod.snd Prod.snd (fun _ _ _ => rfl) (.leaf leaf, false) (forest, flag) stack
  rw [fedPair] at values marks
  refine ⟨paired, feeds, ?_, marks⟩
  have same : (.ok outcome : Except AutomatonFault (Outcome Forest Branch)) =
      .ok (paired.map (·.1) (·.1)) := fed.symm.trans values
  exact (Except.ok.inj same).symm

theorem exists_trial
    (fed : grammar.feed name (.conjured name index) ⟨forest, stack.map (Frame.map (·.1))⟩ =
      .ok (.shifted middle trial)) {outcome : Outcome Forest Branch}
    (fedAgain : grammar.feed terminal (.token index) ⟨middle, trial⟩ = .ok outcome) :
    ∃ flag marked paired,
      Automaton.Feeds (pairReduce marking grammar.transparent) name grammar.automaton
        (.leaf (.conjured name index), false) (forest, false) stack
        (.shifted (middle, flag) marked) ∧
      Automaton.Feeds (pairReduce marking grammar.transparent) terminal grammar.automaton
        (.leaf (.token index), false) (middle, flag) marked paired ∧
      paired.map (·.1) (·.1) = outcome ∧
      grammar.trial? marking terminal name (stack.map (Frame.map (·.2))) =
        match paired with
        | .refused store _ => some store.2
        | _ => none := by
  obtain ⟨first, feeds, same, marks⟩ := exists_marked sound linked marking false fed
  cases first with
  | accepted store value stack => cases same
  | refused store stack => cases same
  | shifted store marked =>
      rcases store with ⟨forest', flag⟩
      obtain ⟨rfl, rfl⟩ : forest' = middle ∧ marked.map (Frame.map (·.1)) = trial := by
        simpa [Outcome.map] using same
      have linkedTrial : ∃ symbols', grammar.automaton.Linked symbols' marked := by
        cases feeds with
        | shifted run move =>
            obtain ⟨symbols', below⟩ := run.linked linked
            exact ⟨_, .cons move below⟩
      obtain ⟨_, linkedTrial⟩ := linkedTrial
      obtain ⟨paired, feedsAgain, sameAgain, marksAgain⟩ :=
        exists_marked sound linkedTrial marking flag fedAgain
      refine ⟨flag, marked, paired, feeds, feedsAgain, sameAgain, ?_⟩
      simp only [trial?, marks, Outcome.map, marksAgain]
      cases paired <;> rfl

/-- Every reduction of a trial keeps what holds of its first row and of one reduction. -/
theorem trial_induction {P : Forest × Bool → List (String × (Branch × Bool)) → Prop}
    (fed : grammar.feed name (.conjured name index) ⟨forest, stack.map (Frame.map (·.1))⟩ =
      .ok (.shifted middle trial)) {stuck : List (Frame Branch)}
    (fedAgain : grammar.feed terminal (.token index) ⟨middle, trial⟩ = .ok (.refused left stuck))
    (first : P (forest, false) (Automaton.row symbols stack))
    (shift : ∀ store row, P store row →
      P store (row ++ [(name, .leaf (.conjured name index), false)]))
    (step : ∀ store below production values, production ∈ grammar.table.productions →
      values.length = production.symbols.length →
      P store (below ++ production.symbols.zip values) →
      P (pairReduce marking grammar.transparent store production values).1
        (below ++ [(production.origin,
          (pairReduce marking grammar.transparent store production values).2)])) :
    ∃ flag row, grammar.trial? marking terminal name (stack.map (Frame.map (·.2))) = some flag ∧
      P (left, flag) row := by
  obtain ⟨flag, marked, paired, feeds, feedsAgain, same, answer⟩ :=
    exists_trial sound linked marking fed fedAgain
  cases feeds with
  | @shifted _ lastStack next run move =>
      obtain ⟨symbols', below, holds⟩ := run.row_induction linked first step
      have shifted : P (middle, flag) (Automaton.row (name :: symbols')
          (⟨next, .leaf (.conjured name index), false⟩ :: lastStack)) := by
        rw [Automaton.row_cons below.length_eq]
        exact shift _ _ holds
      cases paired with
      | shifted store stack => cases same
      | accepted store value stack => cases same
      | refused store stack =>
          rcases store with ⟨forest', flag'⟩
          obtain ⟨rfl, -⟩ : forest' = left ∧ stack.map (Frame.map (·.1)) = stuck := by
            simpa [Outcome.map] using same
          cases feedsAgain with
          | refused runAgain _ =>
              obtain ⟨symbols'', -, last⟩ :=
                runAgain.row_induction (.cons move below) shifted step
              exact ⟨flag', _, answer, last⟩

end Grammar

end Typeahead
