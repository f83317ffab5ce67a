import Typeahead.Proofs.Forest.Trial
import Typeahead.Proofs.Parsing.Marking

namespace Typeahead

/-!
Trials that come to nothing.  Whether a trial has left a trace in the parser's lists can be told
without the lists: the values that the parser keeps below its topmost one are marked, and the trial
leaves a trace when it reduces a production with more than one symbol whose first value is marked
and inlined.
-/

def Branch.namesList : Branch → Bool
  | .leaf _ => false
  | .node .. => true

namespace Grammar

/-- The marks on a stack: all values that name lists have one, but for the topmost. -/
def markStack : List (Frame Branch) → List (Frame Bool)
  | [] => []
  | top :: rest => top.map (fun _ => false) :: rest.map (Frame.map Branch.namesList)

/-- A reduction of marked values, given whether there is a trace already. -/
def markReduce (trace : Bool) (production : Production) : List Bool → Bool × Bool
  | mark :: _ :: _ => (trace || mark && production.symbols.head?.any isInlined, false)
  | _ => (trace, false)

/-- Whether the trial to make up the terminal `name` in front of a token leaves a trace.  There is
no answer for a trial that is taken over. -/
def trace? (grammar : Grammar) (terminal name : String) (stack : List (Frame Branch)) :
    Option Bool :=
  match grammar.automaton.feed markReduce name false false (markStack stack) with
  | .ok (.shifted trace trial) =>
      match grammar.automaton.feed markReduce terminal false trace trial with
      | .ok (.refused trace _) => some trace
      | _ => none
  | _ => none

def pairStack : List (Frame Branch) → List (Frame (Branch × Bool))
  | [] => []
  | top :: rest => top.map (·, false) :: rest.map (Frame.map fun value => (value, value.namesList))

theorem map_fst_pairStack (stack : List (Frame Branch)) :
    (pairStack stack).map (Frame.map (·.1)) = stack := by
  cases stack with
  | nil => rfl
  | cons top rest => simp [pairStack, Frame.map, Function.comp_def]

theorem map_snd_pairStack (stack : List (Frame Branch)) :
    (pairStack stack).map (Frame.map (·.2)) = markStack stack := by
  cases stack with
  | nil => rfl
  | cons top rest => simp [pairStack, markStack, Frame.map, Function.comp_def]

variable {grammar : Grammar} {terminal name : String} {index : Nat}
  {symbols : List String} {forest middle left : Forest} {trace : Bool}

/-- A value of the parser with its mark, and one of the trial alone. -/
def live (value : String × Branch) : String × (Branch × Bool) :=
  (value.1, value.2, value.2.namesList)

def own (value : String × Branch) : String × (Branch × Bool) := (value.1, value.2, false)

theorem map_bare_live (row : List (String × Branch)) : (row.map live).map bare = row := by
  simp [live, bare, Function.comp_def]

theorem map_bare_own (row : List (String × Branch)) : (row.map own).map bare = row := by
  simp [own, bare, Function.comp_def]

/-- Whether the production leaves a trace on the values. -/
def marked : List (String × (Branch × Bool)) → Bool
  | (symbol, _, mark) :: _ :: _ => mark && isInlined symbol
  | _ => false

theorem markReduce_eq (trace : Bool) {production : Production} {values : List (Branch × Bool)}
    (sized : values.length = production.symbols.length) :
    markReduce trace production (values.map (·.2)) =
      (trace || marked (production.symbols.zip values), false) := by
  rcases production with ⟨origin, symbols⟩
  match symbols, values, sized with
  | [], [], _ => simp [markReduce, marked]
  | [_], [_], _ => simp [markReduce, marked]
  | _ :: _ :: _, _ :: _ :: _, _ => simp [markReduce, marked]

theorem marked_eq_false {row : List (String × (Branch × Bool))}
    (plain : ∀ value ∈ row, value.2.2 = false) : marked row = false := by
  match row with
  | [] => rfl
  | [_] => rfl
  | (symbol, branch, mark) :: _ :: _ =>
      have first : mark = false := plain _ List.mem_cons_self
      simp [marked, first]

theorem marked_map_own (row : List (String × Branch)) : marked (row.map own) = false := by
  apply marked_eq_false
  simp [own]

def Unmarked (store : Forest × Bool) (row : List (String × (Branch × Bool))) : Prop :=
  store.2 = false ∧ ∀ value ∈ row, value.2.2 = false

theorem Unmarked.append {store : Forest × Bool} {row : List (String × (Branch × Bool))}
    (unmarked : Unmarked store row) (value : String × Branch) :
    Unmarked store (row ++ [own value]) := by
  refine ⟨unmarked.1, ?_⟩
  intro other member
  rcases List.mem_append.1 member with old | new
  · exact unmarked.2 other old
  · rw [List.mem_singleton.1 new]
    rfl

theorem Unmarked.reduce {transparent : List String} {store : Forest × Bool}
    {below : List (String × (Branch × Bool))} {production : Production}
    {values : List (Branch × Bool)} (sized : values.length = production.symbols.length)
    (unmarked : Unmarked store (below ++ production.symbols.zip values)) :
    Unmarked (pairReduce markReduce transparent store production values).1
      (below ++ [(production.origin, (pairReduce markReduce transparent store production values).2)]) := by
  have plain : ∀ value ∈ production.symbols.zip values, value.2.2 = false :=
    fun value member => unmarked.2 value (List.mem_append_right _ member)
  have marks : markReduce store.2 production (values.map (·.2)) = (false, false) := by
    rw [markReduce_eq store.2 sized, unmarked.1, marked_eq_false plain]
    rfl
  simp only [pairReduce, marks]
  refine ⟨rfl, ?_⟩
  intro value member
  rcases List.mem_append.1 member with old | new
  · exact unmarked.2 value (List.mem_append_left _ old)
  · rw [List.mem_singleton.1 new]

/-- What a production takes from a trial's row: values of the trial alone, or the base with all
above it and perhaps values of the parser. -/
theorem taken_cases {kept upper : List (String × Branch)} {base : String × Branch}
    {below taken : List (String × (Branch × Bool))}
    (same : kept.map live ++ (base :: upper).map own = below ++ taken) :
    (∃ lower rest, upper = lower ++ rest ∧ below = kept.map live ++ (base :: lower).map own ∧
      taken = rest.map own) ∨
    ∃ lower rest, kept = lower ++ rest ∧ below = lower.map live ∧
      taken = rest.map live ++ (base :: upper).map own := by
  rcases List.append_eq_append_iff.1 same with ⟨middle, rfl, split⟩ | ⟨middle, split, rfl⟩
  · cases middle with
    | nil => exact .inr ⟨kept, [], by simp, by simp, split.symm⟩
    | cons first middle =>
        obtain ⟨rfl, others⟩ := List.cons.inj split
        obtain ⟨lower, rest, rfl, rfl, rfl⟩ := List.map_eq_append_iff.1 others
        exact .inl ⟨lower, rest, rfl, rfl, rfl⟩
  · obtain ⟨lower, rest, rfl, rfl, rfl⟩ := List.map_eq_append_iff.1 split
    exact .inr ⟨lower, rest, rfl, rfl, rfl⟩

/-- A production that leaves no trace appends to the base or to nothing of the parser. -/
theorem spared_of_unmarked {rest upper : List (String × Branch)} {base : String × Branch}
    (unmarked : marked (rest.map live ++ (base :: upper).map own) = false) :
    rest = [] ∨ Forest.appendedTo? (rest ++ base :: upper) = none := by
  match rest with
  | [] => exact .inl rfl
  | (symbol, .leaf _) :: more => exact .inr (by simp [Forest.appendedTo?])
  | (symbol, .node rule list) :: more =>
      right
      have plain : isInlined symbol = false := by
        cases more <;> simpa [marked, live, Branch.namesList] using unmarked
      cases more <;> simp [Forest.appendedTo?, plain]

/-- A production that leaves a trace appends the base to a list of the parser. -/
theorem exists_of_marked {rest upper : List (String × Branch)} {base : String × Branch}
    (traced : marked (rest.map live ++ (base :: upper).map own) = true) :
    ∃ symbol rule list more, rest = (symbol, .node rule list) :: more ∧ isInlined symbol = true := by
  match rest with
  | [] =>
      rw [List.map_nil, List.nil_append, marked_map_own] at traced
      cases traced
  | (symbol, .leaf _) :: more => cases more <;> simp [marked, live, Branch.namesList] at traced
  | (symbol, .node rule list) :: more =>
      refine ⟨symbol, rule, list, more, rfl, ?_⟩
      cases more <;> simpa [marked, live, Branch.namesList] using traced

/-- A trial from the row `front ++ [top]` of `forest`, with its marks.  Without a trace the trial has
kept to itself and builds on the top; with a trace the parser has tokens more than once. -/
structure Probes (level : Nat → Nat) (forest : Forest) (front : List (String × Branch))
    (top : String × Branch) (store : Forest × Bool) (row : List (String × (Branch × Bool))) :
    Prop where
  carried : ∃ level',
    Forest.Carried level forest (front ++ [top]) level' store.1 (row.map bare)
  aside : store.2 = false → ∃ kept base upper foreign,
    row = kept.map live ++ (base :: upper).map own ∧ kept <+: front ∧
      store.1.indices base.2 ≠ [] ∧ Forest.Aside forest top.2 foreign store.1 base upper
  longer : store.2 = true →
    (forest.rowIndices (front ++ [top])).length < (store.1.rowIndices (front ++ [top])).length

namespace Probes

variable {level : Nat → Nat} {front : List (String × Branch)} {top : String × Branch}
  {store : Forest × Bool} {row : List (String × (Branch × Bool))}

theorem refl (leveled : Forest.Leveled level forest)
    (fits : Forest.RowFits level forest 0 (front ++ [top]))
    (holds : forest.Holds (front ++ [top])) :
    Probes level forest front top (forest, false) (front.map live ++ [own top]) where
  carried := by
    have same : (front.map live ++ [own top]).map bare = front ++ [top] := by
      rw [List.map_append, map_bare_live]
      rfl
    rw [same]
    exact ⟨level, .refl leveled fits⟩
  aside := by
    intro _
    obtain ⟨-, fit⟩ := Forest.rowFits_append.1 fits
    refine ⟨front, top, [], _, rfl, List.prefix_rfl, holds top (by simp), Forest.aside_refl fit.1⟩
  longer := by simp

theorem leaf (probes : Probes level forest front top store row) (symbol : String) {leaf : Leaf}
    (conjured : leaf.index? = none) :
    Probes level forest front top store (row ++ [(symbol, .leaf leaf, false)]) where
  carried := by
    obtain ⟨level', carried⟩ := probes.carried
    rw [List.map_append]
    exact ⟨level', carried.leaf symbol leaf conjured⟩
  aside := by
    intro untraced
    obtain ⟨kept, base, upper, foreign, rfl, shorter, token, aside⟩ := probes.aside untraced
    refine ⟨kept, base, upper ++ [(symbol, .leaf leaf)], foreign, ?_, shorter, token,
      aside.leaf symbol conjured⟩
    simp [own]
  longer := probes.longer

section Reduced

variable {below : List (String × (Branch × Bool))} {production : Production}
  {values : List (Branch × Bool)} {transparent : List String} {level' : Nat → Nat}
  (probes : Probes level forest front top store (below ++ production.symbols.zip values))
  (leveled : Forest.Leveled level' store.1)
  (fits : Forest.RowFits level' store.1 0
    (below.map bare ++ production.symbols.zip (values.map (·.1))))
  (untraced : store.2 = false)

include probes leveled fits untraced

theorem longer_reduce (trace : marked (production.symbols.zip values) = true) :
    (store.1.rowIndices (front ++ [top])).length <
      ((store.1.reduce transparent production (values.map (·.1))).1.rowIndices
        (front ++ [top])).length := by
  obtain ⟨kept, base, upper, _, split, shorter, token, -⟩ := probes.aside untraced
  obtain ⟨-, fitting⟩ := Forest.rowFits_append.1 fits
  rcases taken_cases split.symm with ⟨_, rest, -, -, taken⟩ | ⟨lower, rest, rfl, -, taken⟩
  · rw [taken, marked_map_own] at trace
    cases trace
  · rw [taken] at trace
    obtain ⟨symbol, rule, list, more, rfl, inlined⟩ := exists_of_marked trace
    have plain : production.symbols.zip (values.map (·.1)) =
        (symbol, .node rule list) :: (more ++ base :: upper) := by
      rw [← map_bare_zip, taken, List.map_append, map_bare_live, map_bare_own]
      rfl
    refine Forest.length_rowIndices_lt leveled fitting plain inlined ?_ ?_
    · intro empty
      simp only [Forest.rowIndices, List.flatMap_append, List.flatMap_cons,
        List.append_eq_nil_iff] at empty
      exact token empty.2.1
    · exact List.mem_append_left _ (shorter.subset (by simp))

theorem aside_reduce (unmarked : marked (production.symbols.zip values) = false)
    (kept : isInlined production.origin = true → transparent.contains production.origin = false) :
    ∃ kept base upper foreign,
      below ++ [own (production.origin,
        (store.1.reduce transparent production (values.map (·.1))).2)] =
          kept.map live ++ (base :: upper).map own ∧ kept <+: front ∧
      (store.1.reduce transparent production (values.map (·.1))).1.indices base.2 ≠ [] ∧
      Forest.Aside forest top.2 foreign
        (store.1.reduce transparent production (values.map (·.1))).1 base upper := by
  obtain ⟨front', base, upper, foreign, split, shorter, token, aside⟩ := probes.aside untraced
  obtain ⟨-, fitting⟩ := Forest.rowFits_append.1 fits
  rcases taken_cases split.symm with ⟨lower, rest, rfl, rfl, taken⟩ | ⟨lower, rest, rfl, rfl, taken⟩
  · have plain : production.symbols.zip (values.map (·.1)) = rest := by
      rw [← map_bare_zip, taken, map_bare_own]
    rw [← plain] at aside
    obtain ⟨foreign', aside'⟩ := aside.reduce_upper fitting
    refine ⟨front', base, _, foreign', by simp, shorter, ?_, aside'⟩
    intro empty
    have extended : store.1.Extends
        (store.1.reduce transparent production (values.map (·.1))).1 :=
      (Forest.growth_reduce fitting).extended
    have still := extended.indices_sublist base.2
    rw [empty] at still
    exact token (List.sublist_nil.1 still)
  · have plain : production.symbols.zip (values.map (·.1)) = rest ++ base :: upper := by
      rw [← map_bare_zip, taken, List.map_append, map_bare_live, map_bare_own]
    rw [taken] at unmarked
    have spared := spared_of_unmarked unmarked
    rw [← plain] at spared
    refine ⟨lower, _, [], foreign, rfl, (List.prefix_append _ _).trans shorter, ?_,
      aside.reduce_base fitting plain spared kept⟩
    simp only
    rw [Forest.indices_reduce leveled fits, plain]
    intro empty
    simp only [Forest.rowIndices, List.flatMap_append, List.flatMap_cons,
      List.append_eq_nil_iff] at empty
    exact token empty.2.1

omit leveled fits untraced

theorem reduce (sized : values.length = production.symbols.length)
    (inlinable : isInlined production.origin = true →
      production.symbols ≠ [] ∧ transparent.contains production.origin = false) :
    Probes level forest front top (pairReduce markReduce transparent store production values).1
      (below ++ [(production.origin, (pairReduce markReduce transparent store production values).2)]) := by
  obtain ⟨level', carried⟩ := probes.carried
  rw [List.map_append, map_bare_zip] at carried
  have counted : (values.map (·.1)).length = production.symbols.length := by
    rw [List.length_map, sized]
  have after := carried.trans
    (Forest.carried_reduce carried.leveled carried.fits counted inlinable)
  have marks := markReduce_eq store.2 sized
  have made : pairReduce markReduce transparent store production values =
      (((store.1.reduce transparent production (values.map (·.1))).1,
        store.2 || marked (production.symbols.zip values)),
        ((store.1.reduce transparent production (values.map (·.1))).2, false)) := by
    simp only [pairReduce, marks]
  rw [made]
  refine ⟨?_, ?_, ?_⟩
  · rw [List.map_append]
    exact ⟨_, after⟩
  · intro untraced
    simp only [Bool.or_eq_false_iff] at untraced
    exact aside_reduce probes carried.leveled carried.fits untraced.1 untraced.2
      fun inlined => (inlinable inlined).2
  · intro traced
    by_cases before : store.2 = true
    · obtain ⟨-, fitting⟩ := Forest.rowFits_append.1 carried.fits
      exact Nat.lt_of_lt_of_le (probes.longer before)
        (Forest.sublist_rowIndices (Forest.growth_reduce fitting).extended _).length_le
    · have untraced : store.2 = false := Bool.eq_false_iff.2 before
      rw [untraced, Bool.false_or] at traced
      exact Nat.lt_of_le_of_lt
        (Forest.sublist_rowIndices carried.growth.extended _).length_le
        (longer_reduce probes carried.leveled carried.fits untraced traced)

end Reduced

end Probes

section Trial

variable {stack trial : List (Frame Branch)} {level : Nat → Nat}

theorem trial?_pairStack (terminal name : String) (stack : List (Frame Branch)) :
    grammar.trial? markReduce terminal name ((pairStack stack).map (Frame.map (·.2))) =
      grammar.trace? terminal name stack := by
  rw [map_snd_pairStack]
  rfl

theorem linked_pairStack (linked : grammar.automaton.Linked symbols stack) :
    grammar.automaton.Linked symbols (pairStack stack) :=
  Automaton.Linked.of_map (·.1) (by rwa [map_fst_pairStack])

variable (sound : grammar.Sound)

include sound

theorem trace?_of_shifted (linked : grammar.automaton.Linked symbols stack)
    (fed : grammar.feed name (.conjured name index) ⟨forest, stack⟩ = .ok (.shifted middle trial))
    {last : List (Frame Branch)}
    (fedAgain : grammar.feed terminal (.token index) ⟨middle, trial⟩ = .ok (.shifted left last)) :
    grammar.trace? terminal name stack = none := by
  rw [← map_fst_pairStack stack] at fed
  obtain ⟨_, _, paired, -, -, same, answer⟩ :=
    exists_trial sound (linked_pairStack linked) markReduce fed fedAgain
  rw [trial?_pairStack] at answer
  cases paired with
  | shifted store stack => exact answer
  | accepted store value stack => cases same
  | refused store stack => cases same

omit sound in
theorem row_pairStack {frame : Frame Branch} {rest : List (Frame Branch)}
    (linked : grammar.automaton.Linked symbols (frame :: rest)) :
    ∃ front top, Automaton.row symbols (frame :: rest) = front ++ [top] ∧
      Automaton.row symbols (pairStack (frame :: rest)) = front.map live ++ [own top] := by
  cases linked with
  | @cons symbols _ symbol _ move below =>
      refine ⟨Automaton.row symbols rest, (symbol, frame.value),
        Automaton.row_cons below.length_eq, ?_⟩
      rw [pairStack, Automaton.row_cons (by simpa using below.length_eq), Automaton.row_map]
      rfl

/-- With no values on the stack there is no mark, and so never a trace. -/
theorem trace?_nil
    (fed : grammar.feed name (.conjured name index) ⟨forest, []⟩ = .ok (.shifted middle trial))
    {stuck : List (Frame Branch)}
    (fedAgain : grammar.feed terminal (.token index) ⟨middle, trial⟩ = .ok (.refused left stuck)) :
    grammar.trace? terminal name [] = some false := by
  rw [← map_fst_pairStack []] at fed
  obtain ⟨trace, row, answer, untraced, -⟩ :=
    trial_induction sound (linked_pairStack .nil) markReduce fed fedAgain
    (P := Unmarked) ⟨rfl, by simp [pairStack, Automaton.row]⟩
    (fun _ _ unmarked => unmarked.append (name, .leaf (.conjured name index)))
    (fun _ _ _ _ _ sized unmarked => unmarked.reduce sized)
  rw [← trial?_pairStack, answer]
  exact congrArg some untraced

/-- The trace of a trial that comes to nothing: without one the parser's values are as they were,
with one the parser has tokens more than once. -/
theorem exists_trace (standing : grammar.Standing level symbols ⟨forest, stack⟩)
    (fed : grammar.feed name (.conjured name index) ⟨forest, stack⟩ = .ok (.shifted middle trial))
    {stuck : List (Frame Branch)}
    (fedAgain : grammar.feed terminal (.token index) ⟨middle, trial⟩ = .ok (.refused left stuck))
    (unshared : forest.Unshared (Automaton.row symbols stack))
    (holds : forest.Holds (Automaton.row symbols stack)) :
    ∃ trace, grammar.trace? terminal name stack = some trace ∧
      (trace = false → left.Unshared (Automaton.row symbols stack) ∧
        left.rowIndices (Automaton.row symbols stack) =
          forest.rowIndices (Automaton.row symbols stack)) ∧
      (trace = true → (forest.rowIndices (Automaton.row symbols stack)).length <
        (left.rowIndices (Automaton.row symbols stack)).length) := by
  cases stack with
  | nil =>
      have linked := standing.linked
      cases linked
      exact ⟨false, trace?_nil sound fed fedAgain, fun _ => ⟨List.Pairwise.nil, rfl⟩, by simp⟩
  | cons frame rest =>
      obtain ⟨front, top, row, marks⟩ := row_pairStack standing.linked
      have fits : Forest.RowFits level forest 0 (front ++ [top]) := row ▸ standing.fits
      rw [row] at unshared holds ⊢
      rw [← map_fst_pairStack (frame :: rest)] at fed
      obtain ⟨trace, last, answer, probes⟩ :=
        trial_induction sound (linked_pairStack standing.linked) markReduce fed fedAgain
        (P := Probes level forest front top) (marks ▸ .refl standing.leveled fits holds)
        (fun _ _ probes => probes.leaf name rfl)
        (fun _ _ production _ member sized probes =>
          probes.reduce sized (sound.inlinable production member))
      rw [trial?_pairStack] at answer
      refine ⟨trace, answer, ?_, probes.longer⟩
      intro untraced
      obtain ⟨_, carried⟩ := probes.carried
      obtain ⟨_, _, _, _, -, -, -, aside⟩ := probes.aside untraced
      exact ⟨aside.unshared_row standing.leveled fits unshared,
        aside.rowIndices_eq standing.leveled fits unshared carried.leveled⟩

end Trial

end Grammar

end Typeahead
