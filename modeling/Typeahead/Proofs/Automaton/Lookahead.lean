import Typeahead.Automaton
import Typeahead.Proofs.Automaton.States
import Typeahead.Proofs.Nullable

namespace Typeahead

/-!
Which productions a terminal selects.  Only a production that has been read to its end is
selected, and after an empty production whose origin is always followed by a terminal the selecting
terminal can be read at once.
-/

namespace RuleTable

variable {table : RuleTable}

/-- Wherever a production uses `symbol`, a terminal follows. -/
def FollowedByTerminal (table : RuleTable) (symbol : String) : Prop :=
  ∀ production ∈ table.productions, ∀ dot : Nat, production.symbols[dot]? = some symbol →
    ∃ terminal, production.symbols[dot + 1]? = some terminal ∧ table.isTerminal terminal = true

/-- Rules with an empty production are used in front of terminals only. -/
def EmptyGuarded (table : RuleTable) : Prop :=
  ∀ production ∈ table.productions, production.symbols = [] →
    table.FollowedByTerminal production.origin

theorem Disjoint.not_isNullable (disjoint : table.Disjoint) {terminal : String}
    (isTerminal : table.isTerminal terminal = true) : table.isNullable terminal = false := by
  rw [Bool.eq_false_iff]
  intro nullable
  obtain ⟨rest, impossible, -⟩ :=
    Yields.eq_of_isTerminal disjoint isTerminal (isNullable_iff.1 nullable)
  cases impossible

theorem FollowedByTerminal.not_all_isNullable {symbol : String}
    (followed : table.FollowedByTerminal symbol) (disjoint : table.Disjoint)
    {production : Production} (member : production ∈ table.productions)
    {left right : List String} (split : production.symbols = left ++ symbol :: right) :
    right.all table.isNullable = false := by
  have here : production.symbols[left.length]? = some symbol := by simp [split]
  obtain ⟨terminal, after, isTerminal⟩ := followed production member left.length here
  have listed : right[0]? = some terminal := by
    rw [← after, split, List.getElem?_append_right (by omega)]
    simp
  rw [List.all_eq_false]
  refine ⟨terminal, List.mem_of_getElem? listed, ?_⟩
  simp [disjoint.not_isNullable isTerminal]

end RuleTable

namespace RuleMove

variable {table : RuleTable} {states : States} {outer move : RuleMove}

theorem exists_split_of_mem_endings {s : Nat} {row : List String} {enclosing : RuleMove}
    (listed : (move, enclosing) ∈ endings table states outer s row) :
    ∃ left right, row = left ++ move.rule :: right ∧ right.all table.isNullable = true := by
  induction row generalizing s with
  | nil => cases listed
  | cons symbol rest ih =>
      rw [endings, List.mem_append] at listed
      rcases listed with here | later
      · split at here
        · rename_i nullable
          rw [Bool.and_eq_true] at nullable
          simp only [List.mem_singleton, Prod.mk.injEq] at here
          obtain ⟨rfl, -⟩ := here
          exact ⟨[], rest, rfl, nullable.2⟩
        · cases here
      · split at later
        · obtain ⟨left, right, rfl, nullable⟩ := ih later
          exact ⟨symbol :: left, right, rfl, nullable⟩
        · cases later

theorem exists_split_of_mem_outerMoves {enclosing : RuleMove}
    (listed : enclosing ∈ (outerMoves table states).get move) :
    ∃ production ∈ table.productions, ∃ left right,
      production.symbols = left ++ move.rule :: right ∧ right.all table.isNullable = true := by
  simp only [outerMoves, Grouping.mem_get_ofList, List.mem_flatMap] at listed
  obtain ⟨outer, -, p, numbered, ending⟩ := listed
  obtain ⟨production, found, -⟩ := RuleTable.mem_productionsOf.1 numbered
  rw [RuleTable.symbols_of_getElem? found] at ending
  exact ⟨production, Array.mem_of_getElem? found, exists_split_of_mem_endings ending⟩

theorem mem_reductionMoves {p s : Nat} {production : Production}
    (found : table.productions[p]? = some production) :
    move ∈ (reductionMoves table states).get (s, p) ↔ move ∈ all table states ∧
      move.rule = production.origin ∧
      states.spell? move.state production.symbols = some s := by
  have symbols := RuleTable.symbols_of_getElem? found
  simp only [reductionMoves, Grouping.mem_get_ofList, List.mem_flatMap, List.mem_filterMap,
    Option.map_eq_some_iff, Prod.mk.injEq]
  constructor
  · intro listed
    obtain ⟨outer, member, q, numbered, reached, spelled, ⟨rfl, rfl⟩, rfl⟩ := listed
    obtain ⟨other, otherFound, origin⟩ := RuleTable.mem_productionsOf.1 numbered
    obtain rfl := Option.some.inj (found.symm.trans otherFound)
    exact ⟨member, origin.symm, symbols ▸ spelled⟩
  · intro known
    obtain ⟨member, origin, spelled⟩ := known
    exact ⟨move, member, p, RuleTable.mem_productionsOf.2 ⟨production, found, origin.symm⟩, s,
      symbols ▸ spelled, ⟨rfl, rfl⟩, rfl⟩

/-- What holds of the moves and of those that are found through them holds of one that the terminal
comes just after. -/
theorem exists_of_mem_followers {P : RuleMove → Prop} {outer : Grouping RuleMove RuleMove}
    {moves : List RuleMove} {terminal : String}
    (follows : terminal ∈ followers table states outer moves) (first : ∀ move ∈ moves, P move)
    (enclosing : ∀ move, P move → ∀ around ∈ outer.get move, P around)
    (empties : ∀ move, P move → ∀ later ∈ move.emptyAfter table states, P later) :
    ∃ move, P move ∧ terminal ∈ move.terminalsAfter table states := by
  rw [followers, OrderedSet.mem_ofList, List.mem_flatMap] at follows
  obtain ⟨move, inside, comes⟩ := follows
  have begun : ∀ move ∈ OrderedSet.ofList moves, P move :=
    fun move member => first move (OrderedSet.mem_ofList.1 member)
  refine ⟨move, ?_, comes⟩
  apply OrderedSet.saturate_induction ?_ empties move (OrderedSet.mem_toList.1 inside)
  exact OrderedSet.saturate_induction begun enclosing

end RuleMove

namespace Automaton

variable {automaton : Automaton} {s next p : Nat} {terminal : String} {production : Production}

theorem action?_eq_shift_iff :
    automaton.action? s terminal = some (.shift next) ↔
      automaton.states.move? s terminal = some next := by
  unfold action?
  cases automaton.states.move? s terminal with
  | none => simp
  | some target => simp

theorem mem_reductions_of_action? (action : automaton.action? s terminal = some (.reduce p)) :
    automaton.states.move? s terminal = none ∧
      p ∈ (automaton.reductionsOf s).get terminal := by
  unfold action? at action
  cases move : automaton.states.move? s terminal with
  | some target => simp [move] at action
  | none =>
      simp only [move, Option.map_eq_some_iff, Action.reduce.injEq] at action
      obtain ⟨_, head, rfl⟩ := action
      exact ⟨rfl, List.mem_of_head? head⟩

/-- The production that a terminal selects has been read to its end, and the terminal may follow
there. -/
theorem complete_of_mem_reductions (listed : p ∈ (automaton.reductionsOf s).get terminal) :
    ∃ production, automaton.table.productions[p]? = some production ∧
      automaton.states.Contains s ⟨p, production.symbols.length⟩ ∧
      terminal ∈ RuleMove.followers automaton.table automaton.states
        (RuleMove.outerMoves automaton.table automaton.states)
        ((RuleMove.reductionMoves automaton.table automaton.states).get (s, p)) := by
  rw [reductionsOf, automaton.reductions_eq, lookaheadReductions, Array.getD_eq_getD_getElem?,
    Array.getElem?_mapIdx] at listed
  cases found : automaton.states[s]? with
  | none =>
      rw [found] at listed
      exact absurd (Grouping.mem_get_ofList.1 listed) List.not_mem_nil
  | some state =>
      rw [found] at listed
      have pair := Grouping.mem_get_ofList.1 listed
      simp only [List.mem_flatMap, List.mem_filter, OrderedSet.mem_toList, Bool.and_eq_true,
        decide_eq_true_eq, Option.isNone_iff_eq_none, List.mem_map, Prod.mk.injEq] at pair
      obtain ⟨⟨q, dot⟩, ⟨member, numbered, ended⟩, _, follows, rfl, rfl⟩ := pair
      have inside : q < automaton.table.productions.size := numbered
      have listed := Array.getElem?_eq_getElem inside
      have contains : automaton.states.Contains s ⟨q, dot⟩ := ⟨state, found, member⟩
      have bound : dot ≤ (automaton.table.body q).length := by
        rw [automaton.states_eq] at contains
        exact (RuleTable.mem_stateItems.1 contains.mem_stateItems).2
      have past : (automaton.table.body q).length ≤ dot := List.getElem?_eq_none_iff.1 ended
      have read : dot = automaton.table.productions[q].symbols.length := by
        rw [RuleTable.body_of_getElem? listed] at bound past
        omega
      exact ⟨_, listed, read ▸ contains, follows⟩

/-- In the state behind a rule that is always followed by a terminal, terminals are waited for. -/
theorem isTerminal_of_waiting {rule : String} (disjoint : automaton.table.Disjoint)
    (followed : automaton.table.FollowedByTerminal rule)
    (move : automaton.states.move? s rule = some next) {dotted : DottedRule} {symbol : String}
    (contains : automaton.states.Contains next dotted)
    (after : automaton.table.symbolAfter? dotted = some symbol) :
    automaton.table.isTerminal symbol = true := by
  rw [automaton.states_eq] at move contains
  revert symbol
  refine States.contains_induction move
    (P := fun dotted => ∀ {symbol}, automaton.table.symbolAfter? dotted = some symbol →
      automaton.table.isTerminal symbol = true) ?_ ?_ dotted contains
  · intro earlier inside waiting symbol after
    rcases earlier with ⟨q, dot⟩
    obtain ⟨numbered, -⟩ := RuleTable.mem_stateItems.1 inside.mem_stateItems
    rcases Nat.eq_or_lt_of_le numbered with goal | below
    · -- the goal has one symbol only
      have past : dot + 1 < (automaton.table.body q).length :=
        (List.getElem?_eq_some_iff.1 after).1
      rw [show q = automaton.table.goal from goal] at past
      simp [RuleTable.body] at past
    · have found := Array.getElem?_eq_getElem below
      simp only [RuleTable.symbolAfter?, DottedRule.advance, RuleTable.body_of_getElem? found]
        at waiting after
      obtain ⟨terminal, follows, isTerminal⟩ :=
        followed _ (Array.mem_of_getElem? found) dot waiting
      rw [follows, Option.some.injEq] at after
      exact after ▸ isTerminal
  · intro outer entered holds enters symbol _
    obtain ⟨-, production, found, waiting⟩ := RuleTable.mem_enteredBy.1 enters
    exact absurd (OrderedSet.contains_iff.1 (holds waiting))
      (disjoint production (Array.mem_of_getElem? found))

/-- After an empty production the terminal that selected it can be read, or ends the input. -/
theorem move?_after_empty (disjoint : automaton.table.Disjoint)
    (guarded : automaton.table.EmptyGuarded)
    (found : automaton.table.productions[p]? = some production) (empty : production.symbols = [])
    (action : automaton.action? s terminal = some (.reduce p))
    (move : automaton.states.move? s production.origin = some next) :
    (∃ target, automaton.states.move? next terminal = some target) ∨
      terminal = endMarker ∧ s = 0 ∧ production.origin = automaton.table.start := by
  have member := Array.mem_of_getElem? found
  have followed := guarded production member empty
  obtain ⟨-, listed⟩ := mem_reductions_of_action? action
  obtain ⟨_, -, -, follows⟩ := complete_of_mem_reductions listed
  have reached := RuleMove.exists_of_mem_followers follows
    (P := fun reached => reached = ⟨s, production.origin⟩) ?_ ?_ ?_
  · obtain ⟨_, rfl, comes⟩ := reached
    rw [RuleMove.terminalsAfter, List.mem_append] at comes
    rcases comes with ended | read
    · split at ended
      · rename_i first
        rw [RuleMove.mk.injEq] at first
        exact .inr ⟨List.mem_singleton.1 ended, first.1, first.2⟩
      · cases ended
    · simp only [RuleMove.symbolsAfter, move, List.mem_filter] at read
      obtain ⟨readable, -⟩ := read
      rw [automaton.states_eq, States.mem_symbolsFrom_iff, ← automaton.states_eq] at readable
      exact .inl readable
  · intro first listed
    obtain ⟨-, origin, spelled⟩ := (RuleMove.mem_reductionMoves found).1 listed
    rw [empty, States.spell?, Option.some.injEq] at spelled
    rw [← spelled, ← origin]
  · intro reached same around outer
    subst same
    obtain ⟨using_, inside, left, right, split, nullable⟩ :=
      RuleMove.exists_split_of_mem_outerMoves outer
    rw [followed.not_all_isNullable disjoint inside split] at nullable
    cases nullable
  · intro reached same later empties
    subst same
    simp only [RuleMove.emptyAfter, move, List.mem_map, List.mem_filter] at empties
    obtain ⟨symbol, ⟨readable, nullable⟩, -⟩ := empties
    rw [automaton.states_eq, States.mem_symbolsFrom_iff] at readable
    obtain ⟨target, onward⟩ := readable
    obtain ⟨rule, contains, after⟩ := States.exists_waiting_of_move? onward
    rw [← automaton.states_eq] at contains
    have isTerminal := isTerminal_of_waiting disjoint followed move contains after
    rw [disjoint.not_isNullable isTerminal] at nullable
    cases nullable

end Automaton

end Typeahead
