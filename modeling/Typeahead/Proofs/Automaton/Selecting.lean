import Typeahead.Proofs.Automaton.Outlook

namespace Typeahead

/-!
What the parser does on the way through its states.  Behind a rule name comes what can be read there,
the end of the input behind the start, and what comes behind a rule that ends there.  A terminal that
comes behind a production selects it, in a state where nothing else can be done.
-/

namespace RuleMove

variable {table : RuleTable} {s : Nat} {rule : String} {move outer : RuleMove}

theorem mem_all : move ∈ all table (.ofRules table) ↔
    (∃ next, (States.ofRules table).move? move.state move.rule = some next) ∧
      table.productionsOf move.rule ≠ [] := by
  simp only [all, List.mem_flatMap, List.mem_range, List.mem_map, List.mem_filter,
    States.mem_symbolsFrom_iff, Bool.not_eq_true', List.isEmpty_eq_false_iff]
  constructor
  · intro listed
    obtain ⟨s, -, rule, ⟨moves, used⟩, rfl⟩ := listed
    exact ⟨moves, used⟩
  · intro known
    obtain ⟨⟨next, moves⟩, used⟩ := known
    obtain ⟨state, found, -⟩ := Option.bind_eq_some_iff.1 moves
    exact ⟨move.state, (Array.getElem?_eq_some_iff.1 found).1, move.rule, ⟨⟨next, moves⟩, used⟩, rfl⟩

/-- The pairs of a state and a rule. -/
def stock (table : RuleTable) (states : States) : List RuleMove :=
  (List.range states.size).flatMap fun s => table.byOrigin.keys.toList.map (⟨s, ·⟩)

theorem length_stock (table : RuleTable) (states : States) :
    (stock table states).length = states.size * table.byOrigin.keys.size := by
  simp [stock, OrderedSet.toList, OrderedSet.size]

theorem mem_stock_of_mem_all (member : move ∈ all table (.ofRules table)) :
    move ∈ stock table (.ofRules table) := by
  obtain ⟨⟨next, moves⟩, used⟩ := mem_all.1 member
  obtain ⟨state, found, -⟩ := Option.bind_eq_some_iff.1 moves
  obtain ⟨p, numbered⟩ := List.exists_mem_of_ne_nil _ used
  have key : move.rule ∈ table.byOrigin.keys := by
    rw [RuleTable.productionsOf, table.byOrigin_eq] at numbered
    rw [table.byOrigin_eq]
    exact Grouping.mem_keys_ofList.2 ⟨p, Grouping.mem_get_ofList.1 numbered⟩
  refine List.mem_flatMap.2 ⟨move.state, ?_, List.mem_map.2 ⟨_, OrderedSet.mem_toList.2 key, rfl⟩⟩
  exact List.mem_range.2 (Array.getElem?_eq_some_iff.1 found).1

theorem mem_endings {states : States} {left : List String} {s last : Nat}
    (spelled : states.spell? s left = some last) (used : table.productionsOf rule ≠ []) :
    (⟨last, rule⟩, outer) ∈ endings table states outer s (left ++ [rule]) := by
  induction left generalizing s with
  | nil =>
      obtain rfl := Option.some.inj spelled
      simp [endings, used]
  | cons symbol left ih =>
      obtain ⟨next, moves, spelled⟩ := Option.bind_eq_some_iff.1 spelled
      rw [List.cons_append, endings, moves]
      exact List.mem_append_right _ (ih spelled)

theorem eq_of_mem_endings {states : States} {row : List String} {s : Nat} {enclosing : RuleMove}
    (listed : (move, enclosing) ∈ endings table states outer s row) : enclosing = outer := by
  induction row generalizing s with
  | nil => cases listed
  | cons symbol rest ih =>
      rw [endings, List.mem_append] at listed
      rcases listed with here | later
      · split at here
        · exact (Prod.mk.inj (List.mem_singleton.1 here)).2
        · cases here
      · split at later
        · exact ih later
        · cases later

theorem mem_all_of_mem_outerMoves (listed : outer ∈ (outerMoves table (.ofRules table)).get move) :
    outer ∈ all table (.ofRules table) := by
  rw [outerMoves, Grouping.mem_get_ofList, List.mem_flatMap] at listed
  obtain ⟨other, member, listed⟩ := listed
  obtain ⟨p, -, listed⟩ := List.mem_flatMap.1 listed
  exact eq_of_mem_endings listed ▸ member

/-- What comes behind a rule comes behind the last symbol of its productions. -/
theorem mem_outerMoves {p : Nat} {production : Production} {left : List String}
    (enclosing : outer ∈ all table (.ofRules table))
    (found : table.productions[p]? = some production) (origin : production.origin = outer.rule)
    (split : production.symbols = left ++ [rule])
    (spelled : (States.ofRules table).spell? outer.state left = some s)
    (used : table.productionsOf rule ≠ []) :
    outer ∈ (outerMoves table (.ofRules table)).get ⟨s, rule⟩ := by
  rw [outerMoves, Grouping.mem_get_ofList, List.mem_flatMap]
  refine ⟨outer, enclosing, List.mem_flatMap.2 ⟨p, ?_, ?_⟩⟩
  · exact RuleTable.mem_productionsOf.2 ⟨production, found, origin⟩
  · rw [RuleTable.symbols_of_getElem? found, split]
    exact mem_endings spelled used

/-- The terminal can come behind a move by a rule name. -/
inductive Before (table : RuleTable) (terminal : String) : RuleMove → Prop where
  /-- The end comes behind the start. -/
  | ended (atEnd : terminal = endMarker) : Before table terminal ⟨0, table.start⟩
  /-- The terminal can be read there. -/
  | read {s next target : Nat} {rule : String}
      (move : (States.ofRules table).move? s rule = some next)
      (reads : (States.ofRules table).move? next terminal = some target)
      (isTerminal : table.isTerminal terminal = true) : Before table terminal ⟨s, rule⟩
  /-- The terminal can be read behind an empty rule. -/
  | past {s next further target : Nat} {rule empty : String}
      (move : (States.ofRules table).move? s rule = some next)
      (nullable : table.isNullable empty = true)
      (onward : (States.ofRules table).move? next empty = some further)
      (reads : (States.ofRules table).move? further terminal = some target)
      (isTerminal : table.isTerminal terminal = true) : Before table terminal ⟨s, rule⟩
  /-- The move is the last in a production, and the terminal comes behind its rule. -/
  | last {s state next p : Nat} {production : Production} {left : List String} {rule : String}
      (found : table.productions[p]? = some production)
      (split : production.symbols = left ++ [rule])
      (move : (States.ofRules table).move? state production.origin = some next)
      (spelled : (States.ofRules table).spell? state left = some s)
      (before : Before table terminal ⟨state, production.origin⟩) : Before table terminal ⟨s, rule⟩

theorem productionsOf_ne_nil {p : Nat} {production : Production}
    (found : table.productions[p]? = some production) :
    table.productionsOf production.origin ≠ [] :=
  List.ne_nil_of_mem (RuleTable.mem_productionsOf.2 ⟨production, found, rfl⟩)

theorem productionsOf_ne_nil_of_isNullable (nullable : table.isNullable rule = true) :
    table.productionsOf rule ≠ [] := by
  obtain ⟨out, empty, yields⟩ : ∃ out, out = [] ∧ table.Yields [rule] out :=
    ⟨[], rfl, RuleTable.isNullable_iff.1 nullable⟩
  cases yields with
  | keep => cases empty
  | expand member _ _ =>
      obtain ⟨p, found⟩ := Array.mem_iff_getElem?.1 member
      exact productionsOf_ne_nil found

theorem mem_all_of_mem_emptyAfter (listed : outer ∈ move.emptyAfter table (.ofRules table)) :
    outer ∈ all table (.ofRules table) := by
  rw [emptyAfter] at listed
  split at listed
  · next next moves =>
      obtain ⟨symbol, member, rfl⟩ := List.mem_map.1 listed
      obtain ⟨onward, nullable⟩ := List.mem_filter.1 member
      exact mem_all.2 ⟨States.mem_symbolsFrom_iff.1 onward,
        productionsOf_ne_nil_of_isNullable nullable⟩
  · cases listed

/-- There is room to follow moves to moves for as long as there are any. -/
theorem exists_saturated (next : RuleMove → List RuleMove) {first : OrderedSet RuleMove}
    (known : ∀ move ∈ first, move ∈ all table (.ofRules table))
    (step : ∀ move, ∀ outer ∈ next move, outer ∈ all table (.ofRules table)) :
    ∃ set, set = first.saturate next ((States.ofRules table).size * table.byOrigin.keys.size) ∧
      (∀ move ∈ first, move ∈ set) ∧ (∀ move ∈ set, move ∈ all table (.ofRules table)) ∧
      ∀ move ∈ set, ∀ outer ∈ next move, outer ∈ set := by
  have inside : ∀ move ∈ first.saturate next
      ((States.ofRules table).size * table.byOrigin.keys.size),
      move ∈ all table (.ofRules table) :=
    OrderedSet.saturate_induction known fun move _ => step move
  refine ⟨_, rfl, fun _ => OrderedSet.mem_saturate_of_mem, inside, ?_⟩
  intro move member outer listed
  exact OrderedSet.saturate_closed (Nat.le_of_eq (length_stock table _))
    (fun move member => mem_stock_of_mem_all (inside move member)) member listed

/-- What can come behind one of the moves is among their followers. -/
theorem Before.mem_followers {terminal : String} (before : Before table terminal move)
    {moves : List RuleMove} (member : move ∈ moves)
    (known : ∀ move ∈ moves, move ∈ all table (.ofRules table)) :
    terminal ∈ followers table (.ofRules table) (outerMoves table (.ofRules table)) moves := by
  obtain ⟨enclosing, grown, begun, inside, closed⟩ := exists_saturated
    (outerMoves table (.ofRules table)).get
    (fun move member => known move (OrderedSet.mem_ofList.1 member))
    (fun _ _ listed => mem_all_of_mem_outerMoves listed)
  obtain ⟨reading, further, within, -, closed'⟩ := exists_saturated
    (emptyAfter table (.ofRules table)) inside (fun _ _ listed => mem_all_of_mem_emptyAfter listed)
  have reached := begun move (OrderedSet.mem_ofList.2 member)
  have shown : ∃ last ∈ reading, terminal ∈ last.terminalsAfter table (.ofRules table) := by
    clear member
    induction before with
    | ended atEnd => exact ⟨_, within _ reached, by simp [terminalsAfter, atEnd]⟩
    | @read s next target rule moves reads isTerminal =>
        refine ⟨_, within _ reached, List.mem_append_right _ (List.mem_filter.2 ⟨?_, isTerminal⟩)⟩
        rw [symbolsAfter, moves]
        exact States.mem_symbolsFrom_iff.2 ⟨target, reads⟩
    | @past s next further' target rule empty moves nullable onward reads isTerminal =>
        refine ⟨⟨next, empty⟩, ?_, List.mem_append_right _ (List.mem_filter.2 ⟨?_, isTerminal⟩)⟩
        · apply closed' _ (within _ reached)
          rw [emptyAfter, moves]
          refine List.mem_map.2 ⟨empty, List.mem_filter.2 ⟨?_, nullable⟩, rfl⟩
          exact States.mem_symbolsFrom_iff.2 ⟨further', onward⟩
        · rw [symbolsAfter, onward]
          exact States.mem_symbolsFrom_iff.2 ⟨target, reads⟩
    | @last s state next p production left rule found split moves spelled before ih =>
        apply ih
        apply closed _ reached
        refine mem_outerMoves (mem_all.2 ⟨⟨next, moves⟩, productionsOf_ne_nil found⟩) found rfl
          split spelled (mem_all.1 (inside _ reached)).2
  obtain ⟨last, member, comes⟩ := shown
  rw [followers, OrderedSet.mem_ofList, List.mem_flatMap, ← grown, ← further]
  exact ⟨last, OrderedSet.mem_toList.2 member, comes⟩

end RuleMove

namespace States

variable {table : RuleTable} {s next p dot : Nat} {production : Production}

/-- A state with a move by a rule begins the productions of the rule. -/
theorem contains_of_move? (move : (ofRules table).move? s production.origin = some next)
    (found : table.productions[p]? = some production) : (ofRules table).Contains s ⟨p, 0⟩ := by
  obtain ⟨rule, contains, after⟩ := exists_waiting_of_move? move
  obtain ⟨kernel, numbered, member⟩ := contains_ofRules.1 contains
  have within := Kernel.mem_stateItems_of_mem_stock
    (Kernel.mem_stock_of_mem_reachable (mem_reachable_of_getElem? numbered))
  refine contains_ofRules.2 ⟨kernel, numbered, Kernel.enteredBy_mem_items within member ?_⟩
  exact RuleTable.mem_enteredBy.2 ⟨rfl, production, found, after⟩

/-- The symbols of a production lead on. -/
theorem Contains.exists_move? (contains : (ofRules table).Contains s ⟨p, dot⟩)
    (found : table.productions[p]? = some production) {symbol : String}
    (here : production.symbols[dot]? = some symbol) :
    ∃ next, (ofRules table).move? s symbol = some next ∧
      (ofRules table).Contains next ⟨p, dot + 1⟩ := by
  have after : table.symbolAfter? ⟨p, dot⟩ = some symbol := by
    rw [RuleTable.symbolAfter?, RuleTable.body_of_getElem? found]
    exact here
  obtain ⟨next, move⟩ := States.exists_move? contains after
  exact ⟨next, move, (contains_after_move? move).2 ⟨contains, after⟩⟩

theorem Contains.of_spell? (found : table.productions[p]? = some production)
    (contains : (ofRules table).Contains s ⟨p, dot⟩) {row rest : List String}
    (split : production.symbols.drop dot = row ++ rest)
    (spelled : (ofRules table).spell? s row = some next) :
    (ofRules table).Contains next ⟨p, dot + row.length⟩ := by
  induction row generalizing s dot with
  | nil =>
      obtain rfl := Option.some.inj spelled
      exact contains
  | cons symbol row ih =>
      obtain ⟨middle, move, spelled⟩ := Option.bind_eq_some_iff.1 spelled
      have here : production.symbols[dot]? = some symbol := by
        rw [← List.head?_drop, split]
        rfl
      obtain ⟨middle', move', further⟩ := contains.exists_move? found here
      obtain rfl := Option.some.inj (move.symm.trans move')
      have split' : production.symbols.drop (dot + 1) = row ++ rest := by
        rw [← List.tail_drop, split]
        rfl
      have reached := ih further split' spelled
      rwa [Nat.add_assoc, Nat.add_comm 1] at reached

end States

namespace Automaton

variable {automaton : Automaton} {productions : List Production} {outlook : Outlook}
  {s next p : Nat} {terminal : String} {production : Production}

theorem mem_reductions_of_mem_followers
    (found : automaton.table.productions[p]? = some production)
    (contains : automaton.states.Contains s ⟨p, production.symbols.length⟩)
    (follows : terminal ∈ RuleMove.followers automaton.table automaton.states
      (RuleMove.outerMoves automaton.table automaton.states)
      ((RuleMove.reductionMoves automaton.table automaton.states).get (s, p))) :
    p ∈ (automaton.reductionsOf s).get terminal := by
  obtain ⟨state, here, member⟩ := contains
  rw [reductionsOf, automaton.reductions_eq, lookaheadReductions, Array.getD_eq_getD_getElem?,
    Array.getElem?_mapIdx, here]
  refine Grouping.mem_get_ofList.2 (List.mem_flatMap.2 ⟨⟨p, production.symbols.length⟩, ?_, ?_⟩)
  · have bound : p < automaton.table.productions.size := RuleTable.lt_goal_of_getElem? found
    have past : automaton.table.symbolAfter? ⟨p, production.symbols.length⟩ = none := by
      rw [RuleTable.symbolAfter?, RuleTable.body_of_getElem? found]
      exact List.getElem?_eq_none (Nat.le_refl _)
    refine List.mem_filter.2 ⟨OrderedSet.mem_toList.2 member, ?_⟩
    simpa [past] using bound
  · exact List.mem_map.2 ⟨terminal, OrderedSet.mem_toList.2 follows, rfl⟩

/-- A terminal that comes behind a rule is one for which a production of the rule is reduced where
it ends. -/
theorem mem_reductions_of_before {state : Nat}
    (found : automaton.table.productions[p]? = some production)
    (move : automaton.states.move? state production.origin = some next)
    (spelled : automaton.states.spell? state production.symbols = some s)
    (before : RuleMove.Before automaton.table terminal ⟨state, production.origin⟩) :
    p ∈ (automaton.reductionsOf s).get terminal := by
  rw [automaton.states_eq] at move spelled
  have begun := States.contains_of_move? move found
  have contains := begun.of_spell? found (List.append_nil _).symm spelled
  rw [Nat.zero_add, ← automaton.states_eq] at contains
  have known : (⟨state, production.origin⟩ : RuleMove) ∈ RuleMove.all automaton.table
      (.ofRules automaton.table) :=
    RuleMove.mem_all.2 ⟨⟨next, move⟩, RuleMove.productionsOf_ne_nil found⟩
  apply mem_reductions_of_mem_followers found contains
  rw [automaton.states_eq]
  apply before.mem_followers ((RuleMove.mem_reductionMoves found).2 ⟨known, rfl, spelled⟩)
  intro move listed
  exact ((RuleMove.mem_reductionMoves found).1 listed).1

theorem mem_choices_of_move? (move : automaton.states.move? s terminal = some next)
    (isTerminal : automaton.table.isTerminal terminal = true) :
    terminal ∈ automaton.choices s := by
  rw [automaton.states_eq] at move
  refine List.mem_append_left _ (List.mem_filter.2 ⟨?_, isTerminal⟩)
  rw [automaton.states_eq]
  exact States.mem_symbolsFrom_iff.2 ⟨next, move⟩

theorem mem_choices_of_mem_reductions (listed : p ∈ (automaton.reductionsOf s).get terminal) :
    terminal ∈ automaton.choices s := by
  have key := mem_keys_reductionsOf.2 ⟨p, listed⟩
  rw [choices, List.mem_append]
  by_cases reads : terminal ∈ (automaton.states.symbolsFrom s).filter automaton.table.isTerminal
  · exact .inl reads
  · rw [← List.contains_iff_mem, Bool.not_eq_true] at reads
    exact .inr (List.mem_filter.2 ⟨OrderedSet.mem_toList.2 key, by rw [reads]; rfl⟩)

/-- A terminal for which a state has an action can be read there or ends a production. -/
theorem exists_action?_of_mem_choices (listed : terminal ∈ automaton.choices s) :
    (∃ next, automaton.states.move? s terminal = some next) ∨
      automaton.states.move? s terminal = none ∧
        ∃ p, automaton.action? s terminal = some (.reduce p) := by
  cases move : automaton.states.move? s terminal with
  | some next => exact .inl ⟨next, rfl⟩
  | none =>
      refine .inr ⟨rfl, ?_⟩
      rw [choices, List.mem_append] at listed
      rcases listed with reads | selected
      · have readable := (List.mem_filter.1 reads).1
        rw [automaton.states_eq, States.mem_symbolsFrom_iff, ← automaton.states_eq, move] at readable
        obtain ⟨_, impossible⟩ := readable
        cases impossible
      · have key := OrderedSet.mem_toList.1 (List.mem_filter.1 selected).1
        obtain ⟨p, reduction⟩ := mem_keys_reductionsOf.1 key
        rw [action?, move]
        cases group : (automaton.reductionsOf s).get terminal with
        | nil => rw [group] at reduction; cases reduction
        | cons q rest => exact ⟨q, rfl⟩

section Outlooked

variable (listed : automaton.table.productions = productions.toArray)
  (bounds : outlook.Bounds automaton.table s)

include listed bounds

/-- What is reduced in a state ends in its outlook. -/
theorem mem_ended_of_action? (action : automaton.action? s terminal = some (.reduce p)) :
    ∃ production, automaton.table.productions[p]? = some production ∧
      production ∈ outlook.ended productions := by
  obtain ⟨-, reduction⟩ := mem_reductions_of_action? action
  obtain ⟨production, found, contains, -⟩ := complete_of_mem_reductions reduction
  rw [automaton.states_eq] at contains
  exact ⟨production, found, bounds.mem_ended listed found contains⟩

theorem mem_awaited_of_mem_choices (unended : outlook.ended productions = [])
    (choice : terminal ∈ automaton.choices s) : terminal ∈ outlook.awaited := by
  rcases exists_action?_of_mem_choices choice with ⟨next, move⟩ | ⟨-, p, action⟩
  · rw [automaton.states_eq] at move
    exact bounds.mem_awaited move
  · obtain ⟨_, -, member⟩ := mem_ended_of_action? listed bounds action
    rw [unended] at member
    cases member

/-- A production is reduced where nothing else ends, for a terminal that comes behind its rule and
cannot be read. -/
theorem exists_action?_eq_reduce {state : Nat}
    (only : ∀ other ∈ outlook.ended productions, other = production)
    (unread : terminal ∉ outlook.awaited)
    (found : automaton.table.productions[p]? = some production)
    (move : automaton.states.move? state production.origin = some next)
    (spelled : automaton.states.spell? state production.symbols = some s)
    (before : RuleMove.Before automaton.table terminal ⟨state, production.origin⟩) :
    ∃ q, automaton.action? s terminal = some (.reduce q) ∧
      automaton.table.productions[q]? = some production := by
  have reduction := mem_reductions_of_before found move spelled before
  rcases exists_action?_of_mem_choices (mem_choices_of_mem_reductions reduction) with
    ⟨next, move⟩ | ⟨-, q, action⟩
  · rw [automaton.states_eq] at move
    exact absurd (bounds.mem_awaited move) unread
  · obtain ⟨other, otherFound, member⟩ := mem_ended_of_action? listed bounds action
    exact ⟨q, action, only other member ▸ otherFound⟩

end Outlooked

section Feed

variable {σ ν : Type} {reduce : σ → Production → List ν → σ × ν} {value : ν} {store : σ}
  {stack : List (Frame ν)}

theorem feedUpTo_of_move? (move : automaton.states.move? (topState stack) terminal = some next)
    (fuel : Nat) : automaton.feedUpTo reduce terminal value (fuel + 1) store stack =
      .ok (.shifted store (⟨next, value⟩ :: stack)) := by
  rw [feedUpTo, action?_eq_shift_iff.2 move]

/-- There is fuel for a few actions at least. -/
theorem exists_feed_eq_feedUpTo (automaton : Automaton) (reduce : σ → Production → List ν → σ × ν)
    (terminal : String) (value : ν) (store : σ) (stack : List (Frame ν)) :
    ∃ fuel, automaton.feed reduce terminal value store stack =
      automaton.feedUpTo reduce terminal value (fuel + 4) store stack := by
  have enough : 2 * 2 ≤ (stack.length + 2) * (automaton.table.productions.size + 2) :=
    Nat.mul_le_mul (Nat.le_add_left 2 _) (Nat.le_add_left 2 _)
  obtain ⟨fuel, counted⟩ := Nat.exists_eq_add_of_le' enough
  exact ⟨fuel, by rw [feed, counted]⟩

theorem feed_of_move? (move : automaton.states.move? (topState stack) terminal = some next) :
    automaton.feed reduce terminal value store stack =
      .ok (.shifted store (⟨next, value⟩ :: stack)) := by
  obtain ⟨fuel, fed⟩ :=
    exists_feed_eq_feedUpTo automaton reduce terminal value store stack
  rw [fed, feedUpTo_of_move? move]

/-- One reduction on the way, or the one that accepts. -/
theorem exists_feedUpTo_of_reduce (reduce : σ → Production → List ν → σ × ν) (value : ν) (store : σ)
    (action : automaton.action? (topState stack) terminal = some (.reduce p))
    (found : automaton.table.productions[p]? = some production)
    (move : automaton.states.move? (topState (stack.drop production.symbols.length))
      production.origin = some next) :
    ∃ last made, ∀ fuel, automaton.feedUpTo reduce terminal value (fuel + 1) store stack =
      if terminal = endMarker && automaton.isFinal next then
        .ok (.accepted last made (⟨next, made⟩ :: stack.drop production.symbols.length))
      else automaton.feedUpTo reduce terminal value fuel last
        (⟨next, made⟩ :: stack.drop production.symbols.length) := by
  have listed : automaton.table.productions.getD p default = production := by
    rw [Array.getD_eq_getD_getElem?, found, Option.getD_some]
  obtain ⟨made, reduced⟩ : ∃ made, made = reduce store production
    ((stack.take production.symbols.length).map (·.value)).reverse := ⟨_, rfl⟩
  refine ⟨made.1, made.2, ?_⟩
  intro fuel
  simp only [feedUpTo, action, listed, move, reduced]

/-- The end is taken by a production that is reduced, if that accepts or the end is taken then. -/
theorem exists_taken_of_reduce {fuel : Nat} (store : σ)
    (action : automaton.action? (topState stack) endMarker = some (.reduce p))
    (found : automaton.table.productions[p]? = some production)
    (move : automaton.states.move? (topState (stack.drop production.symbols.length))
      production.origin = some next)
    (onward : ∀ last made, automaton.isFinal next = true ∨ ∃ outcome,
      automaton.feedUpTo reduce endMarker value fuel last
        (⟨next, made⟩ :: stack.drop production.symbols.length) = .ok outcome ∧
      outcome.taken = true) :
    ∃ outcome, automaton.feedUpTo reduce endMarker value (fuel + 1) store stack = .ok outcome ∧
      outcome.taken = true := by
  obtain ⟨last, made, reduced⟩ := exists_feedUpTo_of_reduce reduce value store action found move
  rw [reduced]
  cases final : automaton.isFinal next with
  | true => exact ⟨_, rfl, rfl⟩
  | false =>
      rcases onward last made with accepted | taken
      · cases final.symm.trans accepted
      · exact taken

end Feed

end Automaton

end Typeahead
