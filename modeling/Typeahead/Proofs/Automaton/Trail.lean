import Typeahead.Proofs.Automaton.Selecting

namespace Typeahead

/-!
What a terminal that is refused leaves behind.  The parser keeps the reductions that it has made for
it.  A terminal that selects the same reductions is taken behind them if it is taken in front of them.
A terminal that is taken behind them can come behind each of the rules that were reduced.
-/

theorem RuleTable.isNullable_of_empty {table : RuleTable} {production : Production}
    (member : production ∈ table.productions) (empty : production.symbols = []) :
    table.isNullable production.origin = true := by
  have yields : table.Yields production.symbols [] := by
    rw [empty]
    exact .nil
  rw [isNullable_iff]
  exact .expand member yields .nil

namespace Automaton

section Definitions

variable (automaton : Automaton)

/-- The reductions that are made for a terminal, each with the state in which it is made. -/
def trailUpTo (terminal : String) : (fuel : Nat) → (states : List Nat) → List (Nat × Nat)
  | 0, _ => []
  | fuel + 1, states =>
      match automaton.action? (states.headD 0) terminal with
      | some (.reduce p) =>
          let production := automaton.table.productions.getD p default
          let below := states.drop production.symbols.length
          let next := automaton.states.move? (below.headD 0) production.origin
          (states.headD 0, p) :: trailUpTo terminal fuel (next.toList ++ below)
      | _ => []

/-- The reductions that the parser makes for a terminal that it is given. -/
def trail {ν : Type} (terminal : String) (stack : List (Frame ν)) : List (Nat × Nat) :=
  automaton.trailUpTo terminal ((stack.length + 2) * (automaton.table.productions.size + 2))
    (stack.map (·.state))

/-- Whether the terminal selects the reductions itself. -/
def selects (trail : List (Nat × Nat)) (name : String) : Bool :=
  trail.all fun (s, p) => automaton.action? s name == some (.reduce p)

/-- Whether the terminal can come behind the rules that are reduced. -/
def admits (trail : List (Nat × Nat)) (name : String) : Bool :=
  trail.all fun (s, p) => ((automaton.reductionsOf s).get name).contains p

/-- Whether reductions that lead from the first stack to the second leave a terminal as it was, taken
or not.  They do if it selects all of them itself.  If it cannot come behind a rule that they reduce,
it is not taken any more.  Otherwise there is something else to do for it in one of the states, and
it depends on the stacks. -/
def unaffected {ν : Type} (trail : List (Nat × Nat)) (first second : List (Frame ν))
    (name : String) : Bool :=
  let taken (stack : List (Frame ν)) := (automaton.takes stack name).toOption == some true
  automaton.selects trail name ||
    if automaton.admits trail name then taken first == taken second else !taken first

end Definitions

variable {σ ν : Type} {automaton : Automaton} {reduce : σ → Production → List ν → σ × ν}
  {terminal name : String} {value : ν} {store : σ} {stack rest last : List (Frame ν)}
  {frame : Frame ν} {symbols : List String} {symbol : String} {fuel : Nat}

theorem topState_eq_headD (stack : List (Frame ν)) :
    topState stack = (stack.map (·.state)).headD 0 := by
  cases stack <;> rfl

/-- Symbols on top of the stack lead from the state below them to the top state. -/
theorem Linked.spell?_eq {left below : List String}
    (linked : Linked automaton (left.reverse ++ below) stack) :
    automaton.states.spell? (topState (stack.drop left.length)) left = some (topState stack) := by
  induction left using List.reverseRecOn generalizing stack with
  | nil => rfl
  | append_singleton left symbol ih =>
      rw [List.reverse_append, List.reverse_singleton, List.singleton_append,
        List.cons_append] at linked
      cases linked with
      | cons move linked =>
          rw [States.spell?_concat, List.length_append, List.length_singleton, List.drop_succ_cons,
            ih linked]
          exact move

/-- What can come behind a rule comes behind the last symbol that was reduced to it. -/
theorem before_of_reduced {production : Production} {p next : Nat} {below : List String}
    (linked : Linked automaton (symbol :: symbols) (frame :: rest))
    (found : automaton.table.productions[p]? = some production) (nonempty : production.symbols ≠ [])
    (split : symbol :: symbols = production.symbols.reverse ++ below)
    (move : automaton.states.move? (topState ((frame :: rest).drop production.symbols.length))
      production.origin = some next)
    (before : RuleMove.Before automaton.table name
      ⟨topState ((frame :: rest).drop production.symbols.length), production.origin⟩) :
    RuleMove.Before automaton.table name ⟨topState rest, symbol⟩ := by
  obtain ⟨left, final, whole⟩ := List.eq_nil_or_concat production.symbols |>.resolve_left nonempty
  rw [List.concat_eq_append] at whole
  rw [whole, List.reverse_append, List.reverse_singleton, List.singleton_append, List.cons_append]
    at split
  obtain ⟨rfl, rfl⟩ := List.cons.inj split
  rw [whole, List.length_append, List.length_singleton, List.drop_succ_cons] at move before
  cases linked with
  | cons _ linked =>
      have spelled := linked.spell?_eq
      rw [automaton.states_eq] at move spelled
      exact .last found whole move spelled before

theorem feedUpTo_add {outcome : Outcome σ ν}
    (fed : automaton.feedUpTo reduce terminal value fuel store stack = .ok outcome) (more : Nat) :
    automaton.feedUpTo reduce terminal value (fuel + more) store stack = .ok outcome := by
  induction fuel generalizing store stack with
  | zero => cases fed
  | succ fuel ih =>
      rw [Nat.add_right_comm]
      rw [feedUpTo] at fed ⊢
      cases action : automaton.action? (topState stack) terminal with
      | none =>
          rw [action] at fed
          exact fed
      | some act =>
          rw [action] at fed
          cases act with
          | shift next => exact fed
          | reduce p =>
              simp only at fed ⊢
              split
              · next stuck =>
                  rw [stuck] at fed
                  cases fed
              · next next move =>
                  rw [move] at fed
                  simp only at fed
                  split
                  · next ended =>
                      rw [if_pos ended] at fed
                      exact fed
                  · next onward =>
                      rw [if_neg onward] at fed
                      exact ih fed

theorem outcome_eq {outcome other : Outcome σ ν} {fuel' : Nat}
    (fed : automaton.feedUpTo reduce terminal value fuel store stack = .ok outcome)
    (fed' : automaton.feedUpTo reduce terminal value fuel' store stack = .ok other) :
    outcome = other := by
  have same := feedUpTo_add fed fuel'
  rw [Nat.add_comm, feedUpTo_add fed' fuel] at same
  exact (Except.ok.inj same).symm

theorem takes_congr {stack' : List (Frame ν)} (same : stack.map (·.state) = stack'.map (·.state))
    (name : String) : automaton.takes stack name = automaton.takes stack' name := by
  have bare : ∀ frames : List (Frame ν), frames.map (fun frame => (⟨frame.state, ()⟩ : Frame Unit)) =
      (frames.map (·.state)).map (⟨·, ()⟩) := by
    intro frames
    rw [List.map_map]
    rfl
  rw [takes, takes, bare, bare, same]

section Proper

variable (proper : automaton.table.Proper)

include proper

/-- A terminal that selects a production is taken if it is taken behind the reduction. -/
theorem takes_of_action? {p next : Nat} {production : Production}
    (linked : Linked automaton symbols stack)
    (action : automaton.action? (topState stack) name = some (.reduce p))
    (found : automaton.table.productions[p]? = some production)
    (move : automaton.states.move? (topState (stack.drop production.symbols.length))
      production.origin = some next)
    (onward : (name = endMarker && automaton.isFinal next) = false) (same : frame.state = next) :
    automaton.takes stack name =
      automaton.takes (frame :: stack.drop production.symbols.length) name := by
  -- the values do not matter, so that any will do
  obtain ⟨reduce, giving⟩ : ∃ reduce : Unit → Production → List ν → Unit × ν,
    reduce = fun _ _ _ => ((), frame.value) := ⟨_, rfl⟩
  obtain ⟨fuel, enough⟩ :=
    exists_feed_eq_feedUpTo automaton reduce name frame.value () stack
  obtain ⟨last, made, reduced⟩ := exists_feedUpTo_of_reduce reduce frame.value () action found move
  have linked' : ∃ symbols, Linked automaton symbols
      (⟨next, made⟩ :: stack.drop production.symbols.length) :=
    ⟨_, .cons move (linked.drop production.symbols.length)⟩
  obtain ⟨_, linked'⟩ := linked'
  obtain ⟨outcome, fed, -⟩ := exists_feeds proper linked reduce name frame.value ()
  obtain ⟨outcome', fed', -⟩ := exists_feeds proper linked' reduce name frame.value last
  have behind := fed
  rw [enough, reduced, onward] at behind
  have alike := outcome_eq behind fed'
  have states : (frame :: stack.drop production.symbols.length).map (·.state) =
      (⟨next, made⟩ :: stack.drop production.symbols.length : List (Frame ν)).map (·.state) := by
    rw [List.map_cons, List.map_cons, same]
  rw [takes_congr states, takes_eq reduce frame.value (), takes_eq reduce frame.value last, fed,
    fed', alike]

variable (unread : ∀ s, automaton.states.move? s endMarker = none)
  (isTerminal : name = endMarker ∨ automaton.table.isTerminal name = true)

include unread isTerminal

omit proper in
theorem isTerminal_of_move? {s target : Nat}
    (reads : automaton.states.move? s name = some target) :
    automaton.table.isTerminal name = true := by
  rcases isTerminal with ended | isTerminal
  · rw [ended, unread] at reads
    cases reads
  · exact isTerminal

/-- What can come behind the rule of a reduction that is made for it can come behind the symbol on
top of the stack. -/
theorem before_of_action? {p next : Nat} {production : Production} {below : List String}
    (linked : Linked automaton (symbol :: symbols) (frame :: rest))
    (action : automaton.action? frame.state name = some (.reduce p))
    (found : automaton.table.productions[p]? = some production)
    (split : symbol :: symbols = production.symbols.reverse ++ below)
    (move : automaton.states.move? (topState ((frame :: rest).drop production.symbols.length))
      production.origin = some next)
    (before : RuleMove.Before automaton.table name
      ⟨topState ((frame :: rest).drop production.symbols.length), production.origin⟩) :
    RuleMove.Before automaton.table name ⟨topState rest, symbol⟩ := by
  by_cases empty : production.symbols = []
  · rw [empty, List.length_nil, List.drop_zero] at move
    rcases move?_after_empty proper.disjoint proper.guarded found empty action move with
      ⟨target, reads⟩ | ⟨-, bottom, -⟩
    · have isTerminal := isTerminal_of_move? unread isTerminal reads
      cases linked with
      | cons earlier _ =>
          rw [automaton.states_eq] at earlier move reads
          have nullable := RuleTable.isNullable_of_empty (Array.mem_of_getElem? found) empty
          exact .past earlier nullable move reads isTerminal
    · have begun : automaton.states.Contains (topState (frame :: rest))
          ⟨automaton.table.goal, 0⟩ := by
        rw [topState, bottom, automaton.states_eq]
        exact States.contains_zero_goal _
      cases linked.eq_nil_of_goal begun
  · exact before_of_reduced linked found empty split move before

/-- A terminal that is taken can come behind the symbol on top of the stack. -/
theorem before_of_feedUpTo {outcome : Outcome σ ν}
    (linked : Linked automaton (symbol :: symbols) (frame :: rest))
    (fed : automaton.feedUpTo reduce name value fuel store (frame :: rest) = .ok outcome)
    (taken : outcome.taken = true) :
    RuleMove.Before automaton.table name ⟨topState rest, symbol⟩ := by
  induction fuel generalizing symbol symbols frame rest store with
  | zero => cases fed
  | succ fuel ih =>
      cases action : automaton.action? frame.state name with
      | none =>
          rw [feedUpTo, topState, action] at fed
          obtain rfl := Except.ok.inj fed
          cases taken
      | some act =>
          cases act with
          | shift target =>
              have reads := action?_eq_shift_iff.1 action
              have isTerminal := isTerminal_of_move? unread isTerminal reads
              cases linked with
              | cons move _ =>
                  rw [automaton.states_eq] at move reads
                  exact .read move reads isTerminal
          | reduce p =>
              obtain ⟨production, below, last, frame', rest', found, split, step, move, above,
                dropped, onward⟩ := feedUpTo_of_reduce linked action
              rw [onward] at fed
              have before : RuleMove.Before automaton.table name
                  ⟨topState rest', production.origin⟩ := by
                by_cases final : (name = endMarker && automaton.isFinal frame'.state) = true
                · rw [Bool.and_eq_true, decide_eq_true_eq] at final
                  obtain ⟨start, begun⟩ := contains_goal_of_isFinal final.2 move
                  cases above with
                  | cons _ linked' =>
                      obtain rfl := linked'.eq_nil_of_goal begun
                      exact start ▸ .ended final.1
                · rw [if_neg final] at fed
                  exact ih above fed
              rw [dropped] at move before
              exact before_of_action? proper unread isTerminal linked action found split move before

omit proper in
/-- A terminal that is taken is among those for which the top state has an action. -/
theorem mem_choices_of_takes (takes : automaton.takes stack name = .ok true) :
    name ∈ automaton.choices (topState stack) := by
  obtain ⟨fuel, enough⟩ := exists_feed_eq_feedUpTo automaton (fun _ _ _ => ((), ())) name () ()
    (stack.map (Frame.map fun _ => ()))
  rw [takes_eq_bare, enough, feedUpTo, topState_map] at takes
  cases action : automaton.action? (topState stack) name with
  | none =>
      rw [action] at takes
      cases takes
  | some act =>
      cases act with
      | shift next =>
          have reads := action?_eq_shift_iff.1 action
          exact mem_choices_of_move? reads (isTerminal_of_move? unread isTerminal reads)
      | reduce p => exact mem_choices_of_mem_reductions (mem_reductions_of_action? action).2

end Proper

section Start

variable {s p next : Nat} {production : Production}
  (topmost : ∀ production ∈ automaton.table.productions,
    automaton.table.start ∉ production.symbols)

include topmost

/-- Nothing can be read behind the start if no production uses it. -/
theorem not_mem_symbolsFrom_of_start
    (move : automaton.states.move? s automaton.table.start = some next) (symbol : String) :
    symbol ∉ automaton.states.symbolsFrom next := by
  intro listed
  rw [automaton.states_eq] at move listed
  obtain ⟨_, onward⟩ := States.mem_symbolsFrom_iff.1 listed
  obtain ⟨rule, contains, after⟩ := States.exists_waiting_of_move? onward
  have past := States.contains_induction move
    (P := fun rule => automaton.table.symbolAfter? rule = none) ?_ ?_ rule contains
  · cases after.symm.trans past
  · intro earlier contains waiting
    obtain ⟨p, dot⟩ := earlier
    obtain ⟨numbered, -⟩ := RuleTable.mem_stateItems.1 contains.mem_stateItems
    rcases Nat.eq_or_lt_of_le numbered with goal | below
    · obtain rfl : p = automaton.table.goal := goal
      simp [RuleTable.symbolAfter?, RuleTable.body, DottedRule.advance]
    · have found := Array.getElem?_eq_getElem below
      rw [RuleTable.symbolAfter?, RuleTable.body_of_getElem? found] at waiting
      exact absurd (List.mem_of_getElem? waiting) (topmost _ (Array.mem_of_getElem? found))
  · intro outer entered past enters
    obtain ⟨-, _, -, waiting⟩ := RuleTable.mem_enteredBy.1 enters
    cases waiting.symm.trans past

theorem symbolsAfter_eq_nil {move : RuleMove} (rule : move.rule = automaton.table.start) :
    move.symbolsAfter automaton.states = [] := by
  rw [RuleMove.symbolsAfter, rule]
  cases leads : automaton.states.move? move.state automaton.table.start with
  | none => rfl
  | some next =>
      exact List.eq_nil_iff_forall_not_mem.2 (not_mem_symbolsFrom_of_start topmost leads)

/-- Only the end comes behind the start if no production uses it. -/
theorem eq_endMarker_of_start (found : automaton.table.productions[p]? = some production)
    (start : production.origin = automaton.table.start)
    (listed : p ∈ (automaton.reductionsOf s).get terminal) : terminal = endMarker := by
  obtain ⟨_, -, -, follows⟩ := complete_of_mem_reductions listed
  have reached := RuleMove.exists_of_mem_followers follows
    (P := fun move => move.rule = automaton.table.start) ?_ ?_ ?_
  · obtain ⟨_, rule, comes⟩ := reached
    rw [RuleMove.terminalsAfter, symbolsAfter_eq_nil topmost rule, List.filter_nil,
      List.append_nil] at comes
    split at comes
    · exact List.mem_singleton.1 comes
    · cases comes
  · intro move member
    exact ((RuleMove.mem_reductionMoves found).1 member).2.1.trans start
  · intro move rule outer enclosing
    obtain ⟨user, member, left, right, split, -⟩ :=
      RuleMove.exists_split_of_mem_outerMoves enclosing
    have used : automaton.table.start ∈ user.symbols := by simp [split, rule]
    exact absurd used (topmost user member)
  · intro move rule later behind
    have none := symbolsAfter_eq_nil topmost rule
    rw [RuleMove.symbolsAfter] at none
    rw [RuleMove.emptyAfter] at behind
    cases leads : automaton.states.move? move.state move.rule with
    | none =>
        rw [leads] at behind
        cases behind
    | some next =>
        rw [leads] at none behind
        simp only [none, List.filter_nil, List.map_nil, List.not_mem_nil] at behind

end Start

/-- The way of a terminal to its refusal: the reductions made for it, none of an empty production and
none to the start. -/
inductive Refuses (automaton : Automaton) (terminal : String) (last : List (Frame ν)) :
    (trail : List (Nat × Nat)) → (symbols : List String) → List (Frame ν) → Prop where
  | stuck {symbols : List String} (linked : Linked automaton symbols last) :
      Refuses automaton terminal last [] symbols last
  | reduced {p : Nat} {production : Production} {below : List String} {frame : Frame ν}
      {stack : List (Frame ν)} {trail : List (Nat × Nat)}
      (linked : Linked automaton (production.symbols.reverse ++ below) stack)
      (action : automaton.action? (topState stack) terminal = some (.reduce p))
      (found : automaton.table.productions[p]? = some production)
      (nonempty : production.symbols ≠ []) (inner : production.origin ≠ automaton.table.start)
      (move : automaton.states.move? (topState (stack.drop production.symbols.length))
        production.origin = some frame.state)
      (rest : Refuses automaton terminal last trail (production.origin :: below)
        (frame :: stack.drop production.symbols.length)) :
      Refuses automaton terminal last ((topState stack, p) :: trail)
        (production.symbols.reverse ++ below) stack

section Refused

variable (proper : automaton.table.Proper)

include proper

theorem Refuses.of_feedUpTo {store' : σ}
    (topmost : ∀ production ∈ automaton.table.productions,
      automaton.table.start ∉ production.symbols) (inner : terminal ≠ endMarker)
    (linked : Linked automaton symbols stack)
    (fed : automaton.feedUpTo reduce terminal value fuel store stack = .ok (.refused store' last)) :
    Refuses automaton terminal last (automaton.trailUpTo terminal fuel (stack.map (·.state))) symbols
      stack := by
  induction fuel generalizing store stack symbols with
  | zero => cases fed
  | succ fuel ih =>
      rw [trailUpTo, ← topState_eq_headD]
      cases action : automaton.action? (topState stack) terminal with
      | none =>
          rw [feedUpTo, action] at fed
          obtain ⟨-, rfl⟩ := Outcome.refused.inj (Except.ok.inj fed)
          exact .stuck linked
      | some act =>
          cases act with
          | shift next =>
              rw [feedUpTo, action] at fed
              cases fed
          | reduce p =>
              obtain ⟨production, below, middle, frame, rest, found, rfl, step, move, above, rfl,
                onward⟩ := feedUpTo_of_reduce linked action
              have refused : ¬ (terminal = endMarker && automaton.isFinal frame.state) = true := by
                simp [inner]
              rw [onward, if_neg refused] at fed
              have nonempty : production.symbols ≠ [] := by
                intro empty
                rw [empty, List.length_nil, List.drop_zero] at move fed
                rcases move?_after_empty proper.disjoint proper.guarded found empty action move with
                  ⟨target, reads⟩ | ⟨ended, -, -⟩
                · cases fuel with
                  | zero => cases fed
                  | succ fuel =>
                      rw [feedUpTo_of_move? reads] at fed
                      cases fed
                · exact inner ended
              have inside : production.origin ≠ automaton.table.start := fun start =>
                inner (eq_endMarker_of_start topmost found start
                  (mem_reductions_of_action? action).2)
              have listed : automaton.table.productions.getD p default = production := by
                rw [Array.getD_eq_getD_getElem?, found, Option.getD_some]
              have states : (automaton.states.move?
                    (((stack.map (·.state)).drop production.symbols.length).headD 0)
                    production.origin).toList ++
                  (stack.map (·.state)).drop production.symbols.length =
                  (frame :: stack.drop production.symbols.length).map (·.state) := by
                rw [← List.map_drop, ← topState_eq_headD, move]
                rfl
              simp only [listed, states]
              exact .reduced linked action found nonempty inside move (ih above fed)

/-- A terminal that selects the same reductions is taken behind them as in front of them. -/
theorem Refuses.takes_eq {trail : List (Nat × Nat)}
    (refuses : Refuses automaton terminal last trail symbols stack)
    (selects : selects automaton trail name = true) :
    automaton.takes stack name = automaton.takes last name := by
  induction refuses with
  | stuck => rfl
  | @reduced p production below frame stack trail linked action found nonempty inner move _ ih =>
      rw [Automaton.selects, List.all_cons, Bool.and_eq_true] at selects
      have chosen : automaton.action? (topState stack) name = some (.reduce p) := by
        simpa using selects.1
      have onward : (name = endMarker && automaton.isFinal frame.state) = false := by
        rw [Bool.and_eq_false_iff]
        refine .inr (Bool.eq_false_iff.2 fun final => inner ?_)
        exact (contains_goal_of_isFinal final move).1
      rw [takes_of_action? proper linked chosen found move onward rfl]
      exact ih selects.2

variable (unread : ∀ s, automaton.states.move? s endMarker = none)
  (isTerminal : name = endMarker ∨ automaton.table.isTerminal name = true)

include unread isTerminal

/-- A terminal that is taken behind the reductions can come behind the rules that were reduced. -/
theorem Refuses.admits_of_takes {trail : List (Nat × Nat)}
    (refuses : Refuses automaton terminal last trail symbols stack)
    (takes : automaton.takes last name = .ok true) :
    admits automaton trail name = true ∧ ∀ symbol below frame rest, symbols = symbol :: below →
      stack = frame :: rest → RuleMove.Before automaton.table name ⟨topState rest, symbol⟩ := by
  induction refuses with
  | stuck linked =>
      refine ⟨rfl, ?_⟩
      intro symbol below frame rest rfl rfl
      obtain ⟨outcome, fed, -, taken⟩ := exists_feeds_of_takes proper linked takes
        (fun _ _ _ => ((), frame.value)) frame.value ()
      exact before_of_feedUpTo proper unread isTerminal linked fed taken
  | @reduced p production below frame stack trail linked action found nonempty inner move _ ih =>
      obtain ⟨admitted, behind⟩ := ih
      have before := behind _ _ _ _ rfl rfl
      have spelled := linked.spell?_eq
      constructor
      · rw [admits, List.all_cons, Bool.and_eq_true]
        refine ⟨List.contains_iff_mem.2 ?_, admitted⟩
        exact mem_reductions_of_before found move spelled before
      · intro symbol below' frame' rest' split rfl
        exact before_of_reduced (split ▸ linked) found nonempty split.symm move before

omit proper unread isTerminal in
theorem Refuses.exists_linked {trail : List (Nat × Nat)}
    (refuses : Refuses automaton terminal last trail symbols stack) :
    ∃ symbols, Linked automaton symbols last := by
  induction refuses with
  | stuck linked => exact ⟨_, linked⟩
  | reduced _ _ _ _ _ _ _ ih => exact ih

/-- What is taken behind the reductions has an action in front of them. -/
theorem Refuses.mem_choices_of_takes {trail : List (Nat × Nat)}
    (refuses : Refuses automaton terminal last trail symbols stack)
    (takes : automaton.takes last name = .ok true) :
    name ∈ automaton.choices (topState stack) := by
  obtain ⟨admitted, -⟩ := refuses.admits_of_takes proper unread isTerminal takes
  cases refuses with
  | stuck => exact Automaton.mem_choices_of_takes unread isTerminal takes
  | reduced =>
      rw [admits, List.all_cons, Bool.and_eq_true] at admitted
      exact mem_choices_of_mem_reductions (List.contains_iff_mem.1 admitted.1)

theorem Refuses.unaffected_iff {trail : List (Nat × Nat)}
    (refuses : Refuses automaton terminal last trail symbols stack) :
    automaton.unaffected trail stack last name = true ↔
      (automaton.takes last name = .ok true ↔ automaton.takes stack name = .ok true) := by
  have taken : ∀ stack : List (Frame ν), ((automaton.takes stack name).toOption == some true) = true ↔
      automaton.takes stack name = .ok true := by
    intro stack
    cases automaton.takes stack name with
    | error fault => simp [Except.toOption]
    | ok verdict => simp [Except.toOption]
  rw [unaffected, ← taken, ← taken]
  cases selected : automaton.selects trail name with
  | true => simp [refuses.takes_eq proper selected]
  | false =>
      cases admitted : automaton.admits trail name with
      | true =>
          rw [Bool.false_or, if_pos rfl, beq_iff_eq, Bool.eq_iff_iff]
          exact ⟨Iff.symm, Iff.symm⟩
      | false =>
          have lost : automaton.takes last name ≠ .ok true := by
            intro takes
            cases admitted.symm.trans (refuses.admits_of_takes proper unread isTerminal takes).1
          rw [ne_eq, ← taken, Bool.not_eq_true] at lost
          simp [lost]

end Refused

end Automaton

end Typeahead
