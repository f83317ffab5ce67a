import Typeahead.Proofs.Automaton.Lookahead

namespace Typeahead

/-!
What the parser does with a terminal.  The states on its stack are linked by moves; a production
that is reduced stands on top of the stack, and its origin leads on from the state below.  The
reductions for one terminal come to an end, so every terminal is shifted, accepted or refused.
-/

/-- The rules of a parser whose reductions come to an end: productions with one symbol lead in no
circle, and rules with an empty production are used in front of terminals only. -/
structure RuleTable.Proper (table : RuleTable) : Prop where
  disjoint : table.Disjoint
  guarded : table.EmptyGuarded
  ranked : ∃ rank : String → Nat, (∀ symbol, rank symbol ≤ table.productions.size) ∧
    ∀ production ∈ table.productions, ∀ symbol, production.symbols = [symbol] →
      rank production.origin < rank symbol

def Frame.map {ν υ : Type} (f : ν → υ) (frame : Frame ν) : Frame υ := ⟨frame.state, f frame.value⟩

def Outcome.map {σ τ ν υ : Type} (g : σ → τ) (f : ν → υ) : Outcome σ ν → Outcome τ υ
  | .shifted store stack => .shifted (g store) (stack.map (Frame.map f))
  | .accepted store value stack => .accepted (g store) (f value) (stack.map (Frame.map f))
  | .refused store stack => .refused (g store) (stack.map (Frame.map f))

namespace Automaton

variable {σ ν : Type} {automaton : Automaton}

@[simp]
theorem topState_map {υ : Type} (f : ν → υ) (stack : List (Frame ν)) :
    topState (stack.map (Frame.map f)) = topState stack := by
  cases stack <;> rfl

/-- The symbols lead through the states of the stack, the last symbol to the top. -/
inductive Linked (automaton : Automaton) : List String → List (Frame ν) → Prop where
  | nil : Linked automaton [] []
  | cons {symbols : List String} {stack : List (Frame ν)} {symbol : String} {frame : Frame ν}
      (move : automaton.states.move? (topState stack) symbol = some frame.state)
      (below : Linked automaton symbols stack) :
      Linked automaton (symbol :: symbols) (frame :: stack)

namespace Linked

variable {symbols : List String} {stack : List (Frame ν)}

theorem length_eq (linked : Linked automaton symbols stack) : symbols.length = stack.length := by
  induction linked with
  | nil => rfl
  | cons _ _ ih => simp [ih]

theorem drop (linked : Linked automaton symbols stack) (count : Nat) :
    Linked automaton (symbols.drop count) (stack.drop count) := by
  induction linked generalizing count with
  | nil => simpa using Linked.nil
  | cons move below ih =>
      cases count with
      | zero => exact .cons move below
      | succ count => exact ih count

theorem map {υ : Type} (f : ν → υ) (linked : Linked automaton symbols stack) :
    Linked automaton symbols (stack.map (Frame.map f)) := by
  induction linked with
  | nil => exact .nil
  | cons move _ ih => exact .cons (by simpa [Frame.map] using move) ih

theorem of_map {υ : Type} (f : ν → υ)
    (linked : Linked automaton symbols (stack.map (Frame.map f))) :
    Linked automaton symbols stack := by
  induction stack generalizing symbols with
  | nil =>
      cases linked
      exact .nil
  | cons frame stack ih =>
      cases linked with
      | cons move below => exact .cons (by simpa [Frame.map] using move) (ih below)

/-- The symbols that a dotted rule of the top state has read are those on top of the stack, and
the rule was begun in the state below them. -/
theorem begun {p dot : Nat} (linked : Linked automaton symbols stack)
    (contains : automaton.states.Contains (topState stack) ⟨p, dot⟩) :
    dot ≤ stack.length ∧ symbols.take dot = ((automaton.table.body p).take dot).reverse ∧
      automaton.states.Contains (topState (stack.drop dot)) ⟨p, 0⟩ := by
  induction dot generalizing symbols stack with
  | zero => simpa using contains
  | succ dot ih =>
      rw [automaton.states_eq] at contains
      cases linked with
      | nil =>
          have front := contains.dot_eq_zero
          cases front
      | @cons symbols stack symbol frame move below =>
          rw [automaton.states_eq] at move
          obtain ⟨earlier, after⟩ := (States.contains_after_move? move).1 contains
          rw [← automaton.states_eq] at earlier
          obtain ⟨bound, read, first⟩ := ih below earlier
          obtain ⟨inside, here⟩ := List.getElem?_eq_some_iff.1 after
          refine ⟨by simpa using bound, ?_, by simpa using first⟩
          rw [List.take_succ_cons, read, List.take_succ_eq_append_getElem inside, here]
          simp

/-- A production that has been read to its end is on top of the stack, and its origin leads on from
the state below. -/
theorem ended {p : Nat} {production : Production} (linked : Linked automaton symbols stack)
    (found : automaton.table.productions[p]? = some production)
    (contains : automaton.states.Contains (topState stack) ⟨p, production.symbols.length⟩) :
    production.symbols.length ≤ stack.length ∧
      symbols.take production.symbols.length = production.symbols.reverse ∧
      ∃ next, automaton.states.move? (topState (stack.drop production.symbols.length))
        production.origin = some next := by
  obtain ⟨bound, read, first⟩ := linked.begun contains
  rw [RuleTable.body_of_getElem? found, List.take_length] at read
  rw [automaton.states_eq] at first ⊢
  obtain ⟨rule, waiting, after⟩ := first.exists_waiting found
  exact ⟨bound, read, States.exists_move? waiting after⟩

theorem eq_nil_of_goal (linked : Linked automaton symbols stack)
    (contains : automaton.states.Contains (topState stack) ⟨automaton.table.goal, 0⟩) :
    stack = [] := by
  cases linked with
  | nil => rfl
  | @cons symbols stack symbol frame move below =>
      rw [automaton.states_eq] at move contains
      have other := States.contains_induction move
        (P := fun rule => rule ≠ ⟨automaton.table.goal, 0⟩) ?_ ?_ _ contains
      · exact absurd rfl other
      · intro earlier _ _ same
        exact absurd (congrArg DottedRule.dot same) (Nat.succ_ne_zero _)
      · intro outer entered _ enters same
        obtain ⟨-, production, found, -⟩ := RuleTable.mem_enteredBy.1 enters
        have bound := RuleTable.lt_goal_of_getElem? found
        rw [same] at bound
        exact absurd bound (Nat.lt_irrefl _)

end Linked

theorem contains_goal_of_isFinal {s next : Nat} {symbol : String}
    (final : automaton.isFinal next = true)
    (move : automaton.states.move? s symbol = some next) :
    symbol = automaton.table.start ∧ automaton.states.Contains s ⟨automaton.table.goal, 0⟩ := by
  rw [isFinal, beq_iff_eq] at final
  rw [automaton.states_eq] at final move ⊢
  have start : automaton.table.symbolAfter? ⟨automaton.table.goal, 0⟩ =
      some automaton.table.start := by
    simp [RuleTable.symbolAfter?, RuleTable.body]
  have read := (States.contains_after_move? final).2
    ⟨States.contains_zero_goal automaton.table, start⟩
  obtain ⟨begun, after⟩ := (States.contains_after_move? move).1 read
  exact ⟨Option.some.inj (after.symm.trans start), begun⟩

section Reductions

variable (reduce : σ → Production → List ν → σ × ν) (terminal : String)

/-- One reduction that the terminal asks for. -/
inductive Reduces (automaton : Automaton) : σ → List (Frame ν) → σ → List (Frame ν) → Prop where
  | mk {store : σ} {popped rest : List (Frame ν)} {p next : Nat} {production : Production}
      (action : automaton.action? (topState (popped ++ rest)) terminal = some (.reduce p))
      (found : automaton.table.productions[p]? = some production)
      (sized : popped.length = production.symbols.length)
      (move : automaton.states.move? (topState rest) production.origin = some next) :
      Reduces automaton store (popped ++ rest)
        (reduce store production (popped.map (·.value)).reverse).1
        (⟨next, (reduce store production (popped.map (·.value)).reverse).2⟩ :: rest)

/-- Reductions that the terminal asks for, one after the other. -/
inductive Runs (automaton : Automaton) (store : σ) (stack : List (Frame ν)) :
    σ → List (Frame ν) → Prop where
  | refl : Runs automaton store stack store stack
  | tail {middle last : σ} {middleStack lastStack : List (Frame ν)}
      (run : Runs automaton store stack middle middleStack)
      (step : Reduces reduce terminal automaton middle middleStack last lastStack) :
      Runs automaton store stack last lastStack

/-- What becomes of a terminal with the given value: reductions, and then the terminal is shifted
or refused, or the last of the reductions accepts. -/
inductive Feeds (automaton : Automaton) (value : ν) (store : σ) (stack : List (Frame ν)) :
    Outcome σ ν → Prop where
  | shifted {last : σ} {lastStack : List (Frame ν)} {next : Nat}
      (run : Runs reduce terminal automaton store stack last lastStack)
      (move : automaton.states.move? (topState lastStack) terminal = some next) :
      Feeds automaton value store stack (.shifted last (⟨next, value⟩ :: lastStack))
  | accepted {middle last : σ} {middleStack rest : List (Frame ν)} {frame : Frame ν}
      (run : Runs reduce terminal automaton store stack middle middleStack)
      (step : Reduces reduce terminal automaton middle middleStack last (frame :: rest))
      (ended : terminal = endMarker) (final : automaton.isFinal frame.state = true) :
      Feeds automaton value store stack (.accepted last frame.value (frame :: rest))
  | refused {last : σ} {lastStack : List (Frame ν)}
      (run : Runs reduce terminal automaton store stack last lastStack)
      (stuck : automaton.action? (topState lastStack) terminal = none) :
      Feeds automaton value store stack (.refused last lastStack)

end Reductions

section Feed

variable {reduce : σ → Production → List ν → σ × ν} {terminal : String} {value : ν}
  {store middle last : σ} {stack middleStack lastStack : List (Frame ν)} {symbols : List String}

/-- What one reduction can do: it takes the symbols of a production off the stack, with their
values, and puts the origin there. -/
theorem Reduces.exists_production (linked : Linked automaton symbols stack)
    (step : Reduces reduce terminal automaton store stack last lastStack) :
    ∃ p production popped rest restSymbols next,
      automaton.action? (topState stack) terminal = some (.reduce p) ∧
      automaton.table.productions[p]? = some production ∧
      stack = popped ++ rest ∧ symbols = production.symbols.reverse ++ restSymbols ∧
      popped.length = production.symbols.length ∧ Linked automaton restSymbols rest ∧
      automaton.states.move? (topState rest) production.origin = some next ∧
      last = (reduce store production (popped.map (·.value)).reverse).1 ∧
      lastStack = ⟨next, (reduce store production (popped.map (·.value)).reverse).2⟩ :: rest := by
  cases step with
  | @mk popped rest p next production action found sized move =>
      obtain ⟨-, listed⟩ := mem_reductions_of_action? action
      obtain ⟨other, otherFound, contains, -⟩ := complete_of_mem_reductions listed
      have same : production = other := Option.some.inj (found.symm.trans otherFound)
      subst same
      obtain ⟨-, read, -⟩ := linked.ended found contains
      refine ⟨p, production, popped, rest, symbols.drop production.symbols.length, next, action,
        found, rfl, ?_, sized, ?_, move, rfl, rfl⟩
      · rw [← read, List.take_append_drop]
      · have below := linked.drop production.symbols.length
        rwa [← sized, List.drop_left, sized] at below

theorem Reduces.linked (linked : Linked automaton symbols stack)
    (step : Reduces reduce terminal automaton store stack last lastStack) :
    ∃ symbols, Linked automaton symbols lastStack := by
  obtain ⟨_, production, _, rest, restSymbols, next, -, -, -, -, -, below, move, -, rfl⟩ :=
    step.exists_production linked
  exact ⟨production.origin :: restSymbols, .cons move below⟩

/-- The reduction that accepts takes the whole stack for a production of the start. -/
theorem Reduces.of_isFinal {frame : Frame ν} {rest : List (Frame ν)}
    (linked : Linked automaton symbols stack)
    (step : Reduces reduce terminal automaton store stack last (frame :: rest))
    (final : automaton.isFinal frame.state = true) :
    rest = [] ∧ ∃ production ∈ automaton.table.productions,
      production.origin = automaton.table.start ∧ symbols = production.symbols.reverse ∧
      last = (reduce store production (stack.map (·.value)).reverse).1 ∧
      frame.value = (reduce store production (stack.map (·.value)).reverse).2 := by
  obtain ⟨p, production, popped, below, restSymbols, next, -, found, rfl, rfl, sized, linkedBelow,
    move, rfl, made⟩ := step.exists_production linked
  obtain ⟨rfl, rfl⟩ := List.cons.inj made
  obtain ⟨start, begun⟩ := contains_goal_of_isFinal final move
  have bottom := linkedBelow.eq_nil_of_goal begun
  subst bottom
  have none : restSymbols = [] := List.eq_nil_of_length_eq_zero (by simp [linkedBelow.length_eq])
  refine ⟨rfl, production, Array.mem_of_getElem? found, start, by simp [none], ?_, ?_⟩
  · rw [List.append_nil]
  · rw [List.append_nil]

theorem Runs.head (step : Reduces reduce terminal automaton store stack middle middleStack)
    (run : Runs reduce terminal automaton middle middleStack last lastStack) :
    Runs reduce terminal automaton store stack last lastStack := by
  induction run with
  | refl => exact .tail .refl step
  | tail _ later ih => exact ih.tail later

theorem Runs.linked (run : Runs reduce terminal automaton store stack last lastStack)
    (linked : Linked automaton symbols stack) : ∃ symbols, Linked automaton symbols lastStack := by
  induction run with
  | refl => exact ⟨symbols, linked⟩
  | tail _ step ih =>
      obtain ⟨_, middle⟩ := ih
      exact step.linked middle

theorem Feeds.head {outcome : Outcome σ ν}
    (step : Reduces reduce terminal automaton store stack middle middleStack)
    (feeds : Feeds reduce terminal automaton value middle middleStack outcome) :
    Feeds reduce terminal automaton value store stack outcome := by
  cases feeds with
  | shifted run move => exact .shifted (run.head step) move
  | accepted run final ended isFinal => exact .accepted (run.head step) final ended isFinal
  | refused run stuck => exact .refused (run.head step) stuck

theorem feedUpTo_of_reduce {p fuel : Nat} (linked : Linked automaton symbols stack)
    (action : automaton.action? (topState stack) terminal = some (.reduce p)) :
    ∃ production restSymbols last frame rest,
      automaton.table.productions[p]? = some production ∧
      symbols = production.symbols.reverse ++ restSymbols ∧
      Reduces reduce terminal automaton store stack last (frame :: rest) ∧
      automaton.states.move? (topState rest) production.origin = some frame.state ∧
      Linked automaton (production.origin :: restSymbols) (frame :: rest) ∧
      rest = stack.drop production.symbols.length ∧
      automaton.feedUpTo reduce terminal value (fuel + 1) store stack =
        if terminal = endMarker && automaton.isFinal frame.state then
          .ok (.accepted last frame.value (frame :: rest))
        else automaton.feedUpTo reduce terminal value fuel last (frame :: rest) := by
  obtain ⟨-, listed⟩ := mem_reductions_of_action? action
  obtain ⟨production, found, contains, -⟩ := complete_of_mem_reductions listed
  obtain ⟨bound, read, next, move⟩ := linked.ended found contains
  have split := List.take_append_drop production.symbols.length stack
  have sized : (stack.take production.symbols.length).length = production.symbols.length := by
    rw [List.length_take]
    omega
  have listed : automaton.table.productions.getD p default = production := by
    rw [Array.getD_eq_getD_getElem?, found, Option.getD_some]
  have action' : automaton.action? (topState (stack.take production.symbols.length ++
      stack.drop production.symbols.length)) terminal = some (.reduce p) := by
    rwa [split]
  have step : Reduces reduce terminal automaton store (stack.take production.symbols.length ++
      stack.drop production.symbols.length) _ _ := .mk action' found sized move
  rw [split] at step
  refine ⟨production, symbols.drop production.symbols.length, _, _, _, found, ?_, step, move,
    .cons move (linked.drop _), rfl, ?_⟩
  · rw [← read, List.take_append_drop]
  · simp only [feedUpTo, action, listed, move]

/-- A bound for the reductions that can follow without an empty one among them. -/
def weight (rank : String → Nat) (bound : Nat) (symbols : List String) : Nat :=
  symbols.length * (bound + 1) + symbols.head?.elim 0 rank

/-- A reduction that is not empty makes the stack shorter or lowers the rank of its last symbol. -/
theorem weight_lt {rank : String → Nat} {bound : Nat} (bounded : ∀ symbol, rank symbol ≤ bound)
    {production : Production} (restSymbols : List String) (nonempty : production.symbols ≠ [])
    (unit : ∀ symbol, production.symbols = [symbol] → rank production.origin < rank symbol) :
    weight rank bound (production.origin :: restSymbols) <
      weight rank bound (production.symbols.reverse ++ restSymbols) := by
  rcases production with ⟨origin, symbols⟩
  have low := bounded origin
  simp only [weight, List.head?_cons, Option.elim_some, List.length_append, List.length_reverse,
    List.length_cons]
  match symbols, nonempty, unit with
  | [symbol], _, unit =>
      have falls : rank origin < rank symbol := unit symbol rfl
      simp only [List.length_singleton, List.reverse_singleton, List.singleton_append,
        List.head?_cons, Option.elim_some]
      have same : (restSymbols.length + 1) * (bound + 1) =
        (1 + restSymbols.length) * (bound + 1) := by rw [Nat.add_comm]
      omega
  | first :: second :: rest, _, _ =>
      have longer : (restSymbols.length + 1) * (bound + 1) + (bound + 1) ≤
          ((first :: second :: rest).length + restSymbols.length) * (bound + 1) := by
        rw [← Nat.succ_mul]
        apply Nat.mul_le_mul_right
        simp only [List.length_cons]
        omega
      omega

theorem exists_feeds_of_weight {rank : String → Nat} {fuel : Nat}
    (disjoint : automaton.table.Disjoint) (guarded : automaton.table.EmptyGuarded)
    (bounded : ∀ symbol, rank symbol ≤ automaton.table.productions.size)
    (units : ∀ production ∈ automaton.table.productions, ∀ symbol,
      production.symbols = [symbol] → rank production.origin < rank symbol)
    (linked : Linked automaton symbols stack)
    (enough : weight rank automaton.table.productions.size symbols + 2 ≤ fuel) :
    ∃ outcome, automaton.feedUpTo reduce terminal value fuel store stack = .ok outcome ∧
      Feeds reduce terminal automaton value store stack outcome := by
  induction fuel generalizing store stack symbols with
  | zero => omega
  | succ fuel ih =>
      cases action : automaton.action? (topState stack) terminal with
      | none => exact ⟨_, by simp only [feedUpTo, action], .refused .refl action⟩
      | some act =>
          cases act with
          | shift next =>
              have move := action?_eq_shift_iff.1 action
              exact ⟨_, by simp only [feedUpTo, action], .shifted .refl move⟩
          | reduce p =>
              obtain ⟨production, restSymbols, last, frame, rest, found, read, step, move, above,
                dropped, onward⟩ := feedUpTo_of_reduce linked action
              rw [onward]
              by_cases final : (terminal = endMarker && automaton.isFinal frame.state) = true
              · rw [if_pos final]
                rw [Bool.and_eq_true, decide_eq_true_eq] at final
                exact ⟨_, rfl, .accepted .refl step final.1 final.2⟩
              · rw [if_neg final]
                by_cases empty : production.symbols = []
                · -- nothing but a shift can follow an empty production
                  have beneath : topState rest = topState stack := by rw [dropped, empty]; rfl
                  rw [beneath] at move
                  rcases move?_after_empty disjoint guarded found empty action move with
                    ⟨target, shift⟩ | ⟨ended, bottom, start⟩
                  · obtain ⟨spare, rfl⟩ : ∃ spare, fuel = spare + 1 := ⟨fuel - 1, by omega⟩
                    have act := action?_eq_shift_iff.2 shift
                    refine ⟨_, ?_, Feeds.head step (.shifted .refl shift)⟩
                    simp only [feedUpTo, topState, act]
                  · have isFinal : automaton.isFinal frame.state = true := by
                      rw [bottom, start] at move
                      simp [Automaton.isFinal, move]
                    exact absurd (by simp [ended, isFinal]) final
                · have lighter := weight_lt bounded restSymbols empty
                    (units production (Array.mem_of_getElem? found))
                  rw [← read] at lighter
                  obtain ⟨outcome, fed, feeds⟩ := ih above (by omega)
                  exact ⟨outcome, fed, feeds.head step⟩

/-- Every terminal is shifted, accepted or refused. -/
theorem exists_feeds (proper : automaton.table.Proper) (linked : Linked automaton symbols stack)
    (reduce : σ → Production → List ν → σ × ν) (terminal : String) (value : ν) (store : σ) :
    ∃ outcome, automaton.feed reduce terminal value store stack = .ok outcome ∧
      Feeds reduce terminal automaton value store stack outcome := by
  obtain ⟨rank, bounded, units⟩ := proper.ranked
  apply exists_feeds_of_weight proper.disjoint proper.guarded bounded units linked
  have top : symbols.head?.elim 0 rank ≤ automaton.table.productions.size := by
    cases symbols with
    | nil => exact Nat.zero_le _
    | cons symbol _ => exact bounded symbol
  rw [weight, linked.length_eq]
  have expand : (stack.length + 2) * (automaton.table.productions.size + 2) =
      stack.length * (automaton.table.productions.size + 1) + stack.length +
        2 * automaton.table.productions.size + 4 := by
    simp only [Nat.add_mul, Nat.mul_add]
    omega
  omega

end Feed

end Automaton

end Typeahead
