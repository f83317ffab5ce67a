import Typeahead.Proofs.Automaton.Acceptable
import Typeahead.Proofs.Derivation

namespace Typeahead

/-!
What the stack of the parser says about the input.  The symbols on it yield the terminals that have
been consumed, and every dotted rule of the top state stands in a derivation of an input that begins
with them.  So whatever the parser would take next, a derivation puts there.
-/

namespace RuleTable

variable {table : RuleTable} {read : List String} {rule entered : DottedRule} {symbol : String}

/-- Production `p`, which may be the goal, can be entered after `front`. -/
def Begins (table : RuleTable) (front : List String) (p : Nat) : Prop :=
  (p = table.goal ∧ front = []) ∨
    ∃ production, table.productions[p]? = some production ∧ table.Opens front production.origin

/-- The dotted rule stands in a derivation of an input that begins with `read`. -/
def Valid (table : RuleTable) (read : List String) (rule : DottedRule) : Prop :=
  ∃ front between, read = front ++ between ∧ table.Begins front rule.production ∧
    table.Yields ((table.body rule.production).take rule.dot) between

namespace Valid

theorem goal (table : RuleTable) : table.Valid [] ⟨table.goal, 0⟩ :=
  ⟨[], [], rfl, .inl ⟨rfl, rfl⟩, .nil⟩

theorem opens (valid : table.Valid read rule) (after : table.symbolAfter? rule = some symbol) :
    table.Opens read symbol := by
  obtain ⟨front, between, rfl, begins, passed⟩ := valid
  obtain ⟨inside, here⟩ := List.getElem?_eq_some_iff.1 after
  rcases begins with ⟨goal, rfl⟩ | ⟨production, found, opened⟩
  · simp only [body, goal, if_true] at inside here passed
    have front : rule.dot = 0 := by simpa using inside
    simp only [front, List.take_zero, List.getElem_cons_zero] at passed here
    cases passed
    exact here ▸ .start
  · have place : production.symbols = (production.symbols.take rule.dot) ++
        symbol :: production.symbols.drop (rule.dot + 1) := by
      simp only [body_of_getElem? found] at inside here
      rw [← here, ← List.drop_eq_getElem_cons inside, List.take_append_drop]
    rw [body_of_getElem? found] at passed
    exact .enter (Array.mem_of_getElem? found) place opened passed

theorem enter (valid : table.Valid read rule) (enters : entered ∈ table.enteredBy rule) :
    table.Valid read entered := by
  obtain ⟨front, production, found, after⟩ := mem_enteredBy.1 enters
  refine ⟨read, [], by simp, .inr ⟨production, found, valid.opens after⟩, ?_⟩
  rw [front]
  exact .nil

theorem advance (valid : table.Valid read rule) (after : table.symbolAfter? rule = some symbol)
    {out : List String} (yields : table.Yields [symbol] out) :
    table.Valid (read ++ out) rule.advance := by
  obtain ⟨front, between, rfl, begins, passed⟩ := valid
  refine ⟨front, between ++ out, by simp, begins, ?_⟩
  obtain ⟨inside, here⟩ := List.getElem?_eq_some_iff.1 after
  rw [DottedRule.advance, List.take_succ_eq_append_getElem inside, here]
  exact passed.append yields

end Valid

end RuleTable

namespace Automaton

variable {σ ν : Type} {automaton : Automaton} {reduce : σ → Production → List ν → σ × ν}
  {terminal : String} {store last : σ} {stack lastStack : List (Frame ν)}
  {symbols read : List String}

theorem Linked.valid (linked : Linked automaton symbols stack)
    (yields : automaton.table.Yields symbols.reverse read) {rule : DottedRule}
    (contains : automaton.states.Contains (topState stack) rule) :
    automaton.table.Valid read rule := by
  rw [automaton.states_eq] at contains
  induction linked generalizing read rule with
  | nil =>
      cases yields
      exact States.contains_zero_induction (.goal _) (fun _ _ valid enters => valid.enter enters)
        rule contains
  | @cons symbols stack symbol frame move below ih =>
      rw [List.reverse_cons] at yields
      obtain ⟨front, out, rfl, earlier, here⟩ := yields.split
      rw [automaton.states_eq] at move
      refine States.contains_induction move ?_ (fun _ _ valid enters => valid.enter enters)
        rule contains
      intro waiting inside after
      exact (ih earlier inside).advance after here

/-- The stack has come about from the terminals `read`. -/
def Consumed (automaton : Automaton) (read : List String) (stack : List (Frame ν)) : Prop :=
  ∃ symbols, Linked automaton symbols stack ∧ automaton.table.Yields symbols.reverse read

namespace Consumed

theorem initial (automaton : Automaton) : Consumed automaton [] ([] : List (Frame ν)) :=
  ⟨[], .nil, .nil⟩

theorem reduces (consumed : Consumed automaton read stack)
    (step : Reduces reduce terminal automaton store stack last lastStack) :
    Consumed automaton read lastStack := by
  obtain ⟨symbols, linked, yields⟩ := consumed
  obtain ⟨p, production, popped, rest, restSymbols, next, -, found, -, rfl, -, below, move, -, rfl⟩ :=
    step.exists_production linked
  refine ⟨production.origin :: restSymbols, .cons move below, ?_⟩
  rw [List.reverse_append, List.reverse_reverse] at yields
  obtain ⟨front, out, rfl, earlier, inner⟩ := yields.split
  rw [List.reverse_cons]
  refine earlier.append ?_
  simpa using RuleTable.Yields.expand (Array.mem_of_getElem? found) inner .nil

theorem runs (consumed : Consumed automaton read stack)
    (run : Runs reduce terminal automaton store stack last lastStack) :
    Consumed automaton read lastStack := by
  induction run with
  | refl => exact consumed
  | tail _ step ih => exact ih.reduces step

theorem opens (consumed : Consumed automaton read stack) {next : Nat} {symbol : String}
    (move : automaton.states.move? (topState stack) symbol = some next) :
    automaton.table.Opens read symbol := by
  obtain ⟨symbols, linked, yields⟩ := consumed
  rw [automaton.states_eq] at move
  obtain ⟨rule, contains, after⟩ := States.exists_waiting_of_move? move
  rw [← automaton.states_eq] at contains
  exact (linked.valid yields contains).opens after

variable {value : ν}

/-- A terminal that is shifted stands next in a derivation and has been consumed then. -/
theorem shifted (consumed : Consumed automaton read stack)
    (feeds : Feeds reduce terminal automaton value store stack (.shifted last lastStack)) :
    automaton.table.Opens read terminal ∧ Consumed automaton (read ++ [terminal]) lastStack := by
  cases feeds with
  | shifted run move =>
      have reduced := consumed.runs run
      refine ⟨reduced.opens move, ?_⟩
      obtain ⟨symbols, linked, yields⟩ := reduced
      refine ⟨terminal :: symbols, .cons move linked, ?_⟩
      rw [List.reverse_cons]
      exact yields.append (.refl [terminal])

theorem refused (consumed : Consumed automaton read stack)
    (feeds : Feeds reduce terminal automaton value store stack (.refused last lastStack)) :
    Consumed automaton read lastStack := by
  cases feeds with
  | refused run _ => exact consumed.runs run

/-- Where the parser accepts, a production of the start yields all that has been consumed. -/
theorem accepted (consumed : Consumed automaton read stack) {made : ν}
    (feeds : Feeds reduce terminal automaton value store stack (.accepted last made lastStack)) :
    ∃ production ∈ automaton.table.productions, production.origin = automaton.table.start ∧
      automaton.table.Yields production.symbols read := by
  cases feeds with
  | accepted run step _ final =>
      obtain ⟨symbols, linked, yields⟩ := consumed.runs run
      obtain ⟨-, production, member, origin, rfl, -⟩ := step.of_isFinal linked final
      rw [List.reverse_reverse] at yields
      exact ⟨production, member, origin, yields⟩

end Consumed

theorem mem_keys_reductionsOf {s : Nat} {name : String} :
    name ∈ (automaton.reductionsOf s).keys ↔ ∃ p, p ∈ (automaton.reductionsOf s).get name := by
  have grouped : ∃ pairs, automaton.reductionsOf s = .ofList pairs := by
    rw [reductionsOf, automaton.reductions_eq, lookaheadReductions, Array.getD_eq_getD_getElem?,
      Array.getElem?_mapIdx]
    cases automaton.states[s]? with
    | none => exact ⟨[], rfl⟩
    | some state => exact ⟨_, rfl⟩
  obtain ⟨pairs, same⟩ := grouped
  simp only [same, Grouping.mem_keys_ofList, Grouping.mem_get_ofList]

theorem isTerminal_of_mem_followers {table : RuleTable} {states : States}
    {outer : Grouping RuleMove RuleMove} {moves : List RuleMove} {name : String}
    (follows : name ∈ RuleMove.followers table states outer moves) :
    name = endMarker ∨ table.isTerminal name = true := by
  rw [RuleMove.followers, OrderedSet.mem_ofList, List.mem_flatMap] at follows
  obtain ⟨move, -, after⟩ := follows
  rw [RuleMove.terminalsAfter, List.mem_append] at after
  rcases after with ended | read
  · split at ended
    · exact .inl (List.mem_singleton.1 ended)
    · cases ended
  · exact .inr (List.mem_filter.1 read).2

/-- A state has actions for terminals of the table and for the end of the input only. -/
theorem isTerminal_of_mem_choices {s : Nat} {name : String} (listed : name ∈ automaton.choices s) :
    name = endMarker ∨ automaton.table.isTerminal name = true := by
  rw [choices, List.mem_append] at listed
  rcases listed with read | selected
  · exact .inr (List.mem_filter.1 read).2
  · have key := OrderedSet.mem_toList.1 (List.mem_filter.1 selected).1
    obtain ⟨p, reduction⟩ := mem_keys_reductionsOf.1 key
    obtain ⟨-, -, -, follows⟩ := complete_of_mem_reductions reduction
    exact isTerminal_of_mem_followers follows

end Automaton

end Typeahead
