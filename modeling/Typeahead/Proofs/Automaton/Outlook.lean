import Mathlib.Data.List.Infix
import Typeahead.Proofs.Automaton.Acceptable
import Typeahead.Proofs.Automaton.ViablePrefix

namespace Typeahead

/-!
What a state of the parser can be at.  An outlook bounds the dotted rules of a state: it has those of
which something has been read, and the symbols that the state waits for, whose productions can be
begun there.  Outlooks are computed along a row of symbols, and what an outlook rules out, the parser
does not do.
-/

theorem States.spell?_concat (states : States) (s : Nat) (row : List String) (symbol : String) :
    states.spell? s (row ++ [symbol]) = (states.spell? s row).bind (states.move? · symbol) := by
  induction row generalizing s with
  | nil => simp [spell?]
  | cons first row ih =>
      rw [List.cons_append, spell?, spell?, Option.bind_assoc]
      congr 1
      funext next
      exact ih next

/-- The dotted productions of which something has been read, with the number of symbols that have
been, and the symbols that are waited for. -/
structure Outlook where
  read : List (Production × Nat)
  awaited : List String

namespace Outlook

section Steps

variable (productions : List Production)

/-- The symbols that are waited for if those given are: with a rule also the first symbols of its
productions. -/
def awaitedFrom : (rounds : Nat) → List String → List String
  | 0, awaited => awaited
  | rounds + 1, awaited =>
      let begun := productions.filter fun production => awaited.contains production.origin
      let all := begun.filterMap (·.symbols.head?) ∪ awaited
      if all.length = awaited.length then awaited else awaitedFrom rounds all

def ofRead (read : List (Production × Nat)) : Outlook :=
  let waiting := read.filterMap fun (production, dot) => production.symbols[dot]?
  ⟨read, awaitedFrom productions productions.length waiting⟩

/-- The outlook in which nothing has been read. -/
def first (start : String) : Outlook := ⟨[], awaitedFrom productions productions.length [start]⟩

/-- The outlook behind one more symbol. -/
def after (outlook : Outlook) (symbol : String) : Outlook :=
  let begun := productions.filter fun production =>
    outlook.awaited.contains production.origin && production.symbols.head? == some symbol
  let further := outlook.read.filter fun (production, dot) => production.symbols[dot]? == some symbol
  ofRead productions (begun.map (·, 1) ++ further.map fun (production, dot) => (production, dot + 1))

/-- The outlook behind a row of symbols. -/
def along (start : String) (row : List String) : Outlook :=
  row.foldl (after productions) (first productions start)

/-- Whether all symbols are there that are waited for. -/
def closed (outlook : Outlook) : Bool :=
  let known := outlook.awaited.contains
  (outlook.read.all fun (production, dot) => (production.symbols[dot]?).all known) &&
    productions.all fun production =>
      !known production.origin || production.symbols.head?.all known

/-- The productions that are read to their end. -/
def ended (outlook : Outlook) : List Production :=
  (outlook.read.filter fun (production, dot) => production.symbols.length == dot).map (·.1) ++
    productions.filter fun production =>
      outlook.awaited.contains production.origin && production.symbols.isEmpty

end Steps

def Has (outlook : Outlook) (production : Production) (dot : Nat) : Prop :=
  (production, dot) ∈ outlook.read ∨ dot = 0 ∧ production.origin ∈ outlook.awaited

/-- The dotted rule is in the outlook, and so is the symbol that it waits for. -/
def Allows (outlook : Outlook) (table : RuleTable) (rule : DottedRule) : Prop :=
  (∀ production, table.productions[rule.production]? = some production →
    outlook.Has production rule.dot) ∧
  ∀ symbol, table.symbolAfter? rule = some symbol → symbol ∈ outlook.awaited

/-- The state has no dotted rules but those of the outlook. -/
def Bounds (outlook : Outlook) (table : RuleTable) (s : Nat) : Prop :=
  ∀ rule, (States.ofRules table).Contains s rule → outlook.Allows table rule

theorem mem_awaitedFrom (productions : List Production) (rounds : Nat) {awaited : List String}
    {symbol : String} (member : symbol ∈ awaited) :
    symbol ∈ awaitedFrom productions rounds awaited := by
  induction rounds generalizing awaited with
  | zero => exact member
  | succ rounds ih =>
      rw [awaitedFrom]
      split
      · exact member
      · exact ih (List.mem_union_iff.2 (.inr member))

theorem Has.mem_awaited {productions : List Production} {outlook : Outlook}
    (closed : outlook.closed productions = true) {production : Production} {dot : Nat}
    (has : outlook.Has production dot) (member : production ∈ productions) {symbol : String}
    (here : production.symbols[dot]? = some symbol) : symbol ∈ outlook.awaited := by
  rw [Outlook.closed, Bool.and_eq_true, List.all_eq_true, List.all_eq_true] at closed
  rcases has with read | ⟨rfl, begun⟩
  · simpa [here] using closed.1 _ read
  · have first := closed.2 production member
    rw [← List.head?_eq_getElem?] at here
    simpa [begun, here] using first

section Bounded

variable {table : RuleTable} {productions : List Production} {outlook : Outlook} {s next : Nat}
  {symbol : String} (listed : table.productions = productions.toArray)

include listed

theorem mem_of_getElem? {p : Nat} {production : Production}
    (found : table.productions[p]? = some production) : production ∈ productions := by
  have member := Array.mem_of_getElem? found
  rwa [listed, List.mem_toArray] at member

theorem allows_of_has (closed : outlook.closed productions = true) {rule : DottedRule}
    {production : Production} (found : table.productions[rule.production]? = some production)
    (has : outlook.Has production rule.dot) : outlook.Allows table rule := by
  constructor
  · intro other otherFound
    obtain rfl := Option.some.inj (found.symm.trans otherFound)
    exact has
  · intro symbol after
    rw [RuleTable.symbolAfter?, RuleTable.body_of_getElem? found] at after
    exact has.mem_awaited closed (mem_of_getElem? listed found) after

theorem Allows.enter (closed : outlook.closed productions = true) {outer entered : DottedRule}
    (allows : outlook.Allows table outer) (enters : entered ∈ table.enteredBy outer) :
    outlook.Allows table entered := by
  obtain ⟨front, production, found, after⟩ := RuleTable.mem_enteredBy.1 enters
  exact allows_of_has listed closed found (.inr ⟨front, allows.2 _ after⟩)

theorem bounds_first (closed : (first productions table.start).closed productions = true) :
    (first productions table.start).Bounds table 0 := by
  refine States.contains_zero_induction ?_ ?_
  · constructor
    · intro production found
      have bound := RuleTable.lt_goal_of_getElem? found
      exact absurd bound (Nat.lt_irrefl _)
    · intro symbol after
      have only : table.start = symbol := by
        simpa [RuleTable.symbolAfter?, RuleTable.body] using after
      exact only ▸ mem_awaitedFrom productions _ (List.mem_singleton.2 rfl)
  · exact fun outer entered allows enters => allows.enter listed closed enters

/-- A move leads from a bounded state to one that the next outlook bounds. -/
theorem Bounds.after (bounds : outlook.Bounds table s)
    (closed : (outlook.after productions symbol).closed productions = true)
    (move : (States.ofRules table).move? s symbol = some next) :
    (outlook.after productions symbol).Bounds table next := by
  refine States.contains_induction move ?_ ?_
  · intro earlier contains waiting
    obtain ⟨p, dot⟩ := earlier
    obtain ⟨numbered, -⟩ := RuleTable.mem_stateItems.1 contains.mem_stateItems
    rcases Nat.eq_or_lt_of_le numbered with goal | below
    · -- behind its only symbol the goal waits for nothing
      obtain rfl : p = table.goal := goal
      constructor
      · intro production found
        exact absurd (RuleTable.lt_goal_of_getElem? found) (Nat.lt_irrefl _)
      · intro symbol after
        simp [RuleTable.symbolAfter?, RuleTable.body, DottedRule.advance] at after
    · have found := Array.getElem?_eq_getElem below
      refine allows_of_has listed closed found (.inl ?_)
      rw [RuleTable.symbolAfter?, RuleTable.body_of_getElem? found] at waiting
      rw [Outlook.after, ofRead, List.mem_append, List.mem_map, List.mem_map]
      rcases (bounds _ contains).1 _ found with read | ⟨rfl, begun⟩
      · refine .inr ⟨_, List.mem_filter.2 ⟨read, ?_⟩, rfl⟩
        simp [waiting]
      · refine .inl ⟨_, List.mem_filter.2 ⟨mem_of_getElem? listed found, ?_⟩, rfl⟩
        simp [begun, List.head?_eq_getElem?, waiting]
  · exact fun outer entered allows enters => allows.enter listed closed enters

/-- Where the first symbols of a row lead is bounded by the outlook behind them. -/
theorem bounds_along {row front : List String}
    (closed : (row.inits.all fun front => (along productions table.start front).closed productions) =
      true)
    (inside : front <+: row) (spelled : (States.ofRules table).spell? 0 front = some s) :
    (along productions table.start front).Bounds table s := by
  rw [List.all_eq_true] at closed
  induction front using List.reverseRecOn generalizing s with
  | nil =>
      obtain rfl := Option.some.inj spelled
      exact bounds_first listed (closed [] (by simp))
  | append_singleton front symbol ih =>
      rw [States.spell?_concat] at spelled
      obtain ⟨middle, earlier, move⟩ := Option.bind_eq_some_iff.1 spelled
      have bounds := ih ((List.prefix_append front [symbol]).trans inside) earlier
      have whole := closed (front ++ [symbol]) ((List.mem_inits _ _).2 inside)
      rw [along, List.foldl_append] at whole ⊢
      exact bounds.after listed whole move

omit listed in
theorem Bounds.mem_awaited (bounds : outlook.Bounds table s)
    (move : (States.ofRules table).move? s symbol = some next) : symbol ∈ outlook.awaited := by
  obtain ⟨rule, contains, after⟩ := States.exists_waiting_of_move? move
  exact (bounds rule contains).2 symbol after

theorem Bounds.mem_ended (bounds : outlook.Bounds table s) {p : Nat} {production : Production}
    (found : table.productions[p]? = some production)
    (contains : (States.ofRules table).Contains s ⟨p, production.symbols.length⟩) :
    production ∈ outlook.ended productions := by
  rw [ended, List.mem_append, List.mem_map]
  rcases (bounds _ contains).1 _ found with read | ⟨empty, begun⟩
  · exact .inl ⟨_, List.mem_filter.2 ⟨read, by simp⟩, rfl⟩
  · refine .inr (List.mem_filter.2 ⟨mem_of_getElem? listed found, ?_⟩)
    simpa [begun] using empty

end Bounded

end Outlook

end Typeahead
