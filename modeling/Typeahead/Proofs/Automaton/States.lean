import Mathlib.Data.List.Sort
import Mathlib.Data.List.Sublists
import Typeahead.Automaton.State
import Typeahead.Proofs.Saturation
import Typeahead.Proofs.DottedRule

namespace Typeahead

/-!
The states of the deterministic parser.  A kernel is a sorted selection of the dotted rules, so
there are at most as many kernels as selections, and every state that a symbol leads to is
numbered.  A move takes just the dotted rules that wait for its symbol one symbol further.
-/

namespace RuleTable

variable {table : RuleTable}

/-- The dotted rules of the table and of the goal. -/
def stateItems (table : RuleTable) : List DottedRule :=
  ⟨table.goal, 0⟩ :: ⟨table.goal, 1⟩ :: table.dottedRules

theorem length_stateItems (table : RuleTable) :
    table.stateItems.length = table.stateItemCount := by
  simp [stateItems, stateItemCount, length_dottedRules]

theorem lt_goal_of_getElem? {p : Nat} {production : Production}
    (found : table.productions[p]? = some production) : p < table.goal :=
  (Array.getElem?_eq_some_iff.1 found).1

theorem body_of_getElem? {p : Nat} {production : Production}
    (found : table.productions[p]? = some production) : table.body p = production.symbols := by
  have bound := lt_goal_of_getElem? found
  rw [body, if_neg (by omega), symbols_of_getElem? found]

theorem mem_stateItems {rule : DottedRule} :
    rule ∈ table.stateItems ↔
      rule.production ≤ table.goal ∧ rule.dot ≤ (table.body rule.production).length := by
  rcases rule with ⟨p, dot⟩
  simp only [stateItems, List.mem_cons, DottedRule.mk.injEq, mem_dottedRules]
  constructor
  · intro listed
    rcases listed with ⟨rfl, rfl⟩ | ⟨rfl, rfl⟩ | ⟨production, found, bound⟩
    · simp
    · simp [body]
    · refine ⟨Nat.le_of_lt (lt_goal_of_getElem? found), ?_⟩
      rwa [body_of_getElem? found]
  · intro bounds
    obtain ⟨numbered, bound⟩ := bounds
    rcases Nat.eq_or_lt_of_le numbered with rfl | inside
    · simp only [body, if_true, List.length_singleton] at bound
      have cases : dot = 0 ∨ dot = 1 := by omega
      rcases cases with rfl | rfl <;> simp
    · have found := Array.getElem?_eq_getElem inside
      refine .inr (.inr ⟨_, found, ?_⟩)
      rwa [body_of_getElem? found] at bound

theorem mem_enteredBy {rule entered : DottedRule} :
    entered ∈ table.enteredBy rule ↔ entered.dot = 0 ∧ ∃ production,
      table.productions[entered.production]? = some production ∧
        table.symbolAfter? rule = some production.origin := by
  rcases entered with ⟨p, dot⟩
  unfold enteredBy
  cases after : table.symbolAfter? rule with
  | none => simp
  | some symbol =>
      simp only [List.mem_map, DottedRule.mk.injEq, mem_productionsOf, Option.some.injEq]
      constructor
      · intro listed
        obtain ⟨_, ⟨production, found, rfl⟩, rfl, rfl⟩ := listed
        exact ⟨rfl, production, found, rfl⟩
      · intro started
        obtain ⟨rfl, production, found, rfl⟩ := started
        exact ⟨p, ⟨production, found, rfl⟩, rfl, rfl⟩

theorem mem_stateItems_of_enteredBy {rule entered : DottedRule}
    (member : entered ∈ table.enteredBy rule) : entered ∈ table.stateItems := by
  obtain ⟨front, production, found, -⟩ := mem_enteredBy.1 member
  rw [mem_stateItems]
  exact ⟨Nat.le_of_lt (lt_goal_of_getElem? found), by omega⟩

theorem advance_mem_stateItems {rule : DottedRule} {symbol : String}
    (member : rule ∈ table.stateItems) (after : table.symbolAfter? rule = some symbol) :
    rule.advance ∈ table.stateItems := by
  obtain ⟨numbered, -⟩ := mem_stateItems.1 member
  have inside := (List.getElem?_eq_some_iff.1 after).1
  exact mem_stateItems.2 ⟨numbered, inside⟩

end RuleTable

namespace Kernel

variable {table : RuleTable} {kernel : Kernel} {rule : DottedRule}

theorem mem_items_of_mem (member : rule ∈ kernel) : rule ∈ kernel.items table :=
  OrderedSet.mem_saturate_of_mem (OrderedSet.mem_ofList.2 member)

theorem mem_kernel_or_front (member : rule ∈ kernel.items table) :
    rule ∈ kernel ∨ rule.dot = 0 := by
  revert rule
  apply OrderedSet.saturate_induction
  · intro rule member
    exact .inl (OrderedSet.mem_ofList.1 member)
  · intro rule _ entered member
    exact .inr (RuleTable.mem_enteredBy.1 member).1

theorem mem_stateItems_of_mem_items (within : ∀ rule ∈ kernel, rule ∈ table.stateItems)
    (member : rule ∈ kernel.items table) : rule ∈ table.stateItems := by
  revert rule
  apply OrderedSet.saturate_induction
  · intro rule member
    exact within rule (OrderedSet.mem_ofList.1 member)
  · intro rule _ entered member
    exact RuleTable.mem_stateItems_of_enteredBy member

theorem enteredBy_mem_items (within : ∀ rule ∈ kernel, rule ∈ table.stateItems)
    {entered : DottedRule} (member : rule ∈ kernel.items table)
    (enters : entered ∈ table.enteredBy rule) : entered ∈ kernel.items table :=
  OrderedSet.saturate_closed (Nat.le_of_eq table.length_stateItems)
    (fun _ => mem_stateItems_of_mem_items within) member enters

theorem mem_kernel_or_entered (within : ∀ rule ∈ kernel, rule ∈ table.stateItems)
    (member : rule ∈ kernel.items table) :
    rule ∈ kernel ∨ ∃ outer ∈ kernel.items table, rule ∈ table.enteredBy outer := by
  -- Membership in the closure is carried along, so that the entering rule is known to be there.
  have reached : ∀ rule ∈ kernel.items table, rule ∈ kernel.items table ∧
      (rule ∈ kernel ∨ ∃ outer ∈ kernel.items table, rule ∈ table.enteredBy outer) := by
    apply OrderedSet.saturate_induction
    · intro rule member
      have listed := OrderedSet.mem_ofList.1 member
      exact ⟨mem_items_of_mem listed, .inl listed⟩
    · intro outer found entered enters
      exact ⟨enteredBy_mem_items within found.1 enters, .inr ⟨outer, found.1, enters⟩⟩
  exact (reached rule member).2

section Successors

variable {symbol : String} {next : Kernel}

theorem mem_moves : rule ∈ (kernel.moves table).get symbol ↔
    ∃ earlier ∈ kernel.items table, table.symbolAfter? earlier = some symbol ∧
      earlier.advance = rule := by
  simp only [moves, Grouping.mem_get_ofList, List.mem_filterMap, OrderedSet.mem_toList,
    Option.map_eq_some_iff, Prod.mk.injEq]
  constructor
  · intro listed
    obtain ⟨earlier, member, symbol, after, rfl, rfl⟩ := listed
    exact ⟨earlier, member, after, rfl⟩
  · intro found
    obtain ⟨earlier, member, after, rfl⟩ := found
    exact ⟨earlier, member, symbol, after, rfl, rfl⟩

theorem mem_successors : (symbol, next) ∈ kernel.successors table ↔
    (∃ rule ∈ kernel.items table, table.symbolAfter? rule = some symbol) ∧
      next = ((kernel.moves table).get symbol).mergeSort precedes := by
  have listed : symbol ∈ (kernel.moves table).keys ↔
      ∃ rule ∈ kernel.items table, table.symbolAfter? rule = some symbol := by
    rw [moves, Grouping.mem_keys_ofList]
    simp [OrderedSet.mem_toList]
  rw [← listed, ← OrderedSet.mem_toList]
  simp only [successors, List.mem_map, Prod.mk.injEq]
  constructor
  · intro found
    obtain ⟨_, member, rfl, rfl⟩ := found
    exact ⟨member, rfl⟩
  · intro found
    obtain ⟨member, rfl⟩ := found
    exact ⟨symbol, member, rfl, rfl⟩

/-- The kernel after a symbol has just the dotted rules that wait for it, moved past it. -/
theorem mem_of_mem_successors (successor : (symbol, next) ∈ kernel.successors table) :
    rule ∈ next ↔ ∃ earlier ∈ kernel.items table, table.symbolAfter? earlier = some symbol ∧
      earlier.advance = rule := by
  obtain ⟨-, rfl⟩ := mem_successors.1 successor
  rw [List.mem_mergeSort, mem_moves]

theorem precedes_trans (a b c : DottedRule) (first : precedes a b = true)
    (second : precedes b c = true) : precedes a c = true := by
  simp only [precedes, Bool.or_eq_true, Bool.and_eq_true, decide_eq_true_eq, beq_iff_eq] at *
  omega

theorem precedes_total (a b : DottedRule) : (precedes a b || precedes b a) = true := by
  simp only [precedes, Bool.or_eq_true, Bool.and_eq_true, decide_eq_true_eq, beq_iff_eq]
  omega

instance : Std.Antisymm fun a b => precedes a b = true where
  antisymm a b first second := by
    rcases a with ⟨p, d⟩
    rcases b with ⟨q, e⟩
    simp only [precedes, Bool.or_eq_true, Bool.and_eq_true, decide_eq_true_eq, beq_iff_eq]
      at first second
    rw [DottedRule.mk.injEq]
    omega

theorem nodup_moves (table : RuleTable) (kernel : Kernel) (symbol : String) :
    ((kernel.moves table).get symbol).Nodup := by
  have distinct := (kernel.items table).nodup_toList
  rw [moves, Grouping.get_ofList]
  refine List.Nodup.map_on ?_ (List.Nodup.filter _ (List.Nodup.filterMap ?_ distinct))
  · intro first firstMember second secondMember same
    simp only [List.mem_filter, decide_eq_true_eq] at firstMember secondMember
    exact Prod.ext (firstMember.2.trans secondMember.2.symm) same
  · intro first second pair firstFound secondFound
    obtain ⟨_, -, rfl⟩ := Option.map_eq_some_iff.1 firstFound
    obtain ⟨_, -, same⟩ := Option.map_eq_some_iff.1 secondFound
    have advanced : second.advance = first.advance := congrArg Prod.snd same
    rcases first with ⟨p, d⟩
    rcases second with ⟨q, e⟩
    simp only [DottedRule.advance, DottedRule.mk.injEq] at advanced ⊢
    omega

/-- The kernels that the states can have: the selections from all dotted rules in order. -/
def stock (table : RuleTable) : List Kernel := (table.stateItems.mergeSort precedes).sublists

theorem length_stock (table : RuleTable) :
    (stock table).length = Nat.pow 2 table.stateItemCount := by
  rw [stock, List.length_sublists, List.length_mergeSort, RuleTable.length_stateItems]
  rfl

theorem mem_stateItems_of_mem_stock (member : kernel ∈ stock table) :
    ∀ rule ∈ kernel, rule ∈ table.stateItems := by
  intro rule inside
  exact List.mem_mergeSort.1 ((List.mem_sublists.1 member).subset inside)

theorem mem_stock_of_mem_successors (member : kernel ∈ stock table)
    (successor : (symbol, next) ∈ kernel.successors table) : next ∈ stock table := by
  have within := mem_stateItems_of_mem_stock member
  have subset : next ⊆ table.stateItems.mergeSort precedes := by
    intro rule inside
    obtain ⟨earlier, found, after, rfl⟩ := (mem_of_mem_successors successor).1 inside
    exact List.mem_mergeSort.2
      (RuleTable.advance_mem_stateItems (mem_stateItems_of_mem_items within found) after)
  obtain ⟨-, rfl⟩ := mem_successors.1 successor
  have distinct : (((kernel.moves table).get symbol).mergeSort precedes).Nodup :=
    List.nodup_mergeSort.2 (nodup_moves table kernel symbol)
  rw [stock, List.mem_sublists]
  exact List.sublist_of_subperm_of_pairwise (List.subperm_of_subset distinct subset)
    (List.pairwise_mergeSort precedes_trans precedes_total _)
    (List.pairwise_mergeSort precedes_trans precedes_total _)

theorem start_mem_stock (table : RuleTable) : start table ∈ stock table := by
  rw [stock, List.mem_sublists, start, List.singleton_sublist, List.mem_mergeSort]
  simp [RuleTable.stateItems]

theorem mem_stock_of_mem_reachable (member : kernel ∈ reachable table) :
    kernel ∈ stock table := by
  revert kernel
  apply OrderedSet.saturate_induction
  · intro kernel member
    rw [OrderedSet.mem_ofList, List.mem_singleton] at member
    exact member ▸ start_mem_stock table
  · intro kernel found next successor
    obtain ⟨⟨symbol, _⟩, listed, rfl⟩ := List.mem_map.1 successor
    exact mem_stock_of_mem_successors found listed

theorem mem_reachable_of_mem_successors (member : kernel ∈ reachable table)
    (successor : (symbol, next) ∈ kernel.successors table) : next ∈ reachable table :=
  OrderedSet.saturate_closed (Nat.le_of_eq (length_stock table))
    (fun _ => mem_stock_of_mem_reachable) member (List.mem_map.2 ⟨_, successor, rfl⟩)

/-- Only the kernel of the start has a dotted rule with its dot in front. -/
theorem eq_start_or_read (member : kernel ∈ reachable table) :
    kernel = start table ∨ ∀ rule ∈ kernel, 0 < rule.dot := by
  revert kernel
  apply OrderedSet.saturate_induction
  · intro kernel member
    rw [OrderedSet.mem_ofList, List.mem_singleton] at member
    exact .inl member
  · intro kernel _ next successor
    obtain ⟨⟨symbol, _⟩, listed, rfl⟩ := List.mem_map.1 successor
    refine .inr fun rule inside => ?_
    obtain ⟨earlier, -, -, rfl⟩ := (mem_of_mem_successors listed).1 inside
    exact Nat.succ_pos _

theorem getElem?_elements_reachable_zero (table : RuleTable) :
    (reachable table).elements[0]? = some (start table) := by
  rw [reachable, OrderedSet.saturate, OrderedSet.saturateFrom_eq_growFrom]
  apply OrderedSet.getElem?_elements_growFrom
  have absent : ¬(∅ : OrderedSet Kernel).contains (start table) := by
    simp [OrderedSet.contains_iff]
  have single : (OrderedSet.ofList [start table]).elements = #[start table] := by
    simp only [OrderedSet.ofList, OrderedSet.insertAll, List.foldl_cons, List.foldl_nil,
      OrderedSet.insert, dif_neg absent]
    rfl
  simp [single]

end Successors

end Kernel

namespace States

theorem head?_eq_of_forall {α : Type} {as : List α} {a : α} (member : a ∈ as)
    (equal : ∀ b ∈ as, b = a) : as.head? = some a := by
  cases as with
  | nil => exact absurd member List.not_mem_nil
  | cons b rest => rw [List.head?_cons, equal b List.mem_cons_self]

/-- The dotted rule stands in state `s`. -/
def Contains (states : States) (s : Nat) (rule : DottedRule) : Prop :=
  ∃ state, states[s]? = some state ∧ rule ∈ state.items

theorem mem_symbolsFrom {states : States} {s : Nat} {symbol : String} :
    symbol ∈ states.symbolsFrom s ↔ ∃ state, states[s]? = some state ∧ symbol ∈ state.moves.keys := by
  unfold symbolsFrom
  cases states[s]? with
  | none => simp
  | some state => simp [OrderedSet.mem_toList]

section OfRules

variable {table : RuleTable} {s next : Nat} {rule : DottedRule} {symbol : String}

theorem contains_ofRules : (ofRules table).Contains s rule ↔
    ∃ kernel, (Kernel.reachable table).elements[s]? = some kernel ∧
      rule ∈ kernel.items table := by
  unfold Contains
  rw [ofRules, Array.getElem?_map]
  cases (Kernel.reachable table).elements[s]? with
  | none => simp
  | some kernel => simp

theorem move?_ofRules : (ofRules table).move? s symbol = some next ↔
    ∃ kernel following, (Kernel.reachable table).elements[s]? = some kernel ∧
      (symbol, following) ∈ kernel.successors table ∧
      (Kernel.reachable table).elements[next]? = some following := by
  rw [move?, ofRules, Array.getElem?_map]
  cases (Kernel.reachable table).elements[s]? with
  | none => simp
  | some kernel =>
      simp only [Option.map_some, Option.bind_some, State.move?, Option.some.injEq]
      constructor
      · intro found
        have listed := Grouping.mem_get_ofList.1 (List.mem_of_head? found)
        simp only [List.mem_filterMap, Prod.exists, Option.map_eq_some_iff, Prod.mk.injEq,
          OrderedSet.indexOf?_eq_some_iff] at listed
        obtain ⟨_, following, successor, _, place, rfl, rfl⟩ := listed
        exact ⟨kernel, following, rfl, successor, place⟩
      · intro found
        obtain ⟨_, following, rfl, successor, place⟩ := found
        refine head?_eq_of_forall (Grouping.mem_get_ofList.2 ?_) ?_
        · simp only [List.mem_filterMap, Prod.exists, Option.map_eq_some_iff, Prod.mk.injEq,
            OrderedSet.indexOf?_eq_some_iff]
          exact ⟨symbol, following, successor, next, place, rfl, rfl⟩
        · intro other listed
          have pair := Grouping.mem_get_ofList.1 listed
          simp only [List.mem_filterMap, Prod.exists, Option.map_eq_some_iff, Prod.mk.injEq]
            at pair
          obtain ⟨_, kernel', second, _, otherPlace, rfl, rfl⟩ := pair
          have same : kernel' = following :=
            (Kernel.mem_successors.1 second).2.trans (Kernel.mem_successors.1 successor).2.symm
          subst same
          rw [OrderedSet.indexOf?_eq_some_iff.2 place] at otherPlace
          exact (Option.some.inj otherPlace).symm

theorem mem_reachable_of_getElem? {kernel : Kernel}
    (found : (Kernel.reachable table).elements[s]? = some kernel) :
    kernel ∈ Kernel.reachable table :=
  OrderedSet.mem_def.2 (Array.mem_of_getElem? found)

theorem Contains.mem_stateItems (contains : (ofRules table).Contains s rule) :
    rule ∈ table.stateItems := by
  obtain ⟨kernel, found, member⟩ := contains_ofRules.1 contains
  have stocked := Kernel.mem_stock_of_mem_reachable (mem_reachable_of_getElem? found)
  exact Kernel.mem_stateItems_of_mem_items (Kernel.mem_stateItems_of_mem_stock stocked) member

theorem contains_zero_goal (table : RuleTable) : (ofRules table).Contains 0 ⟨table.goal, 0⟩ :=
  contains_ofRules.2 ⟨Kernel.start table, Kernel.getElem?_elements_reachable_zero table,
    Kernel.mem_items_of_mem (List.mem_singleton.2 rfl)⟩

theorem Contains.dot_eq_zero (contains : (ofRules table).Contains 0 rule) : rule.dot = 0 := by
  obtain ⟨kernel, found, member⟩ := contains_ofRules.1 contains
  rw [Kernel.getElem?_elements_reachable_zero, Option.some.injEq] at found
  subst found
  rcases Kernel.mem_kernel_or_front member with first | front
  · rw [List.mem_singleton.1 first]
  · exact front

theorem exists_move? (contains : (ofRules table).Contains s rule)
    (after : table.symbolAfter? rule = some symbol) :
    ∃ next, (ofRules table).move? s symbol = some next := by
  obtain ⟨kernel, found, member⟩ := contains_ofRules.1 contains
  have successor := Kernel.mem_successors.2 ⟨⟨rule, member, after⟩, rfl⟩
  have numbered :=
    Kernel.mem_reachable_of_mem_successors (mem_reachable_of_getElem? found) successor
  obtain ⟨next, place⟩ := Array.mem_iff_getElem?.1 (OrderedSet.mem_def.1 numbered)
  exact ⟨next, move?_ofRules.2 ⟨kernel, _, found, successor, place⟩⟩

theorem exists_waiting_of_move? (move : (ofRules table).move? s symbol = some next) :
    ∃ rule, (ofRules table).Contains s rule ∧ table.symbolAfter? rule = some symbol := by
  obtain ⟨kernel, following, found, successor, -⟩ := move?_ofRules.1 move
  obtain ⟨⟨rule, member, after⟩, -⟩ := Kernel.mem_successors.1 successor
  exact ⟨rule, contains_ofRules.2 ⟨kernel, found, member⟩, after⟩

/-- A symbol that stands in no production leads nowhere. -/
theorem move?_eq_none (unread : ∀ production ∈ table.productions, symbol ∉ production.symbols)
    (start_ne : table.start ≠ symbol) (s : Nat) : (ofRules table).move? s symbol = none := by
  cases move : (ofRules table).move? s symbol with
  | none => rfl
  | some next =>
      obtain ⟨⟨p, dot⟩, contains, after⟩ := exists_waiting_of_move? move
      obtain ⟨numbered, -⟩ := RuleTable.mem_stateItems.1 contains.mem_stateItems
      have listed := List.mem_of_getElem? after
      rcases Nat.eq_or_lt_of_le numbered with goal | below
      · have only : table.body p = [table.start] := by
          have same : p = table.goal := goal
          rw [RuleTable.body, if_pos same]
        have same : symbol ∈ [table.start] := only ▸ listed
        exact absurd (List.mem_singleton.1 same).symm start_ne
      · have found := Array.getElem?_eq_getElem below
        have body := RuleTable.body_of_getElem? found
        have used : symbol ∈ table.productions[p].symbols := body ▸ listed
        exact absurd used (unread _ (Array.mem_of_getElem? found))

/-- A dotted rule behind whose first symbols the parser stands waited for the last of them one
move earlier. -/
theorem contains_after_move? (move : (ofRules table).move? s symbol = some next) {p dot : Nat} :
    (ofRules table).Contains next ⟨p, dot + 1⟩ ↔
      (ofRules table).Contains s ⟨p, dot⟩ ∧ table.symbolAfter? ⟨p, dot⟩ = some symbol := by
  obtain ⟨kernel, following, found, successor, place⟩ := move?_ofRules.1 move
  constructor
  · intro contains
    obtain ⟨_, found', member⟩ := contains_ofRules.1 contains
    rw [place, Option.some.injEq] at found'
    subst found'
    rcases Kernel.mem_kernel_or_front member with read | front
    · obtain ⟨⟨q, _⟩, earlier, after, same⟩ := (Kernel.mem_of_mem_successors successor).1 read
      simp only [DottedRule.advance, DottedRule.mk.injEq, Nat.add_right_cancel_iff] at same
      obtain ⟨rfl, rfl⟩ := same
      exact ⟨contains_ofRules.2 ⟨kernel, found, earlier⟩, after⟩
    · exact absurd front (Nat.succ_ne_zero _)
  · intro waiting
    obtain ⟨contains, after⟩ := waiting
    obtain ⟨_, found', member⟩ := contains_ofRules.1 contains
    rw [found, Option.some.injEq] at found'
    subst found'
    refine contains_ofRules.2 ⟨following, place, Kernel.mem_items_of_mem ?_⟩
    exact (Kernel.mem_of_mem_successors successor).2 ⟨_, member, after, rfl⟩

/-- What holds of the dotted rules that a move has taken past its symbol, and of those entered by
dotted rules of which it holds, holds in the whole state. -/
theorem contains_induction (move : (ofRules table).move? s symbol = some next)
    {P : DottedRule → Prop}
    (read : ∀ earlier, (ofRules table).Contains s earlier →
      table.symbolAfter? earlier = some symbol → P earlier.advance)
    (enter : ∀ outer entered, P outer → entered ∈ table.enteredBy outer → P entered) :
    ∀ rule, (ofRules table).Contains next rule → P rule := by
  obtain ⟨kernel, following, found, successor, place⟩ := move?_ofRules.1 move
  intro rule contains
  obtain ⟨_, found', member⟩ := contains_ofRules.1 contains
  rw [place, Option.some.injEq] at found'
  subst found'
  revert rule member
  have all : ∀ rule ∈ following.items table, P rule := by
    apply OrderedSet.saturate_induction
    · intro rule member
      obtain ⟨earlier, inside, after, rfl⟩ :=
        (Kernel.mem_of_mem_successors successor).1 (OrderedSet.mem_ofList.1 member)
      exact read earlier (contains_ofRules.2 ⟨kernel, found, inside⟩) after
    · intro outer holds entered enters
      exact enter outer entered holds enters
  intro rule _ member
  exact all rule member

/-- What holds of the goal, and of the dotted rules entered by those of which it holds, holds in the
first state. -/
theorem contains_zero_induction {P : DottedRule → Prop} (goal : P ⟨table.goal, 0⟩)
    (enter : ∀ outer entered, P outer → entered ∈ table.enteredBy outer → P entered) :
    ∀ rule, (ofRules table).Contains 0 rule → P rule := by
  intro rule contains
  obtain ⟨kernel, found, member⟩ := contains_ofRules.1 contains
  rw [Kernel.getElem?_elements_reachable_zero, Option.some.injEq] at found
  subst found
  revert rule member
  have all : ∀ rule ∈ (Kernel.start table).items table, P rule := by
    apply OrderedSet.saturate_induction
    · intro rule member
      obtain rfl := List.mem_singleton.1 (OrderedSet.mem_ofList.1 member)
      exact goal
    · intro outer holds entered enters
      exact enter outer entered holds enters
  intro rule _ member
  exact all rule member

/-- A production that can be begun in a state is one that a dotted rule of the state waits for. -/
theorem Contains.exists_waiting {p : Nat} {production : Production}
    (contains : (ofRules table).Contains s ⟨p, 0⟩)
    (numbered : table.productions[p]? = some production) :
    ∃ rule, (ofRules table).Contains s rule ∧
      table.symbolAfter? rule = some production.origin := by
  obtain ⟨kernel, found, member⟩ := contains_ofRules.1 contains
  have reached := mem_reachable_of_getElem? found
  have within := Kernel.mem_stateItems_of_mem_stock (Kernel.mem_stock_of_mem_reachable reached)
  rcases Kernel.mem_kernel_or_entered within member with listed | ⟨outer, inside, enters⟩
  · rcases Kernel.eq_start_or_read reached with rfl | read
    · have same : p = table.goal := congrArg DottedRule.production (List.mem_singleton.1 listed)
      have bound := RuleTable.lt_goal_of_getElem? numbered
      omega
    · exact absurd (read _ listed) (Nat.lt_irrefl 0)
  · obtain ⟨-, other, otherNumbered, after⟩ := RuleTable.mem_enteredBy.1 enters
    have same : production = other := Option.some.inj (numbered.symm.trans otherNumbered)
    subst same
    exact ⟨outer, contains_ofRules.2 ⟨kernel, found, inside⟩, after⟩

theorem mem_symbolsFrom_iff : symbol ∈ (ofRules table).symbolsFrom s ↔
    ∃ next, (ofRules table).move? s symbol = some next := by
  rw [mem_symbolsFrom]
  constructor
  · intro listed
    obtain ⟨state, found, key⟩ := listed
    simp only [ofRules, Array.getElem?_map, Option.map_eq_some_iff] at found
    obtain ⟨kernel, numbered, rfl⟩ := found
    obtain ⟨_, pair⟩ := Grouping.mem_keys_ofList.1 key
    simp only [List.mem_filterMap, Prod.exists, Option.map_eq_some_iff, Prod.mk.injEq,
      OrderedSet.indexOf?_eq_some_iff] at pair
    obtain ⟨_, following, successor, next, place, rfl, rfl⟩ := pair
    exact ⟨next, move?_ofRules.2 ⟨kernel, following, numbered, successor, place⟩⟩
  · intro moves
    obtain ⟨next, move⟩ := moves
    obtain ⟨state, found, step⟩ := Option.bind_eq_some_iff.1 move
    refine ⟨state, found, ?_⟩
    have listed := List.mem_of_head? step
    simp only [ofRules, Array.getElem?_map, Option.map_eq_some_iff] at found
    obtain ⟨kernel, -, rfl⟩ := found
    exact Grouping.mem_keys_ofList.2 ⟨next, Grouping.mem_get_ofList.1 listed⟩

end OfRules

end States

end Typeahead
