import Typeahead.Proofs.Candidates.Skipping
import Typeahead.Proofs.DerivationTree

namespace Typeahead

/-!
What preferred rules hide.  A symbol is met if and only if a derivation tree shows it behind what the
chart kept and no preferred rule that begins there stands above it; the root, from which the walk
sets out, hides nothing.
-/

namespace Candidates

variable {table : RuleTable} {preferred names : List String} {symbol : String}

theorem met_inj {other : String} {right rest : List String}
    (same : met table preferred symbol right = met table preferred other rest) : symbol = other := by
  unfold met at same
  grind

theorem met_eq_rule {name : String} {right : List String} :
    met table preferred symbol right = .rule name ↔
      table.isTerminal name = false ∧ name ∉ preferred ∧ symbol = name := by
  unfold met
  grind

/-- A symbol below the root of a derivation tree, behind `kept`, that no preferred rule hides. -/
def Visible (table : RuleTable) (preferred kept : List String) (symbol : String) : Prop :=
  ∃ tree address, DerivationTree.Shows table tree address kept symbol ∧ address ≠ [] ∧
    ¬ tree.HiddenBy preferred address

/-- A dotted rule that is open after `kept` and whose origin stands in a derivation tree.  If the
rule has read nothing, neither a preferred rule above it nor its own origin hides it. -/
def GrownAfter (table : RuleTable) (preferred kept : List String) (rule : DottedRule) : Prop :=
  ∃ front between tree address production, kept = front ++ between ∧
    table.productions[rule.production]? = some production ∧
    table.Yields (production.symbols.take rule.dot) between ∧
    DerivationTree.Shows table tree address front production.origin ∧
    (between = [] → ¬ tree.HiddenBy preferred address ∧
      (address = [] ∨ production.origin ∉ preferred))

/-- What a rule meets behind its dot is visible: the production grows at the place of its
origin. -/
theorem GrownAfter.visible {kept left right : List String} {rule : DottedRule}
    (grown : GrownAfter table preferred kept rule)
    (after : (table.symbols rule.production).drop rule.dot = left ++ symbol :: right)
    (passed : ∀ s ∈ left, passable table s = true) : Visible table preferred kept symbol := by
  obtain ⟨front, between, tree, address, production, rfl, found, yields, shows_, free⟩ := grown
  rw [RuleTable.symbols_of_getElem? found] at after
  have place : production.symbols =
      (production.symbols.take rule.dot ++ left) ++ symbol :: right := by
    rw [List.append_assoc, ← after, List.take_append_drop]
  have skipped : table.Yields (production.symbols.take rule.dot ++ left) (between ++ []) :=
    yields.append (yields_of_passable passed)
  rw [List.append_nil] at skipped
  obtain ⟨larger, extended, hides⟩ := shows_.extend (Array.mem_of_getElem? found) place skipped
  refine ⟨larger, _, extended, by simp, ?_⟩
  intro hidden
  obtain ⟨empty, above | ⟨below, wanted⟩⟩ := hides preferred hidden
  · exact (free empty).1 above
  · exact (free empty).2.elim below (absurd wanted)

theorem grownAfter_of_mem_openRules (disjoint : table.Disjoint)
    (taken : ¬ Chart.EndsSkipped table names) {rule : DottedRule}
    (root : rule ∈ openRules table (.recognize table names)) :
    GrownAfter table preferred (Chart.keptNames table names) rule := by
  by_cases given : names = []
  · subst given
    obtain ⟨-, p, listed, rfl⟩ | ⟨_, bound, -⟩ := mem_openRules.1 root
    · obtain ⟨production, found, origin⟩ := RuleTable.mem_productionsOf.1 listed
      refine ⟨[], [], .leaf table.start, [], production, rfl, found, .nil, ?_, fun _ => ?_⟩
      · rw [origin]
        exact .root table
      · exact ⟨DerivationTree.not_hiddenBy_root, .inl rfl⟩
    · exact absurd bound (Nat.not_lt_zero _)
  · obtain ⟨front, between, kept, read, production, found, -, yields, opens⟩ :=
      (mem_openRules_of_taken disjoint given taken).1 root
    obtain ⟨tree, address, shows_⟩ := DerivationTree.Shows.exists_of_opens opens
    exact ⟨front, between, tree, address, production, kept, found, yields, shows_,
      fun empty => absurd empty read⟩

theorem grownAfter_entered {kept : List String} {rule next : DottedRule}
    (grown : GrownAfter table preferred kept rule) (member : next ∈ entered table preferred rule) :
    GrownAfter table preferred kept next := by
  obtain ⟨name, met, p, listed, rfl⟩ := mem_entered.1 member
  obtain ⟨left, symbol, right, after, passed, same⟩ := mem_meetings.1 met
  obtain ⟨-, unwanted, rfl⟩ := met_eq_rule.1 same.symm
  obtain ⟨tree, address, shows_, -, free⟩ := grown.visible after passed
  obtain ⟨production, found, rfl⟩ := RuleTable.mem_productionsOf.1 listed
  exact ⟨kept, [], tree, address, production, by simp, found, .nil, shows_,
    fun _ => ⟨free, .inr unwanted⟩⟩

theorem visible_of_meets (disjoint : table.Disjoint) (taken : ¬ Chart.EndsSkipped table names)
    {rest : List String}
    (meets : Meets table preferred (openRules table (.recognize table names))
      (met table preferred symbol rest)) :
    Visible table preferred (Chart.keptNames table names) symbol := by
  obtain ⟨rule, visited, member⟩ := meets
  obtain ⟨left, other, right, after, passed, same⟩ := mem_meetings.1 member
  obtain rfl := met_inj same
  have grown : GrownAfter table preferred (Chart.keptNames table names) rule :=
    walk_induction (fun _ root => grownAfter_of_mem_openRules disjoint taken root)
      (fun _ grown _ entered => grownAfter_entered grown entered) rule visited
  exact grown.visible after passed

/-- From a node that is open after `earlier` the walk comes to every leaf below it that is not
hidden.  Where nothing is read on the way, the productions of the node have to be visited. -/
theorem exists_meets_of_leaf (disjoint : table.Disjoint) {tree : DerivationTree}
    {address : List Nat} {earlier : List String} (derived : tree.Derived table)
    (opened : table.Opens earlier tree.symbol) (leaf : tree.at? address = some (.leaf symbol))
    (below : address ≠ []) (free : ¬ tree.HiddenBy preferred address)
    (kept : Chart.keptNames table names = earlier ++ tree.leftOf address)
    (visited : tree.leftOf address = [] → ∀ p ∈ table.productionsOf tree.symbol,
      ⟨p, 0⟩ ∈ walk table preferred (openRules table (.recognize table names))) :
    ∃ rest, Meets table preferred (openRules table (.recognize table names))
      (met table preferred symbol rest) := by
  induction address generalizing tree earlier with
  | nil => exact absurd rfl below
  | cons i address ih =>
      obtain ⟨production, before, child, after, rfl, rfl, onward⟩ :=
        DerivationTree.exists_child_of_at? leaf
      obtain ⟨member, symbols, children⟩ := derived.cases_node
      rw [List.forall_mem_append, List.forall_mem_cons] at children
      obtain ⟨p, found⟩ := Array.mem_iff_getElem?.1 member
      have place : production.symbols = before.map DerivationTree.symbol ++
          child.symbol :: after.map DerivationTree.symbol := by
        rw [← symbols, List.map_append, List.map_cons]
      have passed : table.Yields (before.map DerivationTree.symbol)
          (before.flatMap DerivationTree.frontier) :=
        DerivationTree.Derived.yields_row fun tree listed => (children.1 tree listed).yields
      rw [DerivationTree.leftOf_child] at kept visited
      -- the child is met if nothing is read between it and the leaf
      have meets : child.leftOf address = [] →
          Meets table preferred (openRules table (.recognize table names))
            (met table preferred child.symbol (after.map DerivationTree.symbol)) := by
        intro unread
        rw [unread, List.append_nil] at kept visited
        exact meets_of_production disjoint found place opened passed kept fun read =>
          visited read p (RuleTable.mem_productionsOf.2 ⟨production, found, rfl⟩)
      cases address with
      | nil =>
          obtain rfl := Option.some.inj onward
          exact ⟨_, meets rfl⟩
      | cons j address =>
          refine ih children.2.1 (.enter member place opened passed) onward (List.cons_ne_nil _ _)
            (fun hidden => free (hidden.child before after)) (by rw [kept, List.append_assoc]) ?_
          intro unread q listed
          obtain ⟨inner, there, origin⟩ := RuleTable.mem_productionsOf.1 listed
          have entering : met table preferred child.symbol (after.map DerivationTree.symbol) =
              .rule child.symbol := by
            refine met_eq_rule.2 ⟨?_, ?_, rfl⟩
            · rw [← origin]
              exact disjoint.isTerminal_origin (Array.mem_of_getElem? there)
            · intro wanted
              exact free ⟨[before.length], j :: address, child, rfl, List.cons_ne_nil _ _,
                List.cons_ne_nil _ _, DerivationTree.at?_child, unread, wanted⟩
          obtain ⟨rule, reached, meeting⟩ := meets unread
          rw [entering] at meeting
          exact entered_mem_walk openRules_mem_dottedRules reached
            (mem_entered.2 ⟨_, meeting, q, listed, rfl⟩)

theorem exists_meets_iff_visible (disjoint : table.Disjoint)
    (taken : ¬ Chart.EndsSkipped table names) :
    (∃ rest, Meets table preferred (openRules table (.recognize table names))
        (met table preferred symbol rest)) ↔
      Visible table preferred (Chart.keptNames table names) symbol := by
  constructor
  · intro given
    obtain ⟨rest, meets⟩ := given
    exact visible_of_meets disjoint taken meets
  · intro given
    obtain ⟨tree, address, shows_, below, free⟩ := given
    have opened : table.Opens [] tree.symbol := shows_.start ▸ .start
    refine exists_meets_of_leaf disjoint shows_.derived opened shows_.leaf below free
      (by rw [shows_.left, List.nil_append]) ?_
    intro unread p listed
    rw [shows_.left] at unread
    rw [shows_.start] at listed
    exact mem_walk_of_mem (start_mem_openRules unread listed)

/-- Unless the last terminal was skipped, a terminal or a preferred rule is reported if and only if
it stands below the root of a derivation tree, behind what the chart kept, with no preferred rule
above it that is not the root and yields nothing on its left. -/
theorem reported_iff_shown (disjoint : table.Disjoint) (vocabulary : Vocabulary)
    (filter : CandidateFilter) (names : List String) (taken : ¬ Chart.EndsSkipped table names) :
    (∀ type, type ∈ (after table vocabulary filter (.recognize table names)).tokens.map (·.1) ↔
      ∃ name ∈ table.terminals, vocabulary.type? name = some type ∧ type ∉ filter.ignored ∧
        ∃ tree address, DerivationTree.Shows table tree address
            ((Chart.recognize table names).kept names) name ∧
          address ≠ [] ∧ ¬ tree.HiddenBy filter.preferred address) ∧
    ∀ rule, rule ∈ (after table vocabulary filter (.recognize table names)).rules ↔
      rule ∈ filter.preferred ∧ rule ∉ table.terminals ∧
        ∃ tree address, DerivationTree.Shows table tree address
            ((Chart.recognize table names).kept names) rule ∧
          address ≠ [] ∧ ¬ tree.HiddenBy filter.preferred address := by
  constructor
  · intro type
    rw [mem_tokens_after]
    constructor
    · intro given
      obtain ⟨name, rest, meets, typed, allowed⟩ := given
      have terminal := (expects_of_meets_terminal meets).1
      rw [← met_eq_terminal.2 ⟨terminal, rfl, rfl⟩] at meets
      exact ⟨name, OrderedSet.contains_iff.1 terminal, typed, allowed,
        visible_of_meets disjoint taken meets⟩
    · intro given
      obtain ⟨name, terminal, typed, allowed, visible⟩ := given
      obtain ⟨rest, meets⟩ := (exists_meets_iff_visible disjoint taken).2 visible
      rw [met_eq_terminal.2 ⟨OrderedSet.contains_iff.2 terminal, rfl, rfl⟩] at meets
      exact ⟨name, rest, meets, typed, allowed⟩
  · intro rule
    rw [mem_rules_after]
    constructor
    · intro meets
      obtain ⟨other, wanted, -⟩ := expects_of_meets_preferredRule meets
      have same : met table filter.preferred rule [] = .preferredRule rule :=
        met_eq_preferredRule.2 ⟨other, wanted, rfl⟩
      rw [← same] at meets
      refine ⟨wanted, ?_, visible_of_meets disjoint taken meets⟩
      rwa [← OrderedSet.contains_iff, ← RuleTable.isTerminal, Bool.not_eq_true]
    · intro given
      obtain ⟨wanted, rule, visible⟩ := given
      obtain ⟨rest, meets⟩ := (exists_meets_iff_visible disjoint taken).2 visible
      rwa [met_eq_preferredRule.2 ⟨?_, wanted, rfl⟩] at meets
      rwa [← Bool.not_eq_true, RuleTable.isTerminal, OrderedSet.contains_iff]

section Assignments

/-- Assignments of sums. -/
def sumTable : RuleTable :=
  .ofProductions [⟨"assignment", ["SET", "sum"]⟩, ⟨"sum", ["sum", "PLUS", "NUMBER"]⟩,
    ⟨"sum", ["NUMBER"]⟩] ["SET", "PLUS", "NUMBER"] "assignment"

theorem sumTable_disjoint : sumTable.Disjoint := by
  simp [RuleTable.Disjoint, sumTable, RuleTable.ofProductions]

theorem assignment_mem : ⟨"assignment", ["SET", "sum"]⟩ ∈ sumTable.productions := by
  simp [sumTable, RuleTable.ofProductions]

theorem sumTable_takes : Chart.skips sumTable [] "SET" = false := by
  rw [Chart.skips_eq_false_iff_expects sumTable_disjoint]
  refine ⟨OrderedSet.contains_iff.2 (OrderedSet.mem_ofList.2 (by simp)), _, assignment_mem, [], [],
    [], ["sum"], rfl, .start, .nil, rfl⟩

/-- Behind the first terminal of an assignment the sum is reported, by its name. -/
theorem sum_reported :
    sumTable.Disjoint ∧ ¬ Chart.EndsSkipped sumTable ["SET"] ∧
      "sum" ∈ (after sumTable ⟨[some "SET", some "PLUS", some "NUMBER"]⟩ { preferred := ["sum"] }
        (.recognize sumTable ["SET"])).rules := by
  have taken : ¬ Chart.EndsSkipped sumTable ([] ++ ["SET"]) := by
    rw [Chart.endsSkipped_concat, sumTable_takes]
    decide
  have kept : (Chart.recognize sumTable ["SET"]).kept ["SET"] = ["SET"] :=
    Chart.keptNames_concat_of_not_skips sumTable_takes
  refine ⟨sumTable_disjoint, taken,
    ((reported_iff_shown sumTable_disjoint _ _ _ taken).2 "sum").2 ⟨by simp, ?_, ?_⟩⟩
  · simp [sumTable, RuleTable.ofProductions]
  · rw [List.nil_append, kept]
    refine ⟨.node ⟨"assignment", ["SET", "sum"]⟩ [.leaf "SET", .leaf "sum"], [1],
      ⟨.node assignment_mem rfl ?_, rfl, rfl, rfl, [], rfl⟩, by simp, ?_⟩
    · intro child member
      obtain rfl | rfl : child = .leaf "SET" ∨ child = .leaf "sum" := by simpa using member
      · exact .leaf "SET"
      · exact .leaf "sum"
    · intro hidden
      obtain ⟨upper, lower, -, split, below, above, -⟩ := hidden
      rcases List.append_eq_singleton_iff.1 split.symm with ⟨empty, -⟩ | ⟨-, empty⟩
      · exact below empty
      · exact above empty

end Assignments

/-- The root is not reported: a start that is a terminal is the leaf of a tree of its own. -/
theorem not_reported_at_root :
    ¬ ∀ table : RuleTable, table.Disjoint →
      ∀ (vocabulary : Vocabulary) (filter : CandidateFilter) (names : List String),
      ¬ Chart.EndsSkipped table names →
      (∀ type, type ∈ (after table vocabulary filter (.recognize table names)).tokens.map (·.1) ↔
        ∃ name ∈ table.terminals, vocabulary.type? name = some type ∧ type ∉ filter.ignored ∧
          ∃ tree address, DerivationTree.Shows table tree address
              ((Chart.recognize table names).kept names) name ∧
            ¬ tree.HiddenBy filter.preferred address) ∧
      ∀ rule, rule ∈ (after table vocabulary filter (.recognize table names)).rules ↔
        rule ∈ filter.preferred ∧ rule ∉ table.terminals ∧
          ∃ tree address, DerivationTree.Shows table tree address
              ((Chart.recognize table names).kept names) rule ∧
            address ≠ [] ∧ ¬ tree.HiddenBy filter.preferred address := by
  intro claim
  have disjoint : Grammar.itemOnly.table.Disjoint := by
    intro production member
    rw [Grammar.production_of_itemOnly member]
    simp [Grammar.itemOnly, Grammar.ofTable, Grammar.table, Automaton.ofRules,
      RuleTable.ofProductions]
  have reported := ((claim _ disjoint ⟨[some "ITEM"]⟩ { preferred := ["list"] } []
      Chart.not_endsSkipped_nil).1 1).2
    ⟨"ITEM", OrderedSet.mem_ofList.2 (by simp), by decide, by simp, .leaf "ITEM", [],
      .root _, DerivationTree.not_hiddenBy_root⟩
  obtain ⟨name, rest, meets, -⟩ := mem_tokens_after.1 reported
  obtain ⟨-, production, member, _, _, _, _, -, opened, -⟩ := expects_of_meets_terminal meets
  rw [Grammar.production_of_itemOnly member] at opened
  exact absurd (Grammar.opens_itemOnly opened) (by decide)

end Candidates

end Typeahead
