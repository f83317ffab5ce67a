import Typeahead.Grammar
import Typeahead.Proofs.Candidates.Walk

namespace Typeahead

/-!
Candidates are what can come next.  Without preferred rules the walk meets exactly the terminals
that some derivation from the start puts behind what the chart kept.
-/

namespace Candidates

variable {table : RuleTable} {preferred names : List String}

/-- A dotted rule that is open after `kept`. -/
def OpenAfter (table : RuleTable) (kept : List String) (rule : DottedRule) : Prop :=
  ∃ front between, kept = front ++ between ∧ table.Stands rule front between

theorem OpenAfter.expects {kept left right : List String} {rule : DottedRule} {symbol : String}
    (opened : OpenAfter table kept rule)
    (after : (table.symbols rule.production).drop rule.dot = left ++ symbol :: right)
    (passed : ∀ s ∈ left, passable table s = true) : table.Expects kept symbol := by
  obtain ⟨front, between, rfl, production, found, -, yields, opens⟩ := opened
  rw [RuleTable.symbols_of_getElem? found] at after
  have place : production.symbols =
      (production.symbols.take rule.dot ++ left) ++ symbol :: right := by
    rw [List.append_assoc, ← after, List.take_append_drop]
  have skipped : table.Yields (production.symbols.take rule.dot ++ left) (between ++ []) :=
    yields.append (yields_of_passable passed)
  rw [List.append_nil] at skipped
  exact ⟨production, Array.mem_of_getElem? found, front, _, between, right, place, opens, skipped, rfl⟩

theorem openAfter_of_opens {kept : List String} {symbol : String} {p : Nat}
    (opens : table.Opens kept symbol) (listed : p ∈ table.productionsOf symbol) :
    OpenAfter table kept ⟨p, 0⟩ := by
  obtain ⟨production, found, rfl⟩ := RuleTable.mem_productionsOf.1 listed
  exact ⟨kept, [], by simp, production, found, Nat.zero_le _, .nil, opens⟩

theorem openAfter_entered {kept : List String} {rule next : DottedRule}
    (opened : OpenAfter table kept rule) (member : next ∈ entered table preferred rule) :
    OpenAfter table kept next := by
  obtain ⟨name, met, p, listed, rfl⟩ := mem_entered.1 member
  obtain ⟨left, symbol, right, after, passed, same⟩ := mem_meetings.1 met
  have expects := opened.expects after passed
  have equal : symbol = name := by
    unfold Candidates.met at same
    split at same
    · cases same
    · split at same
      · cases same
      · exact (Meeting.rule.inj same).symm
  rw [equal] at expects
  exact openAfter_of_opens expects.opens listed

/-- The rules from which the walk starts: those of the start, or the items with an earlier
origin. -/
theorem mem_openRules {rule : DottedRule} :
    rule ∈ openRules table (.recognize table names) ↔
      (names = [] ∧ ∃ p ∈ table.productionsOf table.start, rule = ⟨p, 0⟩) ∨
        ∃ origin < names.length, ⟨rule, origin⟩ ∈ Chart.column table names := by
  have empty : (Chart.recognize table names).before.isEmpty = true ↔ names = [] := by
    rw [Array.isEmpty_iff_size_eq_zero, Chart.size_before, List.length_eq_zero_iff]
  unfold openRules
  split
  · rename_i none
    obtain rfl := empty.1 none
    simp [eq_comm]
  · rename_i some
    have given : names ≠ [] := fun nil => some (empty.2 nil)
    rw [Chart.size_before]
    simp only [OrderedSet.mem_ofList, List.mem_map, List.mem_filter, OrderedSet.mem_toList,
      decide_eq_true_eq, given, false_and, false_or]
    constructor
    · intro given
      obtain ⟨item, ⟨member, bound⟩, rfl⟩ := given
      exact ⟨item.origin, bound, member⟩
    · intro given
      obtain ⟨origin, bound, member⟩ := given
      exact ⟨⟨rule, origin⟩, ⟨member, bound⟩, rfl⟩

theorem openAfter_of_mem_openRules {rule : DottedRule}
    (member : rule ∈ openRules table (.recognize table names)) :
    OpenAfter table (Chart.keptNames table names) rule := by
  rcases mem_openRules.1 member with ⟨rfl, p, listed, rfl⟩ | ⟨origin, -, inside⟩
  · exact openAfter_of_opens .start listed
  · obtain ⟨between, kept, stands⟩ := (Chart.justified_of_mem inside).derivation
    exact ⟨_, between, kept, stands⟩

theorem openAfter_of_mem_walk {rule : DottedRule}
    (member : rule ∈ walk table preferred (openRules table (.recognize table names))) :
    OpenAfter table (Chart.keptNames table names) rule :=
  walk_induction (fun _ root => openAfter_of_mem_openRules root)
    (fun _ opened _ entered => openAfter_entered opened entered) rule member

theorem mem_openRules_of_stands (disjoint : table.Disjoint) {rule : DottedRule}
    {front between : List String} (kept : Chart.keptNames table names = front ++ between)
    (read : between ≠ []) (stands : table.Stands rule front between) :
    rule ∈ openRules table (.recognize table names) := by
  obtain ⟨origin, same, member⟩ := (Chart.exists_mem_iff disjoint).2 ⟨between, kept, stands⟩
  refine mem_openRules.2 (.inr ⟨origin, ?_, member⟩)
  by_contra late
  rw [List.take_of_length_le (Nat.le_of_not_lt late), kept] at same
  exact read (List.append_right_eq_self.1 same)

theorem start_mem_openRules (kept : Chart.keptNames table names = [])
    {p : Nat} (listed : p ∈ table.productionsOf table.start) :
    ⟨p, 0⟩ ∈ openRules table (.recognize table names) := by
  rw [mem_openRules]
  cases names with
  | nil => exact .inl ⟨rfl, p, listed, rfl⟩
  | cons name names =>
      have first : ⟨⟨p, 0⟩, 0⟩ ∈ Chart.column table [] := by
        rw [Chart.column_nil]
        exact Column.mem_close_of_mem (OrderedSet.mem_ofList.2 (List.mem_map_of_mem listed))
      have carried : ⟨⟨p, 0⟩, 0⟩ ∈ Chart.column table ([] ++ name :: names) := Chart.carry first kept
      exact .inr ⟨0, by simp, carried⟩

/-- A visited rule meets the symbols behind its dot that stand behind what yields nothing. -/
theorem meets_of_mem_walk (disjoint : table.Disjoint) {roots : OrderedSet DottedRule} {p : Nat}
    {production : Production} {front left right : List String} {symbol : String}
    (visited : ⟨p, front.length⟩ ∈ walk table preferred roots)
    (found : table.productions[p]? = some production)
    (place : production.symbols = front ++ (left ++ symbol :: right))
    (empty : table.Yields left []) :
    Meets table preferred roots (met table preferred symbol right) := by
  refine ⟨_, visited, mem_meetings.2 ⟨left, symbol, right, ?_, passable_of_yields disjoint empty, rfl⟩⟩
  rw [RuleTable.symbols_of_getElem? found, place, List.drop_left]

/-- A symbol behind something that was read stands in a root; any other one stands in a rule that
was entered here. -/
theorem meets_of_production (disjoint : table.Disjoint) {p : Nat} {production : Production}
    {earlier left between right : List String} {symbol : String}
    (found : table.productions[p]? = some production)
    (place : production.symbols = left ++ symbol :: right)
    (opened : table.Opens earlier production.origin) (passed : table.Yields left between)
    (kept : Chart.keptNames table names = earlier ++ between)
    (visited : between = [] →
      ⟨p, 0⟩ ∈ walk table preferred (openRules table (.recognize table names))) :
    Meets table preferred (openRules table (.recognize table names))
      (met table preferred symbol right) := by
  by_cases read : between = []
  · have entered : ⟨p, ([] : List String).length⟩ ∈
        walk table preferred (openRules table (.recognize table names)) := visited read
    exact meets_of_mem_walk disjoint entered found place (read ▸ passed)
  · have stands := RuleTable.stands_of_place found place opened passed
    exact meets_of_mem_walk disjoint (mem_walk_of_mem (mem_openRules_of_stands disjoint kept read stands))
      found place .nil

/-- Without preferred rules every production that is open at the end is visited from its front. -/
theorem visited_of_opens (disjoint : table.Disjoint) {kept : List String} {symbol : String}
    (opens : table.Opens kept symbol) (same : Chart.keptNames table names = kept) {p : Nat}
    (listed : p ∈ table.productionsOf symbol) :
    ⟨p, 0⟩ ∈ walk table [] (openRules table (.recognize table names)) := by
  induction opens generalizing p with
  | start => exact mem_walk_of_mem (start_mem_openRules same listed)
  | @enter production earlier left between right symbol member place opened passed ih =>
      obtain ⟨q, found⟩ := Array.mem_iff_getElem?.1 member
      obtain ⟨rule, visited, meets⟩ := meets_of_production disjoint found place opened passed same
        fun read => ih (by simpa [read] using same) (RuleTable.mem_productionsOf.2 ⟨_, found, rfl⟩)
      obtain ⟨inner, there, rfl⟩ := RuleTable.mem_productionsOf.1 listed
      have name : met table [] inner.origin right = .rule inner.origin := by
        simp [met, disjoint.isTerminal_origin (Array.mem_of_getElem? there)]
      rw [name] at meets
      exact entered_mem_walk openRules_mem_dottedRules visited
        (mem_entered.2 ⟨_, meets, p, listed, rfl⟩)

theorem exists_meets_of_expects (disjoint : table.Disjoint) {symbol : String}
    (expects : table.Expects (Chart.keptNames table names) symbol) :
    ∃ rest, Meets table [] (openRules table (.recognize table names)) (met table [] symbol rest) := by
  obtain ⟨production, member, earlier, left, between, right, place, opened, passed, kept⟩ := expects
  obtain ⟨p, found⟩ := Array.mem_iff_getElem?.1 member
  refine ⟨right, meets_of_production disjoint found place opened passed kept fun read => ?_⟩
  refine visited_of_opens disjoint opened ?_ (RuleTable.mem_productionsOf.2 ⟨_, found, rfl⟩)
  simpa [read] using kept

theorem met_eq_terminal {symbol name : String} {right rest : List String} :
    met table preferred symbol right = .terminal name rest ↔
      table.isTerminal name = true ∧ symbol = name ∧ right = rest := by
  unfold met
  split
  · rename_i terminal
    constructor
    · intro same
      obtain ⟨rfl, rfl⟩ := Meeting.terminal.inj same
      exact ⟨terminal, rfl, rfl⟩
    · intro given
      obtain ⟨-, rfl, rfl⟩ := given
      rfl
  · rename_i other
    constructor
    · intro same
      split at same <;> cases same
    · intro given
      obtain ⟨terminal, rfl, rfl⟩ := given
      exact absurd terminal other

theorem expects_of_meets_terminal {name : String} {rest : List String}
    (meets : Meets table preferred (openRules table (.recognize table names)) (.terminal name rest)) :
    table.isTerminal name = true ∧ table.Expects (Chart.keptNames table names) name := by
  obtain ⟨rule, visited, member⟩ := meets
  obtain ⟨left, symbol, right, after, passed, same⟩ := mem_meetings.1 member
  obtain ⟨terminal, rfl, rfl⟩ := met_eq_terminal.1 same.symm
  exact ⟨terminal, (openAfter_of_mem_walk visited).expects after passed⟩

theorem exists_meets_terminal_iff (disjoint : table.Disjoint) {name : String} :
    (∃ rest, Meets table [] (openRules table (.recognize table names)) (.terminal name rest)) ↔
      table.isTerminal name = true ∧ table.Expects (Chart.keptNames table names) name := by
  constructor
  · intro given
    obtain ⟨rest, meets⟩ := given
    exact expects_of_meets_terminal meets
  · intro given
    obtain ⟨terminal, expects⟩ := given
    obtain ⟨rest, meets⟩ := exists_meets_of_expects disjoint expects
    exact ⟨rest, met_eq_terminal.2 ⟨terminal, rfl, rfl⟩ ▸ meets⟩

theorem mem_tokens_iff_expects (disjoint : table.Disjoint) {vocabulary : Vocabulary}
    {ignored : List Int} {type : Int} :
    type ∈ (after table vocabulary { ignored } (.recognize table names)).tokens.map (·.1) ↔
      ∃ name, table.isTerminal name = true ∧ vocabulary.type? name = some type ∧
        type ∉ ignored ∧ table.Expects (Chart.keptNames table names) name := by
  rw [mem_tokens_after]
  constructor
  · intro given
    obtain ⟨name, rest, meets, typed, allowed⟩ := given
    obtain ⟨terminal, expects⟩ := expects_of_meets_terminal meets
    exact ⟨name, terminal, typed, allowed, expects⟩
  · intro given
    obtain ⟨name, terminal, typed, allowed, expects⟩ := given
    obtain ⟨rest, meets⟩ := (exists_meets_terminal_iff disjoint).2 ⟨terminal, expects⟩
    exact ⟨name, rest, meets, typed, allowed⟩

end Candidates

namespace Grammar

/-- Without preferred rules a token type is reported in front of a stream position if and only if
it is the type of a terminal, not ignored, that the start derives behind the terminals which the
chart keeps of those in front of that position. -/
theorem mem_candidates_iff_derives (grammar : Grammar) (disjoint : grammar.table.Disjoint)
    (rule : grammar.table.start ∉ grammar.table.terminals) (ignored : List Int)
    (stream : TokenStream) (index : Int) (type : Int) :
    type ∈ (Candidates.after grammar.table grammar.vocabulary { ignored }
        (grammar.chartBefore stream index)).tokens.map (·.1) ↔
      ∃ name ∈ grammar.table.terminals, grammar.vocabulary.type? name = some type ∧
        type ∉ ignored ∧ ∃ after, grammar.table.Derives [grammar.table.start]
          ((grammar.chartBefore stream index).kept
            ((stream.visibleBefore index).map grammar.terminalOf) ++ name :: after) := by
  rw [Candidates.mem_tokens_after]
  constructor
  · intro given
    obtain ⟨name, rest, meets, typed, allowed⟩ := given
    obtain ⟨terminal, expects⟩ := Candidates.expects_of_meets_terminal meets
    exact ⟨name, OrderedSet.contains_iff.1 terminal, typed, allowed,
      RuleTable.opens_iff_derives.1 expects.opens⟩
  · intro given
    obtain ⟨name, terminal, typed, allowed, derives⟩ := given
    rcases RuleTable.opens_iff_expects.1 (RuleTable.opens_iff_derives.2 derives) with
      ⟨-, rfl⟩ | expects
    · exact absurd terminal rule
    · obtain ⟨rest, meets⟩ := (Candidates.exists_meets_terminal_iff disjoint).2
        ⟨OrderedSet.contains_iff.2 terminal, expects⟩
      exact ⟨name, rest, meets, typed, allowed⟩

/-- A grammar of which only the rules and the names of the token types matter. -/
def ofTable (table : RuleTable) (names : List String) : Grammar where
  name := ""
  lexicon := { rules := [] }
  vocabulary := ⟨names.map some⟩
  automaton := .ofRules table

/-- One terminal, any number of times. -/
def repetition : Grammar :=
  .ofTable (.ofProductions [⟨"list", ["ITEM", "list"]⟩, ⟨"list", []⟩] ["ITEM"] "list") ["ITEM"]

theorem mem_candidates_of_repetition :
    repetition.table.Disjoint ∧ repetition.table.start ∉ repetition.table.terminals ∧
      1 ∈ (Candidates.after repetition.table repetition.vocabulary { ignored := [2] }
        (repetition.chartBefore (.close #[] .start) 0)).tokens.map (·.1) := by
  have disjoint : repetition.table.Disjoint := by
    simp [RuleTable.Disjoint, repetition, ofTable, table, Automaton.ofRules,
      RuleTable.ofProductions]
  have rule : repetition.table.start ∉ repetition.table.terminals := by
    simp [repetition, ofTable, table, Automaton.ofRules, RuleTable.ofProductions]
  refine ⟨disjoint, rule, (mem_candidates_iff_derives repetition disjoint rule [2] _ 0 1).2 ?_⟩
  refine ⟨"ITEM", OrderedSet.mem_ofList.2 (by simp), by decide, by simp, ["list"], ?_⟩
  have first : (⟨"list", ["ITEM", "list"]⟩ : Production) ∈ repetition.table.productions := by
    simp [repetition, ofTable, table, Automaton.ofRules, RuleTable.ofProductions]
  have step : repetition.table.Rewrites ["list"] ["ITEM", "list"] :=
    RuleTable.Rewrites.replace [] [] first
  exact Relation.ReflTransGen.single step

/-- A grammar whose start is a terminal. -/
def itemOnly : Grammar := .ofTable (.ofProductions [⟨"list", ["ITEM"]⟩] ["ITEM"] "ITEM") ["ITEM"]

theorem production_of_itemOnly {production : Production}
    (member : production ∈ itemOnly.table.productions) : production = ⟨"list", ["ITEM"]⟩ := by
  simpa [itemOnly, ofTable, table, Automaton.ofRules, RuleTable.ofProductions] using member

theorem itemOnly_disjoint : itemOnly.table.Disjoint := by
  intro production member
  rw [production_of_itemOnly member]
  simp [itemOnly, ofTable, table, Automaton.ofRules, RuleTable.ofProductions]

theorem opens_itemOnly {front : List String} {symbol : String}
    (opens : itemOnly.table.Opens front symbol) : symbol = "ITEM" := by
  cases opens with
  | start => rfl
  | @enter production _ left _ right _ member place =>
      rw [production_of_itemOnly member] at place
      have inside : symbol ∈ ["ITEM"] := by
        rw [show ["ITEM"] = left ++ symbol :: right from place]
        simp
      simpa using inside

/-- The start has to be a rule: one that is a terminal derives itself and is not reported. -/
theorem not_mem_candidates_of_terminal_start :
    ¬ ∀ grammar : Grammar, grammar.table.Disjoint →
      ∀ (ignored : List Int) (stream : TokenStream) (index : Int) (type : Int),
      type ∈ (Candidates.after grammar.table grammar.vocabulary { ignored }
          (grammar.chartBefore stream index)).tokens.map (·.1) ↔
        ∃ name ∈ grammar.table.terminals, grammar.vocabulary.type? name = some type ∧
          type ∉ ignored ∧ ∃ after, grammar.table.Derives [grammar.table.start]
            ((grammar.chartBefore stream index).kept
              ((stream.visibleBefore index).map grammar.terminalOf) ++ name :: after) := by
  intro claim
  have disjoint : itemOnly.table.Disjoint := by
    intro production member
    rw [production_of_itemOnly member]
    simp [itemOnly, ofTable, table, Automaton.ofRules, RuleTable.ofProductions]
  have itself : itemOnly.table.Derives ["ITEM"] ["ITEM"] := .refl _
  have reported := (claim itemOnly disjoint [] (.close #[] .start) 0 1).2
    ⟨"ITEM", OrderedSet.mem_ofList.2 (by simp), by decide, by simp, [], itself⟩
  obtain ⟨name, rest, meets, -⟩ := Candidates.mem_tokens_after.1 reported
  obtain ⟨-, production, member, _, _, _, _, -, opened, -⟩ :=
    Candidates.expects_of_meets_terminal meets
  rw [production_of_itemOnly member] at opened
  exact absurd (opens_itemOnly opened) (by decide)

end Grammar

end Typeahead
