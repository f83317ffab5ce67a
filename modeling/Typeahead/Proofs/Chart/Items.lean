import Typeahead.Proofs.Candidates.Skipping

namespace Typeahead

/-!
All columns of a chart, item by item.  Where nothing was skipped an item's origin is determined, and
the items are exactly the derivations that they stand for.  Where terminals were skipped, the chart
is that of what it keeps, with the same item under each of the origins between which only skipped
terminals stand.
-/

theorem RuleTable.stands_iff_derives {table : RuleTable} {p dot : Nat}
    {front between : List String} :
    table.Stands ⟨p, dot⟩ front between ↔
      ∃ production, table.productions[p]? = some production ∧ dot ≤ production.symbols.length ∧
        table.Derives (production.symbols.take dot) between ∧
        ∃ after, table.Derives [table.start] (front ++ production.origin :: after) := by
  simp only [Stands, opens_iff_derives, ← derives_iff_yields]

namespace Chart

variable {table : RuleTable} {names : List String}

theorem getElem?_columns {i : Nat} (bound : i ≤ names.length) :
    (recognize table names).columns[i]? = some (column table (names.take i)) := by
  rw [columns, Array.getElem?_push, size_before]
  split
  · rename_i last
    rw [last, List.take_length]
    rfl
  · rename_i earlier
    exact getElem?_before (Nat.lt_of_le_of_ne bound earlier)

theorem size_columns (names : List String) :
    (recognize table names).columns.size = names.length + 1 := by
  rw [columns, Array.size_push, size_before]

section Skipped

theorem mem_skipped_append {more : List String} {i : Nat} (inside : i < names.length) :
    i ∈ (recognize table (names ++ more)).skipped ↔ i ∈ (recognize table names).skipped := by
  induction more using List.reverseRecOn with
  | nil => rw [List.append_nil]
  | append_singleton more name ih =>
      have distinct : i ≠ (names ++ more).length := by
        rw [List.length_append]
        omega
      rw [← List.append_assoc, skipped_concat]
      split
      · rw [Array.mem_push, or_iff_left distinct, ih]
      · exact ih

/-- A position was skipped if the chart of what stands in front of it skips its terminal. -/
theorem mem_skipped_iff {i : Nat} {name : String} (there : names[i]? = some name) :
    i ∈ (recognize table names).skipped ↔ skips table (names.take i) name = true := by
  obtain ⟨inside, rfl⟩ := List.getElem?_eq_some_iff.1 there
  have length : (names.take i).length = i := List.length_take_of_le (Nat.le_of_lt inside)
  have fresh : i ∉ (recognize table (names.take i)).skipped := by
    intro member
    have before := lt_of_mem_skipped member
    omega
  have split : names = names.take i ++ [names[i]] ++ names.drop (i + 1) := by
    rw [List.take_append_getElem, List.take_append_drop]
  have border : i < (names.take i ++ [names[i]]).length := by
    rw [List.length_append, length, List.length_singleton]
    exact Nat.lt_succ_self i
  conv_lhs => rw [split]
  rw [mem_skipped_append border, skipped_concat, length]
  split
  · rename_i skipped
    simp [skipped]
  · rename_i taken
    simp [taken, fresh]

theorem length_keptNames_le (names : List String) :
    (keptNames table names).length ≤ names.length := by
  rw [keptNames, kept, List.length_map]
  exact Nat.le_trans (List.length_filter_le _ _) (Nat.le_of_eq List.length_zipIdx)

/-- What a chart keeps is its whole input if nothing was skipped. -/
theorem keptNames_eq_self_iff :
    keptNames table names = names ↔ (recognize table names).skipped = #[] := by
  induction names using List.reverseRecOn with
  | nil => exact ⟨fun _ => rfl, fun _ => rfl⟩
  | append_singleton names name ih =>
      rw [skipped_concat]
      cases skipped : skips table names name with
      | true =>
          have shorter : (keptNames table names).length ≤ names.length := length_keptNames_le names
          have differs : keptNames table names ≠ names ++ [name] := by
            intro same
            rw [same, List.length_append, List.length_singleton] at shorter
            omega
          simp [keptNames_concat_of_skips skipped, differs]
      | false => simp [keptNames_concat_of_not_skips skipped, ih]

/-- The number of positions below `i` that were not skipped. -/
def keptBelow (chart : Chart) (i : Nat) : Nat :=
  (List.range i).countP fun j => !chart.skipped.contains j

theorem keptBelow_eq {i : Nat} (bound : i ≤ names.length) :
    (recognize table names).keptBelow i = (keptNames table (names.take i)).length := by
  induction i with
  | zero => rfl
  | succ i ih =>
      have inside : i < names.length := bound
      have there : names[i]? = some names[i] := List.getElem?_eq_getElem inside
      have more : names.take (i + 1) = names.take i ++ [names[i]] := by
        rw [List.take_append_getElem]
      have earlier : (recognize table names).keptBelow i = (keptNames table (names.take i)).length :=
        ih (Nat.le_of_succ_le bound)
      rw [keptBelow, List.range_succ, List.countP_append, ← keptBelow, earlier, more, keptNames_concat,
        List.length_append, List.countP_singleton, Array.contains_eq_mem]
      simp only [mem_skipped_iff there]
      cases skips table (names.take i) names[i] <;> simp

theorem keptNames_take_begins (names : List String) (i : Nat) :
    keptNames table (names.take i) <+: keptNames table names := by
  have begins : keptNames table (names.take i) <+:
      keptNames table (names.take i ++ names.drop i) := keptNames_prefix _ _
  rwa [List.take_append_drop] at begins

theorem keptNames_take {i : Nat} (bound : i ≤ names.length) :
    keptNames table (names.take i) =
      (keptNames table names).take ((recognize table names).keptBelow i) := by
  rw [keptBelow_eq bound]
  exact List.prefix_iff_eq_take.1 (keptNames_take_begins names i)

end Skipped

/-- The items of the last column, with the number of terminals kept in front of their origins. -/
theorem exists_mem_column_iff (disjoint : table.Disjoint) {rule : DottedRule} {front : Nat} :
    (∃ origin, (keptNames table (names.take origin)).length = front ∧
        ⟨rule, origin⟩ ∈ column table names) ↔
      front ≤ (keptNames table names).length ∧
        table.Stands rule ((keptNames table names).take front)
          ((keptNames table names).drop front) := by
  constructor
  · intro given
    obtain ⟨origin, rfl, member⟩ := given
    obtain ⟨between, kept, stands⟩ := (justified_of_mem member).derivation
    rw [kept, List.take_left, List.drop_left, List.length_append]
    exact ⟨Nat.le_add_right _ _, stands⟩
  · intro given
    obtain ⟨bound, stands⟩ := given
    have parts : keptNames table names =
        (keptNames table names).take front ++ (keptNames table names).drop front :=
      (List.take_append_drop front _).symm
    obtain ⟨origin, same, member⟩ := (exists_mem_iff disjoint).2 ⟨_, parts, stands⟩
    exact ⟨origin, by rw [same, List.length_take_of_le bound], member⟩

section Whole

variable (disjoint : table.Disjoint) (whole : keptNames table names = names)

include whole in
theorem keptNames_take_of_whole (i : Nat) : keptNames table (names.take i) = names.take i := by
  rw [keptNames_eq_self_iff] at whole ⊢
  rw [Array.eq_empty_iff_forall_not_mem]
  intro j member
  have inside := lt_of_mem_skipped member
  have later : j ∈ (recognize table (names.take i ++ names.drop i)).skipped :=
    (mem_skipped_append inside).2 member
  rw [List.take_append_drop, whole] at later
  exact absurd later (Array.not_mem_empty j)

include disjoint whole

/-- Where nothing was skipped, only one origin has a given number of terminals in front. -/
theorem mem_column_iff_of_whole {rule : DottedRule} {origin : Nat} :
    ⟨rule, origin⟩ ∈ column table names ↔
      origin ≤ names.length ∧ table.Stands rule (names.take origin) (names.drop origin) := by
  have placed : (∃ other, (keptNames table (names.take other)).length = origin ∧
      ⟨rule, other⟩ ∈ column table names) ↔ _ := exists_mem_column_iff disjoint
  simp only [keptNames_take_of_whole whole, whole, List.length_take] at placed
  rw [← placed]
  constructor
  · intro member
    exact ⟨origin, Nat.min_eq_left (justified_of_mem member).origin_le, member⟩
  · intro given
    obtain ⟨other, same, member⟩ := given
    rw [Nat.min_eq_left (justified_of_mem member).origin_le] at same
    rwa [← same]

end Whole

/-- Without skipped terminals an item stands in a column if and only if the symbols before its dot
derive the terminals from its origin on, and the start derives its production behind those in front
of its origin. -/
theorem mem_columns_iff_derives (disjoint : table.Disjoint)
    (unskipped : (recognize table names).skipped = #[]) (i p dot origin : Nat) :
    (∃ column, (recognize table names).columns[i]? = some column ∧ ⟨⟨p, dot⟩, origin⟩ ∈ column) ↔
      i ≤ names.length ∧ ∃ production, table.productions[p]? = some production ∧
        dot ≤ production.symbols.length ∧ origin ≤ i ∧
        table.Derives (production.symbols.take dot) ((names.take i).drop origin) ∧
        ∃ after, table.Derives [table.start] (names.take origin ++ production.origin :: after) := by
  constructor
  · intro given
    obtain ⟨column, found, member⟩ := given
    have bound : i ≤ names.length := by
      have inside := (Array.getElem?_eq_some_iff.1 found).1
      rw [size_columns] at inside
      exact Nat.le_of_lt_succ inside
    rw [getElem?_columns bound] at found
    obtain rfl := Option.some.inj found
    have whole := keptNames_take_of_whole (keptNames_eq_self_iff.2 unskipped) i
    obtain ⟨early, stands⟩ := (mem_column_iff_of_whole disjoint whole).1 member
    rw [List.length_take_of_le bound] at early
    rw [List.take_take, Nat.min_eq_left early] at stands
    obtain ⟨production, there, inside, derives, opened⟩ := RuleTable.stands_iff_derives.1 stands
    exact ⟨bound, production, there, inside, early, derives, opened⟩
  · intro given
    obtain ⟨bound, production, there, inside, early, derives, opened⟩ := given
    have whole := keptNames_take_of_whole (keptNames_eq_self_iff.2 unskipped) i
    refine ⟨_, getElem?_columns bound, (mem_column_iff_of_whole disjoint whole).2 ⟨?_, ?_⟩⟩
    · rwa [List.length_take_of_le bound]
    · rw [List.take_take, Nat.min_eq_left early]
      exact RuleTable.stands_iff_derives.2 ⟨production, there, inside, derives, opened⟩

/-- A list whose left recursion is hidden behind a symbol that yields nothing. -/
def hiddenRecursion : RuleTable :=
  .ofProductions [⟨"list", ["gap", "list", "ITEM"]⟩, ⟨"list", []⟩, ⟨"gap", []⟩] ["ITEM"] "list"

section HiddenRecursion

theorem hiddenRecursion_disjoint : hiddenRecursion.Disjoint := by
  simp [RuleTable.Disjoint, hiddenRecursion, RuleTable.ofProductions]

theorem hiddenRecursion_derives : hiddenRecursion.Derives ["gap", "list", "ITEM"] ["ITEM"] := by
  have list : (⟨"list", []⟩ : Production) ∈ hiddenRecursion.productions := by
    simp [hiddenRecursion, RuleTable.ofProductions]
  have gap : (⟨"gap", []⟩ : Production) ∈ hiddenRecursion.productions := by
    simp [hiddenRecursion, RuleTable.ofProductions]
  have first : hiddenRecursion.Rewrites ["gap", "list", "ITEM"] ["list", "ITEM"] :=
    .replace [] ["list", "ITEM"] gap
  have second : hiddenRecursion.Rewrites ["list", "ITEM"] ["ITEM"] := .replace [] ["ITEM"] list
  exact (Relation.ReflTransGen.single first).tail second

theorem hiddenRecursion_transGen :
    Relation.TransGen hiddenRecursion.Rewrites [hiddenRecursion.start] ["ITEM"] := by
  have recursion : (⟨"list", ["gap", "list", "ITEM"]⟩ : Production) ∈ hiddenRecursion.productions := by
    simp [hiddenRecursion, RuleTable.ofProductions]
  have opened : hiddenRecursion.Rewrites ["list"] ["gap", "list", "ITEM"] := .replace [] [] recursion
  exact (Relation.TransGen.single opened).trans_left hiddenRecursion_derives

theorem hiddenRecursion_takes : skips hiddenRecursion [] "ITEM" = false := by
  rw [skips_eq_false_iff_expects hiddenRecursion_disjoint, RuleTable.isTerminal,
    OrderedSet.contains_iff]
  refine ⟨OrderedSet.mem_ofList.2 (by simp), RuleTable.expects_iff_transGen.2 ⟨[], ?_⟩⟩
  exact hiddenRecursion_transGen

theorem mem_columns_of_hiddenRecursion :
    hiddenRecursion.Disjoint ∧ (recognize hiddenRecursion ["ITEM"]).skipped = #[] ∧
      ∃ column, (recognize hiddenRecursion ["ITEM"]).columns[1]? = some column ∧
        ⟨⟨0, 3⟩, 0⟩ ∈ column := by
  have unskipped : (recognize hiddenRecursion ([] ++ ["ITEM"])).skipped = #[] := by
    rw [skipped_concat, hiddenRecursion_takes]
    rfl
  have stands := mem_columns_iff_derives hiddenRecursion_disjoint unskipped 1 0 3 0
  refine ⟨hiddenRecursion_disjoint, unskipped, stands.2 ⟨Nat.le_refl 1, ?_⟩⟩
  exact ⟨⟨"list", ["gap", "list", "ITEM"]⟩, rfl, Nat.le_refl 3, Nat.zero_le 1,
    hiddenRecursion_derives, [], .refl ["list"]⟩

end HiddenRecursion

/-- What a chart makes of skipped terminals: it is the chart of those that it keeps, in which nothing
is skipped, with as many columns more as there are skipped ones. -/
structure Deletes (table : RuleTable) (names : List String) (chart clean : Chart) : Prop where
  skipped_iff : ∀ i name, names[i]? = some name → (i ∈ chart.skipped ↔
    ¬ (name ∈ table.terminals ∧ ∃ column, chart.columns[i]? = some column ∧
      ∃ item ∈ column, table.symbolAt? item.toDottedRule = some name))
  unskipped : clean.skipped = #[]
  columns : ∀ i ≤ names.length, ∃ column image, chart.columns[i]? = some column ∧
    clean.columns[chart.keptBelow i]? = some image ∧
    ∀ item, item ∈ image ↔
      ∃ other ∈ column, { other with origin := chart.keptBelow other.origin } = item
  taken_iff : ∀ i name, names[i]? = some name → (i ∉ chart.skipped ↔
    name ∈ table.terminals ∧ ∃ after, Relation.TransGen table.Rewrites [table.start]
      ((chart.kept names).take (chart.keptBelow i) ++ name :: after))

theorem keptBelow_origin {i : Nat} (bound : i ≤ names.length) {item : Item}
    (member : item ∈ column table (names.take i)) :
    (recognize table names).keptBelow item.origin =
      (keptNames table ((names.take i).take item.origin)).length := by
  have early := (justified_of_mem member).origin_le
  rw [List.length_take_of_le bound] at early
  rw [keptBelow_eq (Nat.le_trans early bound), List.take_take, Nat.min_eq_left early]

/-- A column of what is kept, from the column that keeps as much. -/
theorem mem_column_keptNames (disjoint : table.Disjoint) {i : Nat} (bound : i ≤ names.length)
    {item : Item} :
    item ∈ column table (keptNames table (names.take i)) ↔ ∃ other ∈ column table (names.take i),
      { other with origin := (recognize table names).keptBelow other.origin } = item := by
  have placed : (∃ origin, (keptNames table ((names.take i).take origin)).length = item.origin ∧
      ⟨item.toDottedRule, origin⟩ ∈ column table (names.take i)) ↔ _ := exists_mem_column_iff disjoint
  rw [← mem_column_iff_of_whole disjoint (keptNames_keptNames disjoint _)] at placed
  rw [← placed]
  constructor
  · intro given
    obtain ⟨origin, same, member⟩ := given
    refine ⟨_, member, ?_⟩
    rw [keptBelow_origin bound member, same]
  · intro given
    obtain ⟨other, member, rfl⟩ := given
    exact ⟨other.origin, (keptBelow_origin bound member).symm, member⟩

/-- Skipping terminals is deleting them: the chart of any input is that of what it keeps, with origins
moved to what is kept in front of them, and it keeps the terminals that the start derives next. -/
theorem recognize_deletes (disjoint : table.Disjoint) (names : List String) :
    Deletes table names (recognize table names)
      (recognize table ((recognize table names).kept names)) where
  skipped_iff := by
    intro i name there
    have bound := Nat.le_of_lt (List.getElem?_eq_some_iff.1 there).1
    rw [mem_skipped_iff there, ← Bool.not_eq_false, skips_eq_false_iff, RuleTable.isTerminal,
      OrderedSet.contains_iff]
    simp only [getElem?_columns bound, Option.some.injEq, exists_eq_left']
  unskipped := keptNames_eq_self_iff.1 (keptNames_keptNames disjoint names)
  columns := by
    intro i bound
    have few : (recognize table names).keptBelow i ≤ (keptNames table names).length := by
      rw [keptBelow_eq bound]
      exact (keptNames_take_begins names i).length_le
    refine ⟨_, _, getElem?_columns bound, getElem?_columns few, fun item => ?_⟩
    rw [← mem_column_keptNames disjoint bound, keptNames_take bound]
    rfl
  taken_iff := by
    intro i name there
    have bound := Nat.le_of_lt (List.getElem?_eq_some_iff.1 there).1
    rw [mem_skipped_iff there, Bool.not_eq_true, skips_eq_false_iff_expects disjoint,
      keptNames_take bound, RuleTable.expects_iff_transGen, RuleTable.isTerminal,
      OrderedSet.contains_iff]
    rfl

theorem hiddenRecursion_deletes :
    hiddenRecursion.Disjoint ∧
      Deletes hiddenRecursion ["?", "ITEM"] (recognize hiddenRecursion ["?", "ITEM"])
        (recognize hiddenRecursion ((recognize hiddenRecursion ["?", "ITEM"]).kept ["?", "ITEM"])) ∧
      0 ∈ (recognize hiddenRecursion ["?", "ITEM"]).skipped := by
  have deletes := recognize_deletes hiddenRecursion_disjoint ["?", "ITEM"]
  refine ⟨hiddenRecursion_disjoint, deletes, (deletes.skipped_iff 0 "?" rfl).2 ?_⟩
  intro given
  simp [hiddenRecursion, RuleTable.ofProductions] at given

/-- A start that is a terminal derives itself without a replacement, but is not taken. -/
theorem not_taken_iff_derives :
    ¬ ∀ table : RuleTable, table.Disjoint → ∀ (names : List String) (i : Nat) (name : String),
      names[i]? = some name → (i ∉ (recognize table names).skipped ↔
        name ∈ table.terminals ∧ ∃ after, table.Derives [table.start]
          (((recognize table names).kept names).take ((recognize table names).keptBelow i) ++
            name :: after)) := by
  intro claim
  have itself : Grammar.itemOnly.table.Derives ["ITEM"] ["ITEM"] := .refl _
  have taken := (claim Grammar.itemOnly.table Grammar.itemOnly_disjoint ["ITEM"] 0 "ITEM" rfl).2
    ⟨OrderedSet.mem_ofList.2 (by simp), [], itself⟩
  rw [mem_skipped_iff rfl, Bool.not_eq_true,
    skips_eq_false_iff_expects Grammar.itemOnly_disjoint] at taken
  obtain ⟨-, production, member, _, _, _, _, -, opened, -⟩ := taken
  rw [Grammar.production_of_itemOnly member] at opened
  exact absurd (Grammar.opens_itemOnly opened) (by decide)

end Chart

end Typeahead
