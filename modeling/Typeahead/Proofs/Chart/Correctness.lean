import Typeahead.Proofs.Chart.Columns
import Typeahead.Proofs.Nullable

namespace Typeahead

/-!
The items of a chart are those that derivations justify.  An item stands in the last column if what
the chart kept falls into two parts: after the first the item's production is open, and the second
is what the symbols before the dot yield.  Origins are columns of the input, skipped terminals
included, so only what was kept in front of an origin is determined.
-/

/-- The production of a dotted rule is open after `front`, and its symbols before the dot yield
`between`. -/
def RuleTable.Stands (table : RuleTable) (rule : DottedRule) (front between : List String) : Prop :=
  ∃ production, table.productions[rule.production]? = some production ∧
    rule.dot ≤ production.symbols.length ∧
    table.Yields (production.symbols.take rule.dot) between ∧
    table.Opens front production.origin

theorem RuleTable.stands_of_place {table : RuleTable} {p : Nat} {production : Production}
    {front left between right : List String} {symbol : String}
    (found : table.productions[p]? = some production)
    (place : production.symbols = left ++ symbol :: right)
    (opened : table.Opens front production.origin) (passed : table.Yields left between) :
    table.Stands ⟨p, left.length⟩ front between := by
  refine ⟨production, found, ?_, ?_, opened⟩
  · simp [place]
  · simpa [place] using passed

namespace Chart

variable {table : RuleTable} {names : List String} {item : Item}

/-- The derivation that an item of the last column stands for. -/
structure Justified (table : RuleTable) (names : List String) (item : Item) : Prop where
  origin_le : item.origin ≤ names.length
  derivation : ∃ between, keptNames table names = keptNames table (names.take item.origin) ++ between ∧
    table.Stands item.toDottedRule (keptNames table (names.take item.origin)) between

namespace Justified

theorem opens {symbol : String} (justified : Justified table names item)
    (next : table.symbolAt? item.toDottedRule = some symbol) :
    table.Opens (keptNames table names) symbol := by
  obtain ⟨between, kept, production, found, -, passed, opened⟩ := justified.derivation
  have there : production.symbols[item.dot]? = some symbol := by
    rw [← next]
    exact (RuleTable.symbolAt?_of_getElem? found item.dot).symm
  obtain ⟨inside, same⟩ := List.getElem?_eq_some_iff.1 there
  have place : production.symbols =
      production.symbols.take item.dot ++ symbol :: production.symbols.drop (item.dot + 1) := by
    rw [← same, ← List.drop_eq_getElem_cons inside, List.take_append_drop]
  rw [kept]
  exact .enter (Array.mem_of_getElem? found) place opened passed

theorem predicted {symbol : String} {p : Nat} (opened : table.Opens (keptNames table names) symbol)
    (listed : p ∈ table.productionsOf symbol) :
    Justified table names ⟨⟨p, 0⟩, names.length⟩ := by
  obtain ⟨production, found, rfl⟩ := RuleTable.mem_productionsOf.1 listed
  refine ⟨Nat.le_refl _, [], ?_, production, found, Nat.zero_le _, .nil, ?_⟩
  · simp
  · simpa using opened

theorem advance {symbol : String} {more between : List String}
    (justified : Justified table names item)
    (next : table.symbolAt? item.toDottedRule = some symbol)
    (kept : keptNames table (names ++ more) = keptNames table names ++ between)
    (yields : table.Yields [symbol] between) : Justified table (names ++ more) item.advance := by
  obtain ⟨front, split, production, found, -, passed, opened⟩ := justified.derivation
  have there : production.symbols[item.dot]? = some symbol := by
    rw [← next]
    exact (RuleTable.symbolAt?_of_getElem? found item.dot).symm
  obtain ⟨inside, same⟩ := List.getElem?_eq_some_iff.1 there
  have beginning : (names ++ more).take item.origin = names.take item.origin :=
    List.take_append_of_le_length justified.origin_le
  refine ⟨?_, front ++ between, ?_, production, found, inside, ?_, ?_⟩
  · simp only [Item.advance, List.length_append]
    exact Nat.le_add_right_of_le justified.origin_le
  · show keptNames table (names ++ more) =
      keptNames table ((names ++ more).take item.origin) ++ (front ++ between)
    rw [beginning, kept, split, List.append_assoc]
  · have extended : production.symbols.take (item.dot + 1) =
        production.symbols.take item.dot ++ [symbol] := by
      rw [List.take_add_one, there]
      rfl
    show table.Yields (production.symbols.take (item.dot + 1)) (front ++ between)
    rw [extended]
    exact passed.append yields
  · show table.Opens (keptNames table ((names ++ more).take item.origin)) production.origin
    rw [beginning]
    exact opened

/-- A completed item moves one that waited for it in the column of its origin. -/
theorem complete {production : Production} {waiting : Item} (justified : Justified table names item)
    (found : table.productions[item.production]? = some production)
    (complete : production.symbols[item.dot]? = none)
    (waits : Justified table (names.take item.origin) waiting)
    (next : table.symbolAt? waiting.toDottedRule = some production.origin) :
    Justified table names waiting.advance := by
  obtain ⟨between, kept, same, there, -, passed, -⟩ := justified.derivation
  obtain rfl := Option.some.inj (found.symm.trans there)
  rw [List.take_of_length_le (List.getElem?_eq_none_iff.1 complete)] at passed
  have yields : table.Yields [production.origin] between := by
    simpa using RuleTable.Yields.expand (Array.mem_of_getElem? found) passed .nil
  have whole : names.take item.origin ++ names.drop item.origin = names :=
    List.take_append_drop _ _
  have moved : Justified table (names.take item.origin ++ names.drop item.origin) waiting.advance :=
    waits.advance next (by rw [whole, kept]) yields
  rwa [whole] at moved

theorem skip {name : String} (justified : Justified table names item)
    (skipped : skips table names name = true) : Justified table (names ++ [name]) item := by
  obtain ⟨between, kept, production, found, bound, passed, opened⟩ := justified.derivation
  have beginning : (names ++ [name]).take item.origin = names.take item.origin :=
    List.take_append_of_le_length justified.origin_le
  refine ⟨?_, between, ?_, production, found, bound, passed, ?_⟩
  · simp only [List.length_append]
    exact Nat.le_add_right_of_le justified.origin_le
  · rw [beginning, keptNames_concat_of_skips skipped, kept]
  · rwa [beginning]

end Justified

theorem justified_close {seed : Column}
    (earlier : ∀ i < names.length, ∀ item ∈ column table (names.take i),
      Justified table (names.take i) item)
    (seeds : ∀ item ∈ seed, Justified table names item) :
    ∀ item ∈ Column.close table (recognize table names).before seed,
      Justified table names item := by
  refine Column.close_induction seeds fun known item holds justified added predicted => ?_
  obtain ⟨production, found, ⟨complete, moved⟩ | ⟨symbol, next, -, ⟨p, listed, rfl⟩ | ⟨nullable, rfl⟩⟩⟩ :=
    Column.mem_predictions.1 predicted
  · obtain ⟨waiting, inside, next, rfl⟩ := Column.mem_advanceOver.1 moved
    refine justified.complete found complete ?_ next
    rw [Array.getD_eq_getD_getElem?] at inside
    rcases Nat.lt_or_ge item.origin names.length with before | last
    · rw [getElem?_before before] at inside
      exact earlier item.origin before waiting inside
    · rw [Array.getElem?_eq_none (by rwa [size_before])] at inside
      rw [List.take_of_length_le last]
      exact holds waiting inside
  · have after : table.symbolAt? item.toDottedRule = some symbol := by
      rw [← next]
      exact RuleTable.symbolAt?_of_getElem? found item.dot
    rw [size_before]
    exact .predicted (justified.opens after) listed
  · have after : table.symbolAt? item.toDottedRule = some symbol := by
      rw [← next]
      exact RuleTable.symbolAt?_of_getElem? found item.dot
    have moved : Justified table (names ++ []) item.advance :=
      justified.advance after (by simp) (RuleTable.isNullable_iff.1 nullable)
    simpa using moved

/-- Every item of every column is justified.  All columns are taken at once, since completion looks
into any of the earlier ones. -/
theorem justified_of_mem_take (names : List String) :
    ∀ i ≤ names.length, ∀ item ∈ column table (names.take i),
      Justified table (names.take i) item := by
  induction names using List.reverseRecOn with
  | nil =>
      intro i _ item member
      have start : ∀ item ∈ OrderedSet.ofList
          ((table.productionsOf table.start).map fun p => (⟨⟨p, 0⟩, 0⟩ : Item)),
          Justified table [] item := by
        intro item seeded
        obtain ⟨p, listed, rfl⟩ := List.mem_map.1 (OrderedSet.mem_ofList.1 seeded)
        exact .predicted RuleTable.Opens.start listed
      simp only [List.take_nil] at member ⊢
      have earlier : ∀ i < ([] : List String).length, ∀ item ∈ column table ([].take i),
          Justified table ([].take i) item := fun i bound => absurd bound (Nat.not_lt_zero i)
      exact justified_close earlier start item member
  | append_singleton names name ih =>
      intro i bound item member
      rw [List.length_append, List.length_singleton] at bound
      rcases Nat.lt_or_eq_of_le bound with before | rfl
      · have inside : i ≤ names.length := Nat.le_of_lt_succ before
        rw [List.take_append_of_le_length inside] at member ⊢
        exact ih i inside item member
      · rw [List.take_of_length_le (by simp)] at member ⊢
        rw [column_concat] at member
        refine justified_close ?_ ?_ item member
        · intro j before item member
          have inside : j ≤ names.length := by simpa using Nat.le_of_lt_succ (by simpa using before)
          rw [List.take_append_of_le_length inside] at member ⊢
          exact ih j inside item member
        · intro item seeded
          have here : ∀ item ∈ column table names, Justified table names item := by
            intro item member
            simpa using ih names.length (Nat.le_refl _) item (by simpa using member)
          rw [seed] at seeded
          cases skipped : skips table names name with
          | true => exact (here item (by simpa [skipped] using seeded)).skip skipped
          | false =>
              simp only [skipped] at seeded
              obtain ⟨-, waiting, member, next, rfl⟩ := Column.mem_scan.1 seeded
              exact (here waiting member).advance next (keptNames_concat_of_not_skips skipped)
                (.refl [name])

theorem justified_of_mem (member : item ∈ column table names) : Justified table names item := by
  simpa using justified_of_mem_take names names.length (Nat.le_refl _) item (by simpa using member)

theorem within_column (names : List String) :
    Column.Within table names.length (column table names) := by
  intro item member
  have justified := justified_of_mem member
  obtain ⟨-, -, production, found, bound, -⟩ := justified.derivation
  exact RuleTable.mem_items.2
    ⟨RuleTable.mem_dottedRules.2 ⟨production, found, bound⟩, justified.origin_le⟩

theorem within_before (names : List String) :
    ∀ column ∈ (recognize table names).before,
      Column.Within table (recognize table names).before.size column := by
  intro earlier member item inside
  obtain ⟨i, found⟩ := Array.mem_iff_getElem?.1 member
  have bound : i < names.length := by
    simpa [size_before] using (Array.getElem?_eq_some_iff.1 found).1
  rw [getElem?_before bound] at found
  obtain rfl := Option.some.inj found
  obtain ⟨rule, origin⟩ := RuleTable.mem_items.1 (within_column _ item inside)
  refine RuleTable.mem_items.2 ⟨rule, Nat.le_trans origin ?_⟩
  rw [size_before, List.length_take]
  exact Nat.min_le_right _ _

/-- The last column is the closure of some items of the table. -/
def Closed (table : RuleTable) (names : List String) : Prop :=
  ∃ seed, Column.Within table (recognize table names).before.size seed ∧
    column table names = Column.close table (recognize table names).before seed

theorem exists_close (names : List String) : Closed table names := by
  have inside : Column.Within table names.length (column table names) := within_column names
  cases names using List.reverseRecOn with
  | nil =>
      refine ⟨_, fun item member => ?_, column_nil⟩
      exact inside item (Column.mem_close_of_mem member)
  | append_singleton names name =>
      refine ⟨_, fun item member => ?_, column_concat names name⟩
      rw [size_before]
      exact inside item (column_concat names name ▸ Column.mem_close_of_mem member)

section Closed

variable {symbol : String}

theorem predict (member : item ∈ column table names)
    (next : table.symbolAt? item.toDottedRule = some symbol)
    (rule : table.isTerminal symbol = false) {p : Nat} (listed : p ∈ table.productionsOf symbol) :
    ⟨⟨p, 0⟩, names.length⟩ ∈ column table names := by
  obtain ⟨seed, seeds, closed⟩ : Closed table names := exists_close names
  rw [closed] at member ⊢
  have predicted := Column.close_predicts (within_before names) seeds member next rule listed
  rwa [size_before] at predicted

theorem step (member : item ∈ column table names)
    (next : table.symbolAt? item.toDottedRule = some symbol)
    (rule : table.isTerminal symbol = false) (nullable : table.isNullable symbol = true) :
    item.advance ∈ column table names := by
  obtain ⟨seed, seeds, closed⟩ : Closed table names := exists_close names
  rw [closed] at member ⊢
  exact Column.close_steps (within_before names) seeds member next rule nullable

theorem complete {more : List String} {production : Production} {waiting : Item}
    (later : more ≠ []) (member : item ∈ column table (names ++ more))
    (found : table.productions[item.production]? = some production)
    (complete : item.dot = production.symbols.length) (origin : item.origin = names.length)
    (waits : waiting ∈ column table names)
    (next : table.symbolAt? waiting.toDottedRule = some production.origin) :
    waiting.advance ∈ column table (names ++ more) := by
  have there : (recognize table (names ++ more)).before[item.origin]? =
      some (column table names) := by
    have bound : item.origin < (names ++ more).length := by
      have positive := List.length_pos_of_ne_nil later
      rw [List.length_append, origin]
      omega
    rw [getElem?_before bound, origin, List.take_left]
  obtain ⟨seed, seeds, closed⟩ : Closed table (names ++ more) := exists_close _
  rw [closed] at member ⊢
  exact Column.close_completes (within_before _) seeds member found complete there waits next

theorem scan {name : String} (member : item ∈ column table names)
    (next : table.symbolAt? item.toDottedRule = some name)
    (taken : skips table names name = false) : item.advance ∈ column table (names ++ [name]) := by
  rw [column_concat]
  apply Column.mem_close_of_mem
  rw [seed, taken]
  exact Column.mem_scan.2 ⟨(skips_eq_false_iff.1 taken).1, item, member, next, rfl⟩

theorem carry {more : List String} (member : item ∈ column table names)
    (kept : keptNames table (names ++ more) = keptNames table names) :
    item ∈ column table (names ++ more) := by
  induction more using List.reverseRecOn with
  | nil => simpa using member
  | append_singleton more name ih =>
      rw [← List.append_assoc] at kept ⊢
      have begins : keptNames table names <+: keptNames table (names ++ more) :=
        keptNames_prefix names more
      have shorter := begins.length_le
      cases skipped : skips table (names ++ more) name with
      | true =>
          rw [keptNames_concat_of_skips skipped] at kept
          rw [column_concat]
          apply Column.mem_close_of_mem
          simpa [seed, skipped] using ih kept
      | false =>
          have lengths := congrArg List.length kept
          rw [keptNames_concat_of_not_skips skipped, List.length_append,
            List.length_singleton] at lengths
          omega

end Closed

theorem drop_advance {symbol : String} {rest : List String}
    (after : (table.symbols item.production).drop item.dot = symbol :: rest) :
    (table.symbols item.advance.production).drop item.advance.dot = rest := by
  rw [Item.advance, ← List.drop_drop, after]
  rfl

/-- An item moves past symbols when the input goes on by what they yield. -/
theorem advance_over (disjoint : table.Disjoint) {row out rest more : List String}
    (yields : table.Yields row out) (member : item ∈ column table names)
    (after : (table.symbols item.production).drop item.dot = row ++ rest)
    (kept : keptNames table (names ++ more) = keptNames table names ++ out) :
    { item with dot := item.dot + row.length } ∈ column table (names ++ more) := by
  induction yields generalizing names more item rest with
  | nil => simpa using carry member (by simpa using kept)
  | @keep symbol row out _ ih =>
      have next : table.symbolAt? item.toDottedRule = some symbol := RuleTable.symbolAt?_of_drop after
      obtain ⟨between, later, rfl, same, taken⟩ := exists_of_keptNames_cons kept
      have moved := scan (carry member same) next taken
      have grown := keptNames_concat_of_not_skips taken
      have whole : names ++ (between ++ symbol :: later) = names ++ between ++ [symbol] ++ later := by
        simp
      rw [whole] at kept ⊢
      have remaining : keptNames table (names ++ between ++ [symbol] ++ later) =
          keptNames table (names ++ between ++ [symbol]) ++ out := by
        rw [kept, grown, same]
        simp
      have finished := ih moved (drop_advance after) remaining
      simpa [Item.advance, Nat.add_assoc, Nat.add_comm 1] using finished
  | @expand production row middle out inside inner _ innerIH ih =>
      have next : table.symbolAt? item.toDottedRule = some production.origin :=
        RuleTable.symbolAt?_of_drop after
      have rule := disjoint.isTerminal_origin inside
      obtain ⟨between, later, rfl, reached⟩ := exists_of_keptNames_append kept
      have moved : item.advance ∈ column table (names ++ between) := by
        cases middle with
        | nil =>
            have yields : table.Yields [production.origin] [] := by
              simpa using RuleTable.Yields.expand inside inner .nil
            exact carry (step member next rule (RuleTable.isNullable_iff.2 yields))
              (by simpa using reached)
        | cons first middle =>
            obtain ⟨p, found⟩ := Array.mem_iff_getElem?.1 inside
            have started := predict member next rule
              (RuleTable.mem_productionsOf.2 ⟨production, found, rfl⟩)
            have whole : (table.symbols p).drop 0 = production.symbols ++ [] := by
              simp [RuleTable.symbols_of_getElem? found]
            have finished := innerIH started whole reached
            have longer : between ≠ [] := by
              intro same
              subst same
              simp at reached
            exact complete longer finished found (by simp) rfl member next
      rw [← List.append_assoc] at kept ⊢
      have remaining : keptNames table (names ++ between ++ later) =
          keptNames table (names ++ between) ++ out := by
        rw [kept, reached, List.append_assoc]
      have finished := ih moved (drop_advance after) remaining
      simpa [Item.advance, Nat.add_assoc, Nat.add_comm 1] using finished

/-- Every production that is open after what was kept stands in the last column, with some origin
in front of which the same was kept. -/
theorem exists_mem_of_opens (disjoint : table.Disjoint) {front : List String} {symbol : String}
    (opens : table.Opens front symbol) (kept : keptNames table names = front) {p : Nat}
    (listed : p ∈ table.productionsOf symbol) :
    ∃ origin ≤ names.length, keptNames table (names.take origin) = front ∧
      ⟨⟨p, 0⟩, origin⟩ ∈ column table names := by
  induction opens generalizing names p with
  | start =>
      have first : ⟨⟨p, 0⟩, 0⟩ ∈ column table [] := by
        rw [column_nil]
        exact Column.mem_close_of_mem (OrderedSet.mem_ofList.2 (List.mem_map_of_mem listed))
      have carried : ⟨⟨p, 0⟩, 0⟩ ∈ column table ([] ++ names) := carry first kept
      exact ⟨0, Nat.zero_le _, rfl, carried⟩
  | @enter production front left between right symbol member place _ passed ih =>
      obtain ⟨beginning, rest, rfl, begun⟩ := exists_beginning kept
      obtain ⟨q, found⟩ := Array.mem_iff_getElem?.1 member
      obtain ⟨origin, -, -, started⟩ := ih begun (RuleTable.mem_productionsOf.2 ⟨_, found, rfl⟩)
      have symbols := RuleTable.symbols_of_getElem? found
      have after : (table.symbols q).drop 0 = left ++ symbol :: right := by rw [symbols]; exact place
      have passed := advance_over disjoint passed started after (by rw [kept, begun])
      have next : table.symbolAt? ⟨q, 0 + left.length⟩ = some symbol := by
        simp [RuleTable.symbolAt?, symbols, place]
      obtain ⟨entered, there, rfl⟩ := RuleTable.mem_productionsOf.1 listed
      have predicted := predict passed next
        (disjoint.isTerminal_origin (Array.mem_of_getElem? there)) listed
      exact ⟨_, Nat.le_refl _, by rw [List.take_length, kept], predicted⟩

/-- The items of the last column are those that are justified, up to the choice among origins in
front of which the same was kept. -/
theorem exists_mem_iff (disjoint : table.Disjoint) {rule : DottedRule} {front : List String} :
    (∃ origin, keptNames table (names.take origin) = front ∧ ⟨rule, origin⟩ ∈ column table names) ↔
      ∃ between, keptNames table names = front ++ between ∧ table.Stands rule front between := by
  constructor
  · intro given
    obtain ⟨origin, rfl, member⟩ := given
    exact (justified_of_mem member).derivation
  · intro given
    obtain ⟨between, kept, production, found, bound, passed, opened⟩ := given
    obtain ⟨beginning, rest, rfl, begun⟩ := exists_beginning kept
    obtain ⟨origin, inside, same, started⟩ := exists_mem_of_opens disjoint opened begun
      (RuleTable.mem_productionsOf.2 ⟨_, found, rfl⟩)
    refine ⟨origin, ?_, ?_⟩
    · rwa [List.take_append_of_le_length inside]
    · have after : (table.symbols rule.production).drop 0 =
          production.symbols.take rule.dot ++ production.symbols.drop rule.dot := by
        rw [List.take_append_drop, RuleTable.symbols_of_getElem? found]
        rfl
      have moved := advance_over disjoint passed started after (by rw [kept, begun])
      simpa [Nat.min_eq_left bound] using moved

end Chart

end Typeahead
