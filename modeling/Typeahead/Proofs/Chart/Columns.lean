import Mathlib.Data.List.Induction
import Typeahead.Proofs.DottedRule
import Typeahead.Proofs.Saturation

namespace Typeahead

/-!
The columns of a chart and the terminals that it keeps.  A column is closed under prediction,
completion and stepping over nullable symbols; the chart of a longer input has the columns of its
beginnings in front.
-/

namespace Column

variable {table : RuleTable} {before : Array Column} {seed column : Column} {item : Item}

theorem closeFrom_eq_growFrom (fuel done : Nat) (column : Column) :
    closeFrom table before fuel done column =
      column.growFrom (predictions table before) fuel done := by
  induction fuel generalizing done column with
  | zero => rfl
  | succ fuel ih =>
      unfold closeFrom OrderedSet.growFrom
      cases column.elements[done]? with
      | none => rfl
      | some item => exact ih _ _

theorem mem_close_of_mem (member : item ∈ seed) : item ∈ close table before seed := by
  rw [close, closeFrom_eq_growFrom]
  exact OrderedSet.mem_growFrom_of_mem member

theorem close_induction {P : Item → Prop} (first : ∀ item ∈ seed, P item)
    (step : ∀ (column : Column) (item : Item), (∀ other ∈ column, P other) → P item →
      ∀ added ∈ predictions table before column item, P added) :
    ∀ item ∈ close table before seed, P item := by
  rw [close, closeFrom_eq_growFrom]
  exact OrderedSet.growFrom_induction first fun column item holds member =>
    step column item holds (holds item member)

theorem mem_advanceOver {symbol : String} :
    item ∈ advanceOver table column symbol ↔
      ∃ waiting ∈ column, table.symbolAt? waiting.toDottedRule = some symbol ∧
        waiting.advance = item := by
  simp only [advanceOver, List.mem_map, List.mem_filter, OrderedSet.mem_toList, beq_iff_eq,
    and_assoc]

theorem mem_scan {name : String} :
    item ∈ scan table column name ↔
      table.isTerminal name = true ∧ ∃ waiting ∈ column,
        table.symbolAt? waiting.toDottedRule = some name ∧ waiting.advance = item := by
  unfold scan
  split
  · rename_i terminal
    simp only [OrderedSet.mem_ofList, mem_advanceOver, terminal, true_and]
  · rename_i other
    simp [other]

/-- What an item adds: completed, it moves the items that waited for it; otherwise it predicts the
productions of the symbol after its dot and steps over that symbol if it is nullable. -/
theorem mem_predictions {added : Item} :
    added ∈ predictions table before column item ↔
      ∃ production, table.productions[item.production]? = some production ∧
        ((production.symbols[item.dot]? = none ∧
            added ∈ advanceOver table (before.getD item.origin column) production.origin) ∨
          ∃ symbol, production.symbols[item.dot]? = some symbol ∧
            table.isTerminal symbol = false ∧
            ((∃ p ∈ table.productionsOf symbol, added = ⟨⟨p, 0⟩, before.size⟩) ∨
              table.isNullable symbol = true ∧ added = item.advance)) := by
  unfold predictions
  cases found : table.productions[item.production]? with
  | none => simp
  | some production =>
      simp only [Option.some.injEq, exists_eq_left']
      cases next : production.symbols[item.dot]? with
      | none => simp
      | some symbol =>
          simp only [reduceCtorEq, false_and, false_or, Option.some.injEq, exists_eq_left']
          cases terminal : table.isTerminal symbol with
          | true => simp
          | false =>
              cases nullable : table.isNullable symbol with
              | true => simp [@eq_comm _ _ added]
              | false => simp [@eq_comm _ _ added]

/-- The items of all columns lie in the table, with origins up to `last`. -/
def Within (table : RuleTable) (last : Nat) (column : Column) : Prop :=
  ∀ item ∈ column, item ∈ table.items last

theorem advance_mem_items {last : Nat} {symbol : String} (member : item ∈ table.items last)
    (next : table.symbolAt? item.toDottedRule = some symbol) : item.advance ∈ table.items last := by
  obtain ⟨production, found, there⟩ := RuleTable.exists_of_symbolAt? next
  obtain ⟨-, bound⟩ := RuleTable.mem_items.1 member
  have inside : item.dot < production.symbols.length := (List.getElem?_eq_some_iff.1 there).1
  exact RuleTable.mem_items.2 ⟨RuleTable.mem_dottedRules.2 ⟨production, found, inside⟩, bound⟩

theorem Within.close (columns : ∀ column ∈ before, Within table before.size column)
    (seeds : Within table before.size seed) :
    Within table before.size (close table before seed) := by
  refine close_induction seeds fun column item within member added predicted => ?_
  obtain ⟨production, found, ⟨-, moved⟩ | ⟨symbol, next, -, ⟨p, listed, rfl⟩ | ⟨-, rfl⟩⟩⟩ :=
    mem_predictions.1 predicted
  · obtain ⟨waiting, inside, next, rfl⟩ := mem_advanceOver.1 moved
    refine advance_mem_items ?_ next
    rw [Array.getD_eq_getD_getElem?] at inside
    cases there : before[item.origin]? with
    | none => exact within waiting (by simpa [there] using inside)
    | some earlier =>
        exact columns earlier (Array.mem_of_getElem? there) waiting (by simpa [there] using inside)
  · obtain ⟨production, found, -⟩ := RuleTable.mem_productionsOf.1 listed
    exact RuleTable.mem_items.2
      ⟨RuleTable.mem_dottedRules.2 ⟨production, found, Nat.zero_le _⟩, Nat.le_refl _⟩
  · have after : table.symbolAt? item.toDottedRule = some symbol := by
      rw [← next]
      exact RuleTable.symbolAt?_of_getElem? found item.dot
    exact advance_mem_items member after

section Closed

variable (columns : ∀ column ∈ before, Within table before.size column)
  (seeds : Within table before.size seed)

include columns seeds

theorem close_visits (member : item ∈ close table before seed) :
    ∃ seen : Column, (∀ other ∈ seed, other ∈ seen) ∧
      (∀ other ∈ seen, other ∈ close table before seed) ∧
      ∀ added ∈ predictions table before seen item, added ∈ close table before seed := by
  have within := Within.close columns seeds
  rw [close, closeFrom_eq_growFrom] at member within ⊢
  obtain ⟨i, found⟩ := Array.mem_iff_getElem?.1 (OrderedSet.mem_def.1 member)
  refine OrderedSet.growFrom_visits ?_ within (Nat.zero_le i) found
  exact Nat.le_of_eq (RuleTable.length_items table before.size)

theorem close_predicts {symbol : String} {p : Nat} (member : item ∈ close table before seed)
    (next : table.symbolAt? item.toDottedRule = some symbol)
    (rule : table.isTerminal symbol = false) (listed : p ∈ table.productionsOf symbol) :
    ⟨⟨p, 0⟩, before.size⟩ ∈ close table before seed := by
  obtain ⟨seen, -, -, closed⟩ := close_visits columns seeds member
  obtain ⟨production, found, there⟩ := RuleTable.exists_of_symbolAt? next
  exact closed _ (mem_predictions.2
    ⟨production, found, .inr ⟨symbol, there, rule, .inl ⟨p, listed, rfl⟩⟩⟩)

theorem close_steps {symbol : String} (member : item ∈ close table before seed)
    (next : table.symbolAt? item.toDottedRule = some symbol)
    (rule : table.isTerminal symbol = false) (nullable : table.isNullable symbol = true) :
    item.advance ∈ close table before seed := by
  obtain ⟨seen, -, -, closed⟩ := close_visits columns seeds member
  obtain ⟨production, found, there⟩ := RuleTable.exists_of_symbolAt? next
  exact closed _ (mem_predictions.2
    ⟨production, found, .inr ⟨symbol, there, rule, .inr ⟨nullable, rfl⟩⟩⟩)

/-- Completion in an earlier column, which does not change any more. -/
theorem close_completes {production : Production} {earlier : Column} {waiting : Item}
    (member : item ∈ close table before seed)
    (found : table.productions[item.production]? = some production)
    (complete : item.dot = production.symbols.length)
    (there : before[item.origin]? = some earlier) (waits : waiting ∈ earlier)
    (next : table.symbolAt? waiting.toDottedRule = some production.origin) :
    waiting.advance ∈ close table before seed := by
  obtain ⟨seen, -, -, closed⟩ := close_visits columns seeds member
  refine closed _ (mem_predictions.2 ⟨production, found, .inl ⟨?_, ?_⟩⟩)
  · simp [complete]
  · have looked : before.getD item.origin seen = earlier := by
      simp [Array.getD_eq_getD_getElem?, there]
    exact mem_advanceOver.2 ⟨waiting, looked ▸ waits, next, rfl⟩

end Closed

end Column

namespace Chart

variable {table : RuleTable} {names : List String} {name : String}

/-- The last column of the chart of an input. -/
def column (table : RuleTable) (names : List String) : Column := (recognize table names).last

/-- Whether the terminal `name` is skipped after an input. -/
def skips (table : RuleTable) (names : List String) (name : String) : Bool :=
  (Column.scan table (column table names) name).isEmpty

/-- The terminals of an input that were not skipped. -/
def kept (chart : Chart) (names : List String) : List String :=
  (names.zipIdx.filter fun (_, i) => !chart.skipped.contains i).map (·.1)

/-- The terminals of an input that its chart keeps. -/
def keptNames (table : RuleTable) (names : List String) : List String :=
  (recognize table names).kept names

/-- What a column grows from after a terminal: the items that took it, or the whole column in front
if none did. -/
def seed (table : RuleTable) (names : List String) (name : String) : Column :=
  if skips table names name then column table names
  else Column.scan table (column table names) name

theorem recognize_concat (names : List String) (name : String) :
    recognize table (names ++ [name]) =
      { before := (recognize table names).before.push (column table names)
        last := Column.close table ((recognize table names).before.push (column table names))
          (seed table names name)
        skipped :=
          if skips table names name then
            (recognize table names).skipped.push (recognize table names).before.size
          else (recognize table names).skipped } := by
  have folded : recognize table (names ++ [name]) = advance table (recognize table names) name := by
    simp [recognize]
  have decision : (Column.scan table (recognize table names).last name).isEmpty =
      skips table names name := rfl
  rw [folded, advance, seed]
  simp only [decision]
  cases skips table names name <;> rfl

theorem before_recognize_concat (names : List String) (name : String) :
    (recognize table (names ++ [name])).before =
      (recognize table names).before.push (column table names) := by
  rw [recognize_concat]

theorem size_before (names : List String) :
    (recognize table names).before.size = names.length := by
  induction names using List.reverseRecOn with
  | nil => rfl
  | append_singleton names name ih => simp [before_recognize_concat, ih]

theorem getElem?_before {i : Nat} (bound : i < names.length) :
    (recognize table names).before[i]? = some (column table (names.take i)) := by
  induction names using List.reverseRecOn with
  | nil => simp at bound
  | append_singleton names name ih =>
      rw [before_recognize_concat]
      rcases Nat.lt_or_eq_of_le (Nat.le_of_lt_succ (by simpa using bound)) with inside | rfl
      · rw [Array.getElem?_push_lt (by rw [size_before]; exact inside),
          ← Array.getElem?_eq_getElem, ih inside, List.take_append_of_le_length (Nat.le_of_lt inside)]
      · rw [List.take_left]
        have last : ((recognize table names).before.push (column table names))[
            (recognize table names).before.size]? = some (column table names) :=
          Array.getElem?_push_size
        rwa [size_before] at last

theorem column_nil :
    column table [] = Column.close table #[]
      (.ofList ((table.productionsOf table.start).map (⟨⟨·, 0⟩, 0⟩))) :=
  rfl

theorem column_concat (names : List String) (name : String) :
    column table (names ++ [name]) =
      Column.close table (recognize table (names ++ [name])).before (seed table names name) := by
  rw [before_recognize_concat, column, recognize_concat]

theorem skipped_concat (names : List String) (name : String) :
    (recognize table (names ++ [name])).skipped =
      if skips table names name then (recognize table names).skipped.push names.length
      else (recognize table names).skipped := by
  rw [recognize_concat, size_before]

theorem lt_of_mem_skipped {i : Nat} (member : i ∈ (recognize table names).skipped) :
    i < names.length := by
  induction names using List.reverseRecOn with
  | nil => simp [recognize, initial] at member
  | append_singleton names name ih =>
      rw [skipped_concat] at member
      rw [List.length_append, List.length_singleton]
      split at member
      · rcases Array.mem_push.1 member with old | rfl
        · exact Nat.lt_succ_of_lt (ih old)
        · exact Nat.lt_succ_self _
      · exact Nat.lt_succ_of_lt (ih member)

@[simp]
theorem keptNames_concat (names : List String) (name : String) :
    keptNames table (names ++ [name]) =
      keptNames table names ++ if skips table names name then [] else [name] := by
  have fresh : names.length ∉ (recognize table names).skipped := fun member =>
    Nat.lt_irrefl _ (lt_of_mem_skipped member)
  have front : ∀ placed ∈ names.zipIdx,
      (!(recognize table (names ++ [name])).skipped.contains placed.2) =
        !(recognize table names).skipped.contains placed.2 := by
    intro pair placed
    rcases pair with ⟨other, i⟩
    have bound : i < names.length := by
      simpa using (List.getElem?_eq_some_iff.1 (List.mk_mem_zipIdx_iff_getElem?.1 placed)).1
    rw [skipped_concat]
    split
    · have distinct : i ≠ names.length := Nat.ne_of_lt bound
      simp [distinct]
    · rfl
  rw [keptNames, kept, List.zipIdx_append, List.filter_append, List.map_append,
    List.filter_congr front, ← kept, ← keptNames]
  congr 1
  rw [skipped_concat]
  split <;> simp [fresh]

theorem keptNames_concat_of_skips (skipped : skips table names name = true) :
    keptNames table (names ++ [name]) = keptNames table names := by
  simp [keptNames_concat, skipped]

theorem keptNames_concat_of_not_skips (taken : skips table names name = false) :
    keptNames table (names ++ [name]) = keptNames table names ++ [name] := by
  simp [keptNames_concat, taken]

theorem skips_eq_false_iff :
    skips table names name = false ↔
      table.isTerminal name = true ∧ ∃ item ∈ column table names,
        table.symbolAt? item.toDottedRule = some name := by
  have empty : skips table names name = true ↔
      ∀ item, item ∉ Column.scan table (column table names) name := by
    simp only [skips, OrderedSet.isEmpty, Array.isEmpty_iff, OrderedSet.mem_def,
      Array.eq_empty_iff_forall_not_mem]
  rw [← Bool.not_eq_true, empty, not_forall]
  simp only [not_not, Column.mem_scan]
  constructor
  · intro given
    obtain ⟨_, terminal, waiting, member, next, -⟩ := given
    exact ⟨terminal, waiting, member, next⟩
  · intro given
    obtain ⟨terminal, waiting, member, next⟩ := given
    exact ⟨waiting.advance, terminal, waiting, member, next, rfl⟩

theorem keptNames_prefix (names more : List String) :
    keptNames table names <+: keptNames table (names ++ more) := by
  induction more using List.reverseRecOn with
  | nil => simp
  | append_singleton more name ih =>
      rw [← List.append_assoc, keptNames_concat]
      exact ih.trans (List.prefix_append _ _)

/-- The terminals kept of an input that goes on: the first of them is found in what follows. -/
theorem exists_of_keptNames_cons {more rest : List String}
    (kept : keptNames table (names ++ more) = keptNames table names ++ name :: rest) :
    ∃ between later, more = between ++ name :: later ∧
      keptNames table (names ++ between) = keptNames table names ∧
      skips table (names ++ between) name = false := by
  induction more generalizing names with
  | nil => simp at kept
  | cons next more ih =>
      have whole : names ++ next :: more = (names ++ [next]) ++ more := by simp
      rw [whole] at kept
      cases skipped : skips table names next with
      | true =>
          have same := keptNames_concat_of_skips skipped
          rw [← same] at kept
          obtain ⟨between, later, rfl, between_kept, taken⟩ := ih kept
          refine ⟨next :: between, later, rfl, ?_, ?_⟩
          · rw [← same, ← between_kept]
            simp
          · simpa using taken
      | false =>
          have grown : keptNames table (names ++ [next]) <+: keptNames table (names ++ [next] ++ more) :=
            keptNames_prefix _ more
          obtain ⟨tail, extended⟩ := grown
          rw [kept, keptNames_concat_of_not_skips skipped, List.append_assoc] at extended
          obtain ⟨rfl, -⟩ := List.cons.inj (List.append_cancel_left extended)
          exact ⟨[], more, rfl, by simp, by simpa using skipped⟩

/-- A beginning of the terminals kept is what is kept of a beginning. -/
theorem exists_of_keptNames_append {more front rest : List String}
    (kept : keptNames table (names ++ more) = keptNames table names ++ (front ++ rest)) :
    ∃ between later, more = between ++ later ∧
      keptNames table (names ++ between) = keptNames table names ++ front := by
  induction front generalizing names more with
  | nil => exact ⟨[], more, rfl, by simp⟩
  | cons name front ih =>
      obtain ⟨between, later, rfl, same, taken⟩ := exists_of_keptNames_cons kept
      have grown := keptNames_concat_of_not_skips taken
      rw [same] at grown
      have whole : names ++ (between ++ name :: later) = (names ++ between ++ [name]) ++ later := by
        simp
      rw [whole] at kept
      have remaining : keptNames table (names ++ between ++ [name] ++ later) =
          keptNames table (names ++ between ++ [name]) ++ (front ++ rest) := by
        rw [kept, grown]
        simp
      obtain ⟨further, last, rfl, found⟩ := ih remaining
      refine ⟨between ++ name :: further, last, by simp, ?_⟩
      rw [grown] at found
      simpa using found

theorem exists_beginning {front rest : List String} (kept : keptNames table names = front ++ rest) :
    ∃ beginning more, names = beginning ++ more ∧ keptNames table beginning = front := by
  have from_nil : keptNames table ([] ++ names) = keptNames table [] ++ (front ++ rest) := kept
  exact exists_of_keptNames_append from_nil

end Chart

end Typeahead
