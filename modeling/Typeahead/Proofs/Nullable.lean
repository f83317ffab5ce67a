import Mathlib.Logic.Function.Iterate
import Typeahead.Proofs.Derivation
import Typeahead.Proofs.Saturation

namespace Typeahead

/-!
The nullable symbols of a rule table are those that derive the empty row.  Each round adds what
follows from the rounds before; a round that adds nothing ends the search, and since only origins
are added there are no more rounds than productions.
-/

section Rounds

variable {productions : List Production} {known : OrderedSet String}

theorem nullableRound_cons (production : Production) (rest : List Production)
    (known : OrderedSet String) :
    nullableRound (production :: rest) known =
      nullableRound rest
        (if production.symbols.all known.contains then known.insert production.origin else known) :=
  rfl

theorem getElem?_elements_nullableRound {i : Nat} {symbol : String}
    (found : known.elements[i]? = some symbol) :
    (nullableRound productions known).elements[i]? = some symbol := by
  induction productions generalizing known with
  | nil => exact found
  | cons production rest ih =>
      rw [nullableRound_cons]
      apply ih
      split
      · exact OrderedSet.getElem?_elements_insert found
      · exact found

theorem mem_nullableRound_of_mem {symbol : String} (member : symbol ∈ known) :
    symbol ∈ nullableRound productions known := by
  obtain ⟨i, found⟩ := Array.mem_iff_getElem?.1 (OrderedSet.mem_def.1 member)
  exact OrderedSet.mem_def.2 (Array.mem_of_getElem? (getElem?_elements_nullableRound found))

theorem origin_mem_nullableRound {production : Production} (member : production ∈ productions)
    (all : ∀ symbol ∈ production.symbols, symbol ∈ known) :
    production.origin ∈ nullableRound productions known := by
  induction productions generalizing known with
  | nil => cases member
  | cons first rest ih =>
      rw [nullableRound_cons]
      rcases List.mem_cons.1 member with rfl | later
      · have every : production.symbols.all known.contains = true := by simpa using all
        rw [if_pos every]
        exact mem_nullableRound_of_mem (OrderedSet.mem_insert.2 (.inr rfl))
      · apply ih later
        intro symbol inside
        split
        · exact OrderedSet.mem_insert.2 (.inl (all symbol inside))
        · exact all symbol inside

/-- What holds of the known symbols and passes from the symbols of a production to its origin holds
after a round. -/
theorem nullableRound_induction {P : String → Prop} (first : ∀ symbol ∈ known, P symbol)
    (step : ∀ production ∈ productions, (∀ symbol ∈ production.symbols, P symbol) →
      P production.origin) :
    ∀ symbol ∈ nullableRound productions known, P symbol := by
  induction productions generalizing known with
  | nil => exact first
  | cons production rest ih =>
      rw [nullableRound_cons]
      refine ih ?_ fun later member => step later (List.mem_cons_of_mem _ member)
      intro symbol member
      split at member
      · rename_i every
        rcases OrderedSet.mem_insert.1 member with old | rfl
        · exact first symbol old
        · have all : ∀ symbol ∈ production.symbols, symbol ∈ known := by simpa using every
          exact step production List.mem_cons_self fun symbol inside =>
            first symbol (all symbol inside)
      · exact first symbol member

theorem size_le_size_nullableRound : known.size ≤ (nullableRound productions known).size := by
  have within : ∀ symbol ∈ known, symbol ∈ (nullableRound productions known).toList :=
    fun _ member => OrderedSet.mem_toList.2 (mem_nullableRound_of_mem member)
  exact OrderedSet.size_le_of_subset within

theorem mem_of_mem_nullableRound (same : (nullableRound productions known).size = known.size)
    {symbol : String} (member : symbol ∈ nullableRound productions known) : symbol ∈ known := by
  obtain ⟨i, found⟩ := Array.mem_iff_getElem?.1 (OrderedSet.mem_def.1 member)
  have bound : i < known.elements.size := by
    have inside := (Array.getElem?_eq_some_iff.1 found).1
    simp only [OrderedSet.size] at same
    omega
  have there : known.elements[i]? = some known.elements[i] := Array.getElem?_eq_getElem bound
  have kept : (nullableRound productions known).elements[i]? = some known.elements[i] :=
    getElem?_elements_nullableRound there
  rw [← Option.some.inj (kept.symm.trans found)]
  exact OrderedSet.mem_def.2 (Array.getElem_mem bound)

theorem nullableFrom_induction {P : String → Prop} {fuel : Nat}
    (first : ∀ symbol ∈ known, P symbol)
    (step : ∀ production ∈ productions, (∀ symbol ∈ production.symbols, P symbol) →
      P production.origin) :
    ∀ symbol ∈ nullableFrom productions fuel known, P symbol := by
  induction fuel generalizing known with
  | zero => exact first
  | succ fuel ih =>
      unfold nullableFrom
      simp only
      split
      · exact first
      · exact ih (nullableRound_induction first step)

/-- The last round adds nothing: either it was found to, or all origins are known. -/
theorem size_nullableRound_nullableFrom {fuel : Nat}
    (origins : ∀ symbol ∈ known, symbol ∈ productions.map (·.origin))
    (enough : productions.length ≤ fuel + known.size) :
    (nullableRound productions (nullableFrom productions fuel known)).size =
      (nullableFrom productions fuel known).size := by
  have listed : ∀ symbol ∈ nullableRound productions known,
      symbol ∈ productions.map (·.origin) :=
    nullableRound_induction origins fun production member _ => List.mem_map_of_mem member
  have larger : known.size ≤ (nullableRound productions known).size := size_le_size_nullableRound
  induction fuel generalizing known with
  | zero =>
      have bound := OrderedSet.size_le_of_subset listed
      simp only [nullableFrom, List.length_map] at bound ⊢
      omega
  | succ fuel ih =>
      unfold nullableFrom
      simp only
      split
      · assumption
      · refine ih listed (by omega) ?_ size_le_size_nullableRound
        exact nullableRound_induction listed fun production member _ => List.mem_map_of_mem member

/-- A round that adds nothing leaves the set as it is. -/
theorem nullableRound_eq_or_size_lt (productions : List Production) (known : OrderedSet String) :
    nullableRound productions known = known ∨
      known.size < (nullableRound productions known).size := by
  induction productions generalizing known with
  | nil => exact .inl rfl
  | cons production rest ih =>
      rw [nullableRound_cons]
      split
      · by_cases present : known.contains production.origin = true
        · have same : known.insert production.origin = known := by
            rw [OrderedSet.insert, dif_pos present]
          rw [same]
          exact ih known
        · right
          have larger : (known.insert production.origin).size = known.size + 1 := by
            simp [OrderedSet.insert, present, OrderedSet.size]
          have further : (known.insert production.origin).size ≤
              (nullableRound rest (known.insert production.origin)).size :=
            size_le_size_nullableRound
          omega
      · exact ih known

/-- The rounds go on as long as they add something. -/
theorem exists_rounds (productions : List Production) (fuel : Nat) (known : OrderedSet String) :
    ∃ rounds ≤ fuel,
      nullableFrom productions fuel known = (nullableRound productions)^[rounds] known ∧
      ∀ earlier < rounds, ((nullableRound productions)^[earlier] known).size <
        ((nullableRound productions)^[earlier + 1] known).size := by
  induction fuel generalizing known with
  | zero => exact ⟨0, Nat.le_refl 0, rfl, by simp⟩
  | succ fuel ih =>
      unfold nullableFrom
      simp only
      split
      · exact ⟨0, Nat.zero_le _, rfl, by simp⟩
      · next grown =>
          obtain ⟨rounds, bound, made, growing⟩ := ih (nullableRound productions known)
          refine ⟨rounds + 1, by omega, made, ?_⟩
          intro earlier before
          cases earlier with
          | zero =>
              have larger : known.size ≤ (nullableRound productions known).size :=
                size_le_size_nullableRound
              simp only [Function.iterate_zero, id_eq, Function.iterate_one, Nat.zero_add]
              omega
          | succ earlier => exact growing earlier (by omega)

theorem origin_mem_nullableSymbols {production : Production} (member : production ∈ productions)
    (all : ∀ symbol ∈ production.symbols, symbol ∈ nullableSymbols productions) :
    production.origin ∈ nullableSymbols productions :=
  mem_of_mem_nullableRound
    (size_nullableRound_nullableFrom (by simp) (by simp))
    (origin_mem_nullableRound member all)

end Rounds

namespace RuleTable

variable {table : RuleTable}

theorem yields_nil_iff {row : List String} :
    table.Yields row [] ↔ ∀ symbol ∈ row, table.Yields [symbol] [] := by
  induction row with
  | nil =>
      constructor
      · intro _ _ member
        cases member
      · intro _
        exact .nil
  | cons symbol rest ih =>
      constructor
      · intro yields
        have parts : table.Yields ([symbol] ++ rest) [] := yields
        obtain ⟨first, second, nil, firstYields, secondYields⟩ := parts.split
        obtain ⟨rfl, rfl⟩ := List.append_eq_nil_iff.1 nil.symm
        simpa using ⟨firstYields, ih.1 secondYields⟩
      · intro each
        have first := each symbol List.mem_cons_self
        exact first.append (ih.2 fun later member => each later (List.mem_cons_of_mem _ member))

theorem isNullable_iff {symbol : String} :
    table.isNullable symbol = true ↔ table.Yields [symbol] [] := by
  rw [isNullable, OrderedSet.contains_iff, table.nullable_eq]
  constructor
  · intro member
    refine nullableFrom_induction (P := fun symbol => table.Yields [symbol] [])
      (fun _ known => absurd known OrderedSet.not_mem_empty)
      (fun production member all => ?_) symbol member
    have inner := yields_nil_iff.2 all
    simpa using Yields.expand (Array.mem_toList_iff.1 member) inner .nil
  · intro yields
    -- a derivation of the empty row only expands, so its productions are all closed under rounds
    have closed : ∀ {row out}, table.Yields row out → out = [] →
        ∀ symbol ∈ row, symbol ∈ nullableSymbols table.productions.toList := by
      intro row out yields
      induction yields with
      | nil => intro _ _ member; cases member
      | keep => intro empty; cases empty
      | @expand production row middle out member _ _ innerIH ih =>
          intro empty symbol inside
          obtain ⟨rfl, rfl⟩ := List.append_eq_nil_iff.1 empty
          rcases List.mem_cons.1 inside with rfl | later
          · exact origin_mem_nullableSymbols (Array.mem_toList_iff.2 member) (innerIH rfl)
          · exact ih rfl symbol later
    exact closed yields rfl symbol List.mem_cons_self

/-- Whatever the productions, the rounds come to an end, and then the symbols found are those from
which the empty row can be derived. -/
theorem nullable_iff_derives_empty (productions : List Production) (terminals : List String)
    (start : String) :
    (∀ symbol, symbol ∈ (ofProductions productions terminals start).nullable ↔
      (ofProductions productions terminals start).Derives [symbol] []) ∧
    ∃ rounds ≤ productions.length,
      (ofProductions productions terminals start).nullable =
        (nullableRound productions)^[rounds] ∅ ∧
      (∀ earlier < rounds, ((nullableRound productions)^[earlier] ∅).size <
        ((nullableRound productions)^[earlier + 1] ∅).size) ∧
      nullableRound productions (ofProductions productions terminals start).nullable =
        (ofProductions productions terminals start).nullable := by
  refine ⟨?_, ?_⟩
  · intro symbol
    rw [derives_iff_yields, ← isNullable_iff, isNullable, OrderedSet.contains_iff]
  · obtain ⟨rounds, bound, made, growing⟩ := exists_rounds productions productions.length ∅
    refine ⟨rounds, bound, made, growing, ?_⟩
    have last : (nullableRound productions (nullableSymbols productions)).size =
        (nullableSymbols productions).size :=
      size_nullableRound_nullableFrom (by simp) (by simp)
    exact (nullableRound_eq_or_size_lt productions _).resolve_right
      (Nat.not_lt_of_le (Nat.le_of_eq last))

/-- The empty row aside, only an origin yields something else than itself. -/
theorem Yields.eq_of_isTerminal (disjoint : table.Disjoint) {symbol : String} {row out : List String}
    (terminal : table.isTerminal symbol = true) (yields : table.Yields (symbol :: row) out) :
    ∃ rest, out = symbol :: rest ∧ table.Yields row rest := by
  generalize whole : symbol :: row = full at yields
  cases yields with
  | nil => cases whole
  | keep first rest =>
      obtain ⟨rfl, rfl⟩ := List.cons.inj whole
      exact ⟨_, rfl, rest⟩
  | expand member =>
      obtain ⟨rfl, rfl⟩ := List.cons.inj whole
      exact absurd (OrderedSet.contains_iff.1 terminal) (disjoint _ member)

end RuleTable

end Typeahead
