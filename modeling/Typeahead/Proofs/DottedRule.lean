import Typeahead.Chart
import Typeahead.Proofs.Derivation

namespace Typeahead

/-!
Dotted rules and items of a rule table.  There are finitely many of them, and their number is the
one that bounds the searches over them.
-/

namespace RuleTable

variable {table : RuleTable} {p : Nat} {production : Production}

theorem mem_productionsOf {origin : String} :
    p ∈ table.productionsOf origin ↔
      ∃ production, table.productions[p]? = some production ∧ production.origin = origin := by
  rw [productionsOf, table.byOrigin_eq, productionsByOrigin, Grouping.mem_get_ofList]
  simp only [List.mem_map, Prod.exists, List.mk_mem_zipIdx_iff_getElem?, Array.getElem?_toList,
    Prod.mk.injEq]
  constructor
  · intro given
    obtain ⟨production, i, found, rfl, rfl⟩ := given
    exact ⟨production, found, rfl⟩
  · intro given
    obtain ⟨production, found, rfl⟩ := given
    exact ⟨production, p, found, rfl, rfl⟩

theorem symbols_of_getElem? (found : table.productions[p]? = some production) :
    table.symbols p = production.symbols := by
  simp only [symbols, found]

theorem symbolAt?_of_getElem? (found : table.productions[p]? = some production) (dot : Nat) :
    table.symbolAt? ⟨p, dot⟩ = production.symbols[dot]? := by
  simp only [symbolAt?, symbols_of_getElem? found]

theorem exists_of_symbolAt? {rule : DottedRule} {symbol : String}
    (next : table.symbolAt? rule = some symbol) :
    ∃ production, table.productions[rule.production]? = some production ∧
      production.symbols[rule.dot]? = some symbol := by
  cases found : table.productions[rule.production]? with
  | none => simp [symbolAt?, symbols, found] at next
  | some production =>
      refine ⟨production, rfl, ?_⟩
      rwa [← symbolAt?_of_getElem? found rule.dot]

theorem symbolAt?_of_drop {rule : DottedRule} {symbol : String} {rest : List String}
    (after : (table.symbols rule.production).drop rule.dot = symbol :: rest) :
    table.symbolAt? rule = some symbol := by
  rw [symbolAt?, ← List.head?_drop, after]
  rfl

/-- All dotted rules of a table. -/
def dottedRules (table : RuleTable) : List DottedRule :=
  table.productions.toList.zipIdx.flatMap fun (production, p) =>
    (List.range (production.symbols.length + 1)).map (⟨p, ·⟩)

theorem mem_dottedRules {rule : DottedRule} :
    rule ∈ table.dottedRules ↔
      ∃ production, table.productions[rule.production]? = some production ∧
        rule.dot ≤ production.symbols.length := by
  simp only [dottedRules, List.mem_flatMap, Prod.exists, List.mk_mem_zipIdx_iff_getElem?,
    Array.getElem?_toList, List.mem_map, List.mem_range]
  constructor
  · intro given
    obtain ⟨production, p, found, dot, bound, rfl⟩ := given
    exact ⟨production, found, Nat.le_of_lt_succ bound⟩
  · intro given
    obtain ⟨production, found, bound⟩ := given
    exact ⟨production, rule.production, found, rule.dot, by omega, rfl⟩

theorem length_dottedRules (table : RuleTable) :
    table.dottedRules.length = table.dottedRuleCount := by
  have counted : ∀ (productions : List Production) (first count : Nat),
      count + ((productions.zipIdx first).flatMap fun (production, p) =>
        (List.range (production.symbols.length + 1)).map (DottedRule.mk p)).length =
      productions.foldl (fun count production => count + production.symbols.length + 1) count := by
    intro productions
    induction productions with
    | nil => intro _ _; rfl
    | cons production rest ih =>
        intro first count
        rw [List.foldl_cons, ← ih (first + 1)]
        simp only [List.zipIdx_cons, List.flatMap_cons, List.length_append, List.length_map,
          List.length_range]
        omega
  simpa [dottedRules, dottedRuleCount] using counted table.productions.toList 0 0

/-- All items of a table whose origins are at most `last`. -/
def items (table : RuleTable) (last : Nat) : List Item :=
  table.dottedRules.flatMap fun rule => (List.range (last + 1)).map (⟨rule, ·⟩)

theorem mem_items {last : Nat} {item : Item} :
    item ∈ table.items last ↔ item.toDottedRule ∈ table.dottedRules ∧ item.origin ≤ last := by
  simp only [items, List.mem_flatMap, List.mem_map, List.mem_range]
  constructor
  · intro given
    obtain ⟨rule, member, origin, bound, rfl⟩ := given
    exact ⟨member, Nat.le_of_lt_succ bound⟩
  · intro given
    obtain ⟨member, bound⟩ := given
    exact ⟨item.toDottedRule, member, item.origin, by omega, rfl⟩

theorem length_items (table : RuleTable) (last : Nat) :
    (table.items last).length = table.dottedRuleCount * (last + 1) := by
  simp only [items, List.length_flatMap, List.length_map, List.length_range, List.map_const',
    List.sum_replicate_nat, length_dottedRules]

end RuleTable

end Typeahead
