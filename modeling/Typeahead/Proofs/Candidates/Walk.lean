import Typeahead.Candidates
import Typeahead.Proofs.Chart.Correctness

namespace Typeahead

/-!
The walk behind the candidates.  What is reported are the terminals and the preferred rules that
the visited dotted rules meet; what is visited is what can be entered from the rules still open.
-/

namespace Candidates

variable {table : RuleTable} {preferred : List String}

/-- Whether the walk goes on behind a symbol. -/
def passable (table : RuleTable) (symbol : String) : Bool :=
  !table.isTerminal symbol && table.isNullable symbol

/-- What the walk meets in a symbol with `rest` behind it. -/
def met (table : RuleTable) (preferred : List String) (symbol : String) (rest : List String) :
    Meeting :=
  if table.isTerminal symbol then .terminal symbol rest
  else if preferred.contains symbol then .preferredRule symbol
  else .rule symbol

theorem mem_meetings {row : List String} {meeting : Meeting} :
    meeting ∈ meetings table preferred row ↔
      ∃ left symbol right, row = left ++ symbol :: right ∧ (∀ s ∈ left, passable table s = true) ∧
        meeting = met table preferred symbol right := by
  induction row with
  | nil => simp [meetings]
  | cons first row ih =>
      -- a meeting is either that of the first symbol or one behind it
      have shifted : (∃ left symbol right, first :: row = left ++ symbol :: right ∧
            (∀ s ∈ left, passable table s = true) ∧ meeting = met table preferred symbol right) ↔
          meeting = met table preferred first row ∨
            (passable table first = true ∧ meeting ∈ meetings table preferred row) := by
        rw [ih]
        constructor
        · intro given
          obtain ⟨left, symbol, right, split, passed, rfl⟩ := given
          cases left with
          | nil =>
              obtain ⟨rfl, rfl⟩ := List.cons.inj split
              exact .inl rfl
          | cons head left =>
              obtain ⟨rfl, tail⟩ := List.cons.inj split
              rw [List.forall_mem_cons] at passed
              exact .inr ⟨passed.1, left, symbol, right, tail, passed.2, rfl⟩
        · intro given
          rcases given with rfl | ⟨first_passed, left, symbol, right, rfl, passed, rfl⟩
          · exact ⟨[], first, row, rfl, by simp, rfl⟩
          · exact ⟨first :: left, symbol, right, rfl, by simpa using ⟨first_passed, passed⟩, rfl⟩
      rw [shifted, meetings, met, passable]
      cases terminal : table.isTerminal first with
      | true => simp
      | false =>
          cases nullable : table.isNullable first with
          | true => simp
          | false => simp

/-- Without rules that are passed over, what is met behind the dot stands behind symbols that yield
nothing. -/
theorem yields_of_passable {left : List String} (passed : ∀ s ∈ left, passable table s = true) :
    table.Yields left [] := by
  rw [RuleTable.yields_nil_iff]
  intro symbol member
  have holds := passed symbol member
  rw [passable, Bool.and_eq_true] at holds
  exact RuleTable.isNullable_iff.1 holds.2

theorem passable_of_yields (disjoint : table.Disjoint) {left : List String}
    (yields : table.Yields left []) : ∀ s ∈ left, passable table s = true := by
  intro symbol member
  have empty := RuleTable.yields_nil_iff.1 yields symbol member
  rw [passable, Bool.and_eq_true, RuleTable.isNullable_iff]
  refine ⟨?_, empty⟩
  rw [Bool.not_eq_true', ← Bool.not_eq_true]
  intro terminal
  obtain ⟨rest, absurd, -⟩ := empty.eq_of_isTerminal disjoint terminal
  cases absurd

section Report

variable {vocabulary : Vocabulary} {ignored : List Int} {candidates : Candidates}

theorem mem_tokens_report {meeting : Meeting} {type : Int} :
    type ∈ (report table vocabulary ignored candidates meeting).tokens.map (·.1) ↔
      type ∈ candidates.tokens.map (·.1) ∨
        ∃ name rest, meeting = .terminal name rest ∧ vocabulary.type? name = some type ∧
          type ∉ ignored := by
  cases meeting with
  | preferredRule => simp [report]
  | rule => simp [report]
  | terminal name rest =>
      simp only [report]
      cases found : vocabulary.type? name with
      | none => simp [found]
      | some own =>
          by_cases left_out : own ∈ ignored
          · have different : ∀ type, type ∉ ignored → own ≠ type := by
              intro type kept same
              subst same
              exact kept left_out
            simp [found, left_out]
            grind
          · by_cases known : own ∈ candidates.tokens.map (·.1)
            · simp only [List.mem_map] at known
              simp [found]
              grind
            · simp only [List.mem_map] at known
              simp [found]
              grind

theorem mem_rules_report {meeting : Meeting} {rule : String} :
    rule ∈ (report table vocabulary ignored candidates meeting).rules ↔
      rule ∈ candidates.rules ∨ meeting = .preferredRule rule := by
  cases meeting with
  | preferredRule name => simp [report, eq_comm]
  | rule => simp [report]
  | terminal name rest =>
      simp only [report]
      split
      · simp
      · split <;> simp

theorem mem_tokens_foldl {meetings : List Meeting} {type : Int} :
    type ∈ (meetings.foldl (report table vocabulary ignored) candidates).tokens.map (·.1) ↔
      type ∈ candidates.tokens.map (·.1) ∨
        ∃ name rest, .terminal name rest ∈ meetings ∧ vocabulary.type? name = some type ∧
          type ∉ ignored := by
  induction meetings generalizing candidates with
  | nil => simp
  | cons meeting meetings ih =>
      rw [List.foldl_cons, ih, mem_tokens_report, or_assoc]
      refine or_congr_right ?_
      simp only [List.mem_cons]
      constructor
      · intro given
        rcases given with ⟨name, rest, rfl, holds⟩ | ⟨name, rest, member, holds⟩
        · exact ⟨name, rest, .inl rfl, holds⟩
        · exact ⟨name, rest, .inr member, holds⟩
      · intro given
        obtain ⟨name, rest, rfl | member, holds⟩ := given
        · exact .inl ⟨name, rest, rfl, holds⟩
        · exact .inr ⟨name, rest, member, holds⟩

theorem mem_rules_foldl {meetings : List Meeting} {rule : String} :
    rule ∈ (meetings.foldl (report table vocabulary ignored) candidates).rules ↔
      rule ∈ candidates.rules ∨ .preferredRule rule ∈ meetings := by
  induction meetings generalizing candidates with
  | nil => simp
  | cons meeting meetings ih =>
      rw [List.foldl_cons, ih, mem_rules_report, or_assoc, List.mem_cons, eq_comm]

end Report

/-- What the walk from `roots` meets. -/
def Meets (table : RuleTable) (preferred : List String) (roots : OrderedSet DottedRule)
    (meeting : Meeting) : Prop :=
  ∃ rule ∈ walk table preferred roots, meeting ∈ meetingsAfter table preferred rule

section After

variable {vocabulary : Vocabulary} {filter : CandidateFilter} {chart : Chart}

theorem mem_tokens_after {type : Int} :
    type ∈ (after table vocabulary filter chart).tokens.map (·.1) ↔
      ∃ name rest, Meets table filter.preferred (openRules table chart) (.terminal name rest) ∧
        vocabulary.type? name = some type ∧ type ∉ filter.ignored := by
  simp only [after, mem_tokens_foldl, List.map_nil, List.not_mem_nil, false_or, List.mem_flatMap,
    OrderedSet.mem_toList, Meets]

theorem mem_rules_after {rule : String} :
    rule ∈ (after table vocabulary filter chart).rules ↔
      Meets table filter.preferred (openRules table chart) (.preferredRule rule) := by
  simp only [after, mem_rules_foldl, OrderedSet.not_mem_empty, false_or, List.mem_flatMap,
    OrderedSet.mem_toList, Meets]

end After

section Walk

variable {roots : OrderedSet DottedRule} {rule : DottedRule}

theorem mem_entered {next : DottedRule} :
    next ∈ entered table preferred rule ↔
      ∃ name, .rule name ∈ meetingsAfter table preferred rule ∧
        ∃ p ∈ table.productionsOf name, next = ⟨p, 0⟩ := by
  simp only [entered, List.mem_flatMap]
  constructor
  · intro given
    obtain ⟨meeting, member, inside⟩ := given
    cases meeting with
    | terminal => cases inside
    | preferredRule => cases inside
    | rule name =>
        obtain ⟨p, listed, rfl⟩ := List.mem_map.1 inside
        exact ⟨name, member, p, listed, rfl⟩
  · intro given
    obtain ⟨name, member, p, listed, rfl⟩ := given
    exact ⟨.rule name, member, List.mem_map_of_mem listed⟩

theorem entered_mem_dottedRules {next : DottedRule} (member : next ∈ entered table preferred rule) :
    next ∈ table.dottedRules := by
  obtain ⟨name, -, p, listed, rfl⟩ := mem_entered.1 member
  obtain ⟨production, found, -⟩ := RuleTable.mem_productionsOf.1 listed
  exact RuleTable.mem_dottedRules.2 ⟨production, found, Nat.zero_le _⟩

theorem mem_walk_of_mem (member : rule ∈ roots) : rule ∈ walk table preferred roots :=
  OrderedSet.mem_saturate_of_mem member

theorem walk_induction {P : DottedRule → Prop} (first : ∀ rule ∈ roots, P rule)
    (step : ∀ rule, P rule → ∀ next ∈ entered table preferred rule, P next) :
    ∀ rule ∈ walk table preferred roots, P rule :=
  OrderedSet.saturate_induction first step

theorem entered_mem_walk (listed : ∀ rule ∈ roots, rule ∈ table.dottedRules) {next : DottedRule}
    (member : rule ∈ walk table preferred roots) (reached : next ∈ entered table preferred rule) :
    next ∈ walk table preferred roots := by
  have within : ∀ rule ∈ walk table preferred roots, rule ∈ table.dottedRules :=
    walk_induction listed fun _ _ _ entered => entered_mem_dottedRules entered
  exact OrderedSet.saturate_closed (Nat.le_of_eq table.length_dottedRules) within member reached

theorem openRules_mem_dottedRules {names : List String} :
    ∀ rule ∈ openRules table (.recognize table names), rule ∈ table.dottedRules := by
  intro rule member
  unfold openRules at member
  split at member
  · obtain ⟨p, listed, rfl⟩ := List.mem_map.1 (OrderedSet.mem_ofList.1 member)
    obtain ⟨production, found, -⟩ := RuleTable.mem_productionsOf.1 listed
    exact RuleTable.mem_dottedRules.2 ⟨production, found, Nat.zero_le _⟩
  · obtain ⟨item, inside, rfl⟩ := List.mem_map.1 (OrderedSet.mem_ofList.1 member)
    have there := OrderedSet.mem_toList.1 (List.mem_filter.1 inside).1
    exact (RuleTable.mem_items.1 (Chart.within_column names item there)).1

end Walk

end Candidates

end Typeahead
