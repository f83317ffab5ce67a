import Typeahead.Proofs.Candidates.Viability

namespace Typeahead

/-!
What skipped terminals do to the candidates.  The chart of an input says no more than the chart of
what it keeps, but the walk tells entered rules from open ones by their columns, and a skip moves
the column: behind one the walk starts from all rules that are open, so that preferred rules hide
nothing.
-/

namespace Chart

variable {table : RuleTable} {names : List String} {name : String}

/-- Whether a terminal is taken depends on what has been kept alone. -/
theorem skips_eq_false_iff_expects (disjoint : table.Disjoint) :
    skips table names name = false ↔
      table.isTerminal name = true ∧ table.Expects (keptNames table names) name := by
  rw [skips_eq_false_iff]
  refine and_congr_right fun _ => ⟨?_, ?_⟩
  · intro given
    obtain ⟨item, member, next⟩ := given
    obtain ⟨between, kept, stands⟩ := (justified_of_mem member).derivation
    obtain ⟨production, found, there⟩ := RuleTable.exists_of_symbolAt? next
    have after : (table.symbols item.production).drop item.dot =
        [] ++ name :: production.symbols.drop (item.dot + 1) := by
      obtain ⟨inside, same⟩ := List.getElem?_eq_some_iff.1 there
      rw [RuleTable.symbols_of_getElem? found, List.drop_eq_getElem_cons inside, same]
      rfl
    have opened : Candidates.OpenAfter table (keptNames table names) item.toDottedRule :=
      ⟨_, between, kept, stands⟩
    exact opened.expects after (by simp)
  · intro given
    obtain ⟨production, member, earlier, left, between, right, place, opened, passed, kept⟩ := given
    obtain ⟨p, found⟩ := Array.mem_iff_getElem?.1 member
    have stands := RuleTable.stands_of_place found place opened passed
    obtain ⟨origin, -, inside⟩ := (exists_mem_iff disjoint).2 ⟨between, kept, stands⟩
    refine ⟨_, inside, ?_⟩
    simp [RuleTable.symbolAt?, RuleTable.symbols_of_getElem? found, place]

theorem keptNames_keptNames (disjoint : table.Disjoint) (names : List String) :
    keptNames table (keptNames table names) = keptNames table names := by
  induction names using List.reverseRecOn with
  | nil => rfl
  | append_singleton names name ih =>
      cases skipped : skips table names name with
      | true => rwa [keptNames_concat_of_skips skipped]
      | false =>
          have again : skips table (keptNames table names) name = false := by
            rw [skips_eq_false_iff_expects disjoint, ih]
            exact (skips_eq_false_iff_expects disjoint).1 skipped
          rw [keptNames_concat_of_not_skips skipped, keptNames_concat_of_not_skips again, ih]

/-- The last terminal of an input was skipped. -/
def EndsSkipped (table : RuleTable) (names : List String) : Prop :=
  names.length - 1 ∈ (recognize table names).skipped

theorem not_endsSkipped_nil : ¬ EndsSkipped table [] := by
  simp [EndsSkipped, recognize, initial]

theorem endsSkipped_concat : EndsSkipped table (names ++ [name]) ↔ skips table names name = true := by
  have fresh : names.length ∉ (recognize table names).skipped := fun member =>
    Nat.lt_irrefl _ (lt_of_mem_skipped member)
  rw [EndsSkipped, List.length_append, List.length_singleton, Nat.add_sub_cancel, skipped_concat]
  cases skips table names name with
  | true => simp
  | false => simpa using fresh

end Chart

namespace Candidates

variable {table : RuleTable} {preferred names : List String}

theorem meets_congr {roots others : OrderedSet DottedRule}
    (same : ∀ rule, rule ∈ roots ↔ rule ∈ others) (listed : ∀ rule ∈ roots, rule ∈ table.dottedRules)
    {meeting : Meeting} : Meets table preferred roots meeting ↔ Meets table preferred others meeting := by
  have part : ∀ {first second : OrderedSet DottedRule}, (∀ rule ∈ first, rule ∈ second) →
      (∀ rule ∈ second, rule ∈ table.dottedRules) →
      ∀ rule ∈ walk table preferred first, rule ∈ walk table preferred second := by
    intro first second inside known
    exact walk_induction (fun rule member => mem_walk_of_mem (inside rule member))
      fun rule visited next entered => entered_mem_walk known visited entered
  have othersListed : ∀ rule ∈ others, rule ∈ table.dottedRules :=
    fun rule member => listed rule ((same rule).2 member)
  constructor
  · intro given
    obtain ⟨rule, visited, met⟩ := given
    exact ⟨rule, part (fun rule => (same rule).1) othersListed rule visited, met⟩
  · intro given
    obtain ⟨rule, visited, met⟩ := given
    exact ⟨rule, part (fun rule => (same rule).2) listed rule visited, met⟩

/-- Unless the last terminal was skipped, the walk starts from the rules that have read something
since they were opened. -/
theorem mem_openRules_of_taken (disjoint : table.Disjoint) (given : names ≠ [])
    (taken : ¬ Chart.EndsSkipped table names) {rule : DottedRule} :
    rule ∈ openRules table (.recognize table names) ↔
      ∃ front between, Chart.keptNames table names = front ++ between ∧ between ≠ [] ∧
        table.Stands rule front between := by
  constructor
  · intro member
    obtain ⟨nil, -⟩ | ⟨origin, bound, inside⟩ := mem_openRules.1 member
    · exact absurd nil given
    · obtain ⟨between, kept, stands⟩ := (Chart.justified_of_mem inside).derivation
      refine ⟨_, between, kept, ?_, stands⟩
      intro same
      subst same
      cases names using List.reverseRecOn with
      | nil => exact given rfl
      | append_singleton names name =>
          have unskipped : Chart.skips table names name = false := by
            rwa [← Bool.not_eq_true, ← Chart.endsSkipped_concat]
          have inFront : origin ≤ names.length := by
            simpa using Nat.le_of_lt_succ (by simpa using bound)
          have shorter : (Chart.keptNames table (names.take origin)).length ≤
              (Chart.keptNames table names).length := by
            have begins : Chart.keptNames table (names.take origin) <+:
                Chart.keptNames table (names.take origin ++ names.drop origin) :=
              Chart.keptNames_prefix _ _
            rw [List.take_append_drop] at begins
            exact begins.length_le
          have lengths := congrArg List.length kept
          rw [Chart.keptNames_concat_of_not_skips unskipped, List.append_nil,
            List.take_append_of_le_length inFront, List.length_append,
            List.length_singleton] at lengths
          omega
  · intro given
    obtain ⟨front, between, kept, read, stands⟩ := given
    exact mem_openRules_of_stands disjoint kept read stands

/-- Behind a skipped terminal the walk starts from all rules that are open. -/
theorem mem_openRules_of_skipped (disjoint : table.Disjoint)
    (skipped : Chart.EndsSkipped table names) {rule : DottedRule} :
    rule ∈ openRules table (.recognize table names) ↔
      OpenAfter table (Chart.keptNames table names) rule := by
  refine ⟨openAfter_of_mem_openRules, ?_⟩
  intro given
  obtain ⟨front, between, kept, stands⟩ := given
  cases names using List.reverseRecOn with
  | nil => exact absurd skipped Chart.not_endsSkipped_nil
  | append_singleton names name =>
      have same := Chart.keptNames_concat_of_skips (Chart.endsSkipped_concat.1 skipped)
      rw [same] at kept
      obtain ⟨origin, -, inside⟩ := (Chart.exists_mem_iff disjoint).2 ⟨between, kept, stands⟩
      have bound := (Chart.justified_of_mem inside).origin_le
      refine mem_openRules.2 (.inr ⟨origin, ?_, Chart.carry inside same⟩)
      rw [List.length_append]
      exact Nat.lt_succ_of_le bound

/-- The roots of the walk are those after what is kept, unless the last terminal was skipped. -/
theorem mem_openRules_keptNames (disjoint : table.Disjoint) (taken : ¬ Chart.EndsSkipped table names)
    {rule : DottedRule} :
    rule ∈ openRules table (.recognize table names) ↔
      rule ∈ openRules table (.recognize table (Chart.keptNames table names)) := by
  cases names using List.reverseRecOn with
  | nil => rfl
  | append_singleton names name =>
      have unskipped : Chart.skips table names name = false := by
        rwa [← Bool.not_eq_true, ← Chart.endsSkipped_concat]
      have again : ¬ Chart.EndsSkipped table (Chart.keptNames table (names ++ [name])) := by
        rw [Chart.keptNames_concat_of_not_skips unskipped, Chart.endsSkipped_concat,
          Bool.not_eq_true, Chart.skips_eq_false_iff_expects disjoint,
          Chart.keptNames_keptNames disjoint]
        exact (Chart.skips_eq_false_iff_expects disjoint).1 unskipped
      have given : Chart.keptNames table (names ++ [name]) ≠ [] := by
        simp [Chart.keptNames_concat_of_not_skips unskipped]
      rw [mem_openRules_of_taken disjoint (by simp) taken, mem_openRules_of_taken disjoint given again,
        Chart.keptNames_keptNames disjoint]

theorem exists_meets_of_skipped (disjoint : table.Disjoint) (skipped : Chart.EndsSkipped table names)
    {symbol : String} (expects : table.Expects (Chart.keptNames table names) symbol) :
    ∃ rest, Meets table preferred (openRules table (.recognize table names))
      (met table preferred symbol rest) := by
  obtain ⟨production, member, earlier, left, between, right, place, opened, passed, kept⟩ := expects
  obtain ⟨p, found⟩ := Array.mem_iff_getElem?.1 member
  have stands := RuleTable.stands_of_place found place opened passed
  have root := (mem_openRules_of_skipped disjoint skipped).2 ⟨earlier, between, kept, stands⟩
  exact ⟨right, meets_of_mem_walk disjoint (mem_walk_of_mem root) found place .nil⟩

theorem met_eq_preferredRule {symbol rule : String} {right : List String} :
    met table preferred symbol right = .preferredRule rule ↔
      table.isTerminal rule = false ∧ rule ∈ preferred ∧ symbol = rule := by
  unfold met
  split
  · rename_i terminal
    constructor
    · intro same
      cases same
    · intro given
      obtain ⟨other, -, rfl⟩ := given
      rw [terminal] at other
      cases other
  · rename_i other
    rw [Bool.not_eq_true] at other
    split
    · rename_i wanted
      constructor
      · intro same
        obtain rfl := Meeting.preferredRule.inj same
        exact ⟨other, List.contains_iff_mem.1 wanted, rfl⟩
      · intro given
        obtain ⟨-, -, rfl⟩ := given
        rfl
    · rename_i unwanted
      constructor
      · intro same
        cases same
      · intro given
        obtain ⟨-, wanted, rfl⟩ := given
        exact absurd (List.contains_iff_mem.2 wanted) unwanted

theorem expects_of_meets_preferredRule {rule : String}
    (meets : Meets table preferred (openRules table (.recognize table names)) (.preferredRule rule)) :
    table.isTerminal rule = false ∧ rule ∈ preferred ∧
      table.Expects (Chart.keptNames table names) rule := by
  obtain ⟨dotted, visited, member⟩ := meets
  obtain ⟨left, symbol, right, after, passed, same⟩ := mem_meetings.1 member
  obtain ⟨other, wanted, rfl⟩ := met_eq_preferredRule.1 same.symm
  exact ⟨other, wanted, (openAfter_of_mem_walk visited).expects after passed⟩

/-- After `kept`, which the chart keeps whole, the preferred rules hide nothing: every terminal and
every preferred rule that the start derives next is reported. -/
structure HidesNothing (table : RuleTable) (vocabulary : Vocabulary) (filter : CandidateFilter)
    (kept : List String) : Prop where
  tokens : ∀ name ∈ table.terminals, ∀ type ∉ filter.ignored, vocabulary.type? name = some type →
    (∃ after, Relation.TransGen table.Rewrites [table.start] (kept ++ name :: after)) →
    type ∈ (after table vocabulary filter (.recognize table kept)).tokens.map (·.1)
  rules : ∀ rule ∈ filter.preferred, rule ∉ table.terminals →
    (∃ after, Relation.TransGen table.Rewrites [table.start] (kept ++ rule :: after)) →
    rule ∈ (after table vocabulary filter (.recognize table kept)).rules

section SameCandidates

variable {vocabulary : Vocabulary} {filter : CandidateFilter}

theorem mem_tokens_of_skipped (disjoint : table.Disjoint) (skipped : Chart.EndsSkipped table names)
    {type : Int} :
    type ∈ (after table vocabulary filter (.recognize table names)).tokens.map (·.1) ↔
      ∃ name, table.isTerminal name = true ∧ vocabulary.type? name = some type ∧
        type ∉ filter.ignored ∧ table.Expects (Chart.keptNames table names) name := by
  rw [mem_tokens_after]
  constructor
  · intro given
    obtain ⟨name, rest, meets, typed, allowed⟩ := given
    obtain ⟨terminal, expects⟩ := expects_of_meets_terminal meets
    exact ⟨name, terminal, typed, allowed, expects⟩
  · intro given
    obtain ⟨name, terminal, typed, allowed, expects⟩ := given
    obtain ⟨rest, meets⟩ := exists_meets_of_skipped disjoint skipped expects
    rw [met_eq_terminal.2 ⟨terminal, rfl, rfl⟩] at meets
    exact ⟨name, rest, meets, typed, allowed⟩

theorem mem_rules_of_skipped (disjoint : table.Disjoint) (skipped : Chart.EndsSkipped table names)
    {rule : String} :
    rule ∈ (after table vocabulary filter (.recognize table names)).rules ↔
      table.isTerminal rule = false ∧ rule ∈ filter.preferred ∧
        table.Expects (Chart.keptNames table names) rule := by
  rw [mem_rules_after]
  constructor
  · exact expects_of_meets_preferredRule
  · intro given
    obtain ⟨other, wanted, expects⟩ := given
    obtain ⟨rest, meets⟩ := exists_meets_of_skipped disjoint skipped expects
    rwa [met_eq_preferredRule.2 ⟨other, wanted, rfl⟩] at meets

/-- Behind a skipped terminal no candidate of what the chart keeps is lost. -/
theorem mem_tokens_of_keptNames (disjoint : table.Disjoint)
    (skipped : Chart.EndsSkipped table names) {type : Int}
    (reported : type ∈ (after table vocabulary filter
      (.recognize table (Chart.keptNames table names))).tokens.map (·.1)) :
    type ∈ (after table vocabulary filter (.recognize table names)).tokens.map (·.1) := by
  obtain ⟨name, rest, meets, typed, allowed⟩ := mem_tokens_after.1 reported
  obtain ⟨terminal, expects⟩ := expects_of_meets_terminal meets
  rw [Chart.keptNames_keptNames disjoint names] at expects
  exact (mem_tokens_of_skipped disjoint skipped).2 ⟨name, terminal, typed, allowed, expects⟩

theorem mem_rules_of_keptNames (disjoint : table.Disjoint)
    (skipped : Chart.EndsSkipped table names) {rule : String}
    (reported : rule ∈ (after table vocabulary filter
      (.recognize table (Chart.keptNames table names))).rules) :
    rule ∈ (after table vocabulary filter (.recognize table names)).rules := by
  obtain ⟨other, wanted, expects⟩ := expects_of_meets_preferredRule (mem_rules_after.1 reported)
  rw [Chart.keptNames_keptNames disjoint names] at expects
  exact (mem_rules_of_skipped disjoint skipped).2 ⟨other, wanted, expects⟩

/-- Behind a terminal that was not skipped the walk meets what it meets after the kept ones. -/
theorem meets_keptNames (disjoint : table.Disjoint) (taken : ¬ Chart.EndsSkipped table names)
    {meeting : Meeting} :
    Meets table filter.preferred (openRules table (.recognize table names)) meeting ↔
      Meets table filter.preferred
        (openRules table (.recognize table (Chart.keptNames table names))) meeting :=
  meets_congr (fun _ => mem_openRules_keptNames disjoint taken) openRules_mem_dottedRules

/-- Skipped terminals leave the candidates as they are, except that behind one nothing is hidden:
the candidates of an input are those of what its chart keeps if and only if the last terminal was
not skipped or the preferred rules hide nothing there. -/
theorem same_candidates_iff (disjoint : table.Disjoint) (vocabulary : Vocabulary)
    (filter : CandidateFilter) (names : List String) :
    ((∀ type, type ∈ (after table vocabulary filter (.recognize table names)).tokens.map (·.1) ↔
        type ∈ (after table vocabulary filter
          (.recognize table ((Chart.recognize table names).kept names))).tokens.map (·.1)) ∧
      ∀ rule, rule ∈ (after table vocabulary filter (.recognize table names)).rules ↔
        rule ∈ (after table vocabulary filter
          (.recognize table ((Chart.recognize table names).kept names))).rules) ↔
    (Chart.EndsSkipped table names →
      HidesNothing table vocabulary filter ((Chart.recognize table names).kept names)) := by
  show (_ ∧ _) ↔ (_ → HidesNothing table vocabulary filter (Chart.keptNames table names))
  constructor
  · intro given skipped
    obtain ⟨sameTokens, sameRules⟩ := given
    constructor
    · intro name terminal type allowed typed derives
      refine (sameTokens type).1 ((mem_tokens_of_skipped disjoint skipped).2 ?_)
      exact ⟨name, OrderedSet.contains_iff.2 terminal, typed, allowed,
        RuleTable.expects_iff_transGen.2 derives⟩
    · intro rule wanted other derives
      refine (sameRules rule).1 ((mem_rules_of_skipped disjoint skipped).2 ⟨?_, wanted, ?_⟩)
      · rwa [← Bool.not_eq_true, RuleTable.isTerminal, OrderedSet.contains_iff]
      · exact RuleTable.expects_iff_transGen.2 derives
  · intro hidesNothing
    by_cases skipped : Chart.EndsSkipped table names
    · obtain ⟨tokens, rules⟩ := hidesNothing skipped
      constructor
      · intro type
        refine ⟨fun reported => ?_, mem_tokens_of_keptNames disjoint skipped⟩
        obtain ⟨name, terminal, typed, allowed, expects⟩ :=
          (mem_tokens_of_skipped disjoint skipped).1 reported
        exact tokens name (OrderedSet.contains_iff.1 terminal) type allowed typed
          (RuleTable.expects_iff_transGen.1 expects)
      · intro rule
        refine ⟨fun reported => ?_, mem_rules_of_keptNames disjoint skipped⟩
        obtain ⟨other, wanted, expects⟩ := (mem_rules_of_skipped disjoint skipped).1 reported
        refine rules rule wanted ?_ (RuleTable.expects_iff_transGen.1 expects)
        rwa [← OrderedSet.contains_iff, ← RuleTable.isTerminal, Bool.not_eq_true]
    · constructor
      · intro type
        simp only [mem_tokens_after, meets_keptNames disjoint skipped]
        rfl
      · intro rule
        simp only [mem_rules_after, meets_keptNames disjoint skipped]
        rfl

end SameCandidates

section Hidden

/-- Statements that are values, which are numbers. -/
def valueTable : RuleTable :=
  .ofProductions [⟨"statement", ["value"]⟩, ⟨"value", ["NUMBER"]⟩] ["NUMBER"] "statement"

theorem valueTable_disjoint : valueTable.Disjoint := by
  simp [RuleTable.Disjoint, valueTable, RuleTable.ofProductions]

theorem valueTable_skips : Chart.skips valueTable [] "?" = true := by
  rw [← Bool.not_eq_false, Chart.skips_eq_false_iff]
  simp [RuleTable.isTerminal, valueTable, RuleTable.ofProductions]

theorem valueTable_meets {meeting : Meeting}
    (meets : Meets valueTable ["value"] (openRules valueTable (.recognize valueTable [])) meeting) :
    meeting = .preferredRule "value" := by
  have front : meetingsAfter valueTable ["value"] ⟨0, 0⟩ = [.preferredRule "value"] := by
    simp [meetingsAfter, RuleTable.symbols, meetings, RuleTable.isTerminal, valueTable,
      RuleTable.ofProductions]
  have only : ∀ rule ∈ walk valueTable ["value"] (openRules valueTable (.recognize valueTable [])),
      rule = ⟨0, 0⟩ := by
    refine walk_induction ?_ ?_
    · intro rule root
      obtain ⟨-, p, listed, rfl⟩ | ⟨_, bound, -⟩ := mem_openRules.1 root
      · obtain ⟨production, found, origin⟩ := RuleTable.mem_productionsOf.1 listed
        rcases p with _ | _ | p
        · rfl
        · obtain rfl := Option.some.inj found
          simp [valueTable, RuleTable.ofProductions] at origin
        · simp [valueTable, RuleTable.ofProductions] at found
      · exact absurd bound (Nat.not_lt_zero _)
    · intro _ same next entered
      subst same
      obtain ⟨name, member, -⟩ := mem_entered.1 entered
      rw [front] at member
      simp at member
  obtain ⟨rule, visited, member⟩ := meets
  rw [only rule visited, front] at member
  simpa using member

/-- Behind an unknown terminal, which is skipped, the number shows that the preferred rule hides. -/
theorem not_same_candidates_behind_unknown :
    valueTable.Disjoint ∧
      ¬ ((∀ type, type ∈ (after valueTable ⟨[some "NUMBER"]⟩ { preferred := ["value"] }
            (.recognize valueTable ["?"])).tokens.map (·.1) ↔
          type ∈ (after valueTable ⟨[some "NUMBER"]⟩ { preferred := ["value"] }
            (.recognize valueTable ((Chart.recognize valueTable ["?"]).kept ["?"]))).tokens.map
              (·.1)) ∧
        ∀ rule, rule ∈ (after valueTable ⟨[some "NUMBER"]⟩ { preferred := ["value"] }
            (.recognize valueTable ["?"])).rules ↔
          rule ∈ (after valueTable ⟨[some "NUMBER"]⟩ { preferred := ["value"] }
            (.recognize valueTable ((Chart.recognize valueTable ["?"]).kept ["?"]))).rules) := by
  refine ⟨valueTable_disjoint, fun same => ?_⟩
  have skipped : Chart.EndsSkipped valueTable ([] ++ ["?"]) :=
    Chart.endsSkipped_concat.2 valueTable_skips
  have hidesNothing := (same_candidates_iff valueTable_disjoint _ _ _).1 same skipped
  have kept : (Chart.recognize valueTable ["?"]).kept ["?"] = [] :=
    Chart.keptNames_concat_of_skips valueTable_skips
  rw [kept] at hidesNothing
  have first : (⟨"statement", ["value"]⟩ : Production) ∈ valueTable.productions := by
    simp [valueTable, RuleTable.ofProductions]
  have second : (⟨"value", ["NUMBER"]⟩ : Production) ∈ valueTable.productions := by
    simp [valueTable, RuleTable.ofProductions]
  have derives : Relation.TransGen valueTable.Rewrites ["statement"] ["NUMBER"] :=
    (Relation.TransGen.single (RuleTable.Rewrites.replace [] [] first)).tail
      (RuleTable.Rewrites.replace [] [] second)
  have reported := hidesNothing.tokens "NUMBER" (OrderedSet.mem_ofList.2 (by simp)) 1 (by simp)
    (by decide) ⟨[], derives⟩
  obtain ⟨name, rest, meets, -⟩ := mem_tokens_after.1 reported
  cases valueTable_meets meets

end Hidden

end Candidates

end Typeahead
