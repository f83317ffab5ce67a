import Mathlib.Data.List.TakeWhile
import Typeahead.Proofs.Candidates.Viability

namespace Typeahead

/-!
What a candidate is said to be followed by.  A sentence that puts a terminal behind what was kept
goes through one of the productions in which the walk meets it, and then on with the terminals
behind it there.  Only the first production that is met is recorded, so what it says is certain only
as far as the others agree.
-/

namespace RuleTable

variable {table : RuleTable} {row before after rest : List String} {symbol : String}

/-- The row becomes `before`, the symbol and `after` by way of a production in which `rest` stands
behind the symbol. -/
def Through (table : RuleTable) (row before : List String) (symbol : String)
    (rest after : List String) : Prop :=
  ∃ production ∈ table.productions, ∃ earlier left between outer,
    production.symbols = left ++ symbol :: rest ∧ before = earlier ++ between ∧
    table.Derives row (earlier ++ production.origin :: outer) ∧ table.Yields left between ∧
    table.Yields (rest ++ outer) after

namespace Through

theorem derives (through : table.Through row before symbol rest after) :
    table.Derives row (before ++ symbol :: after) := by
  obtain ⟨production, member, earlier, left, between, outer, place, rfl, opened, passed, behind⟩ :=
    through
  have entered := (transGen_enter member place passed earlier outer).to_reflTransGen
  have finished := (Derives.of_yields behind).within (earlier ++ between ++ [symbol]) []
  simp only [List.append_nil, List.append_assoc, List.singleton_append] at finished
  simp only [List.append_assoc] at entered ⊢
  exact (opened.trans entered).trans finished

/-- What stands around the row comes in front of what it becomes and behind it. -/
theorem within (through : table.Through row before symbol rest after) {whole : List String}
    (left right : List String) {out : List String}
    (opened : table.Derives whole (left ++ row ++ right))
    (yields : table.Yields right out) :
    table.Through whole (left ++ before) symbol rest (after ++ out) := by
  obtain ⟨production, member, earlier, inner, between, outer, place, rfl, derives, passed, behind⟩ :=
    through
  refine ⟨production, member, left ++ earlier, inner, between, outer ++ right, place, by simp, ?_,
    passed, ?_⟩
  · have reached := opened.trans (derives.within left right)
    simpa using reached
  · rw [← List.append_assoc]
    exact behind.append yields

end Through

/-- A symbol of what a row yields is one of the row or comes from a production. -/
theorem Yields.through (yields : table.Yields row (before ++ symbol :: after)) :
    (∃ left right, row = left ++ symbol :: right ∧ table.Yields left before ∧
      table.Yields right after) ∨ ∃ rest, table.Through row before symbol rest after := by
  generalize whole : before ++ symbol :: after = out at yields
  induction yields generalizing before after with
  | nil => simp at whole
  | @keep first row out behind ih =>
      cases before with
      | nil =>
          obtain ⟨rfl, rfl⟩ := List.cons.inj whole
          exact .inl ⟨[], row, rfl, .nil, behind⟩
      | cons head before =>
          obtain ⟨rfl, tail⟩ := List.cons.inj whole
          rcases ih tail with ⟨left, right, rfl, front, back⟩ | ⟨rest, through⟩
          · exact .inl ⟨head :: left, right, rfl, front.keep head, back⟩
          · have around := through.within [head] [] (by simpa using .refl _) .nil
            exact .inr ⟨rest, by simpa using around⟩
  | @expand production row middle out member inner behind innerIH ih =>
      have opened : table.Derives (production.origin :: row) (production.symbols ++ row) :=
        Relation.ReflTransGen.single (by simpa using Rewrites.replace [] row member)
      have expanded : table.Derives (production.origin :: row) (middle ++ row) :=
        .of_yields (.expand member inner (.refl row))
      have later : ∀ gap, before = middle ++ gap → gap ++ symbol :: after = out →
          (∃ left right, production.origin :: row = left ++ symbol :: right ∧
            table.Yields left before ∧ table.Yields right after) ∨
          ∃ rest, table.Through (production.origin :: row) before symbol rest after := by
        intro gap front same
        subst front
        rcases ih same with ⟨left, right, rfl, before, behind⟩ | ⟨rest, through⟩
        · exact .inl ⟨production.origin :: left, right, rfl, .expand member inner before, behind⟩
        · have around := through.within middle [] (by simpa using expanded) .nil
          exact .inr ⟨rest, by simpa using around⟩
      rcases List.append_eq_append_iff.1 whole with ⟨gap, split, tail⟩ | ⟨gap, split, tail⟩
      · -- the symbol stands in what the production yields, or right behind it
        cases gap with
        | nil => exact later [] (by simpa using split.symm) tail
        | cons head gap =>
            obtain ⟨rfl, rfl⟩ := List.cons.inj tail
            rcases innerIH split.symm with ⟨left, right, place, passed, rest⟩ | ⟨rest, through⟩
            · exact .inr ⟨right, production, member, [], left, before, row, place, rfl, .refl _,
                passed, rest.append behind⟩
            · exact .inr ⟨rest, through.within [] row (by simpa using opened) behind⟩
      · exact later gap split tail.symm

/-- Where something is expected, the start is a rule. -/
theorem Expects.not_isTerminal_start (disjoint : table.Disjoint)
    (expects : table.Expects before symbol) : table.isTerminal table.start = false := by
  obtain ⟨production, member, earlier, -, -, -, -, opened, -⟩ := expects
  have start : ∃ production ∈ table.productions, production.origin = table.start := by
    generalize same : production.origin = origin at opened
    induction opened generalizing production with
    | start => exact ⟨production, member, same⟩
    | enter member' _ _ _ ih => exact ih _ member' rfl
  obtain ⟨first, member', same⟩ := start
  rw [← same]
  exact disjoint.isTerminal_origin member'

/-- A sentence goes through a production at each of its terminals. -/
theorem exists_through (rule : table.isTerminal table.start = false)
    (terminal : table.isTerminal symbol = true)
    (derives : table.Derives [table.start] (before ++ symbol :: after)) :
    ∃ rest, table.Through [table.start] before symbol rest after := by
  rcases (derives_iff_yields.1 derives).through with ⟨left, right, row, -, -⟩ | through
  · have same : symbol ∈ [table.start] := by rw [row]; simp
    rw [List.mem_singleton.1 same, rule] at terminal
    cases terminal
  · exact through

/-- Terminals at the front of a row stay there. -/
theorem Yields.terminals (disjoint : table.Disjoint) {front : List String}
    (terminals : ∀ s ∈ front, table.isTerminal s = true)
    (yields : table.Yields (front ++ row) after) :
    ∃ out, after = front ++ out ∧ table.Yields row out := by
  induction front generalizing after with
  | nil => exact ⟨after, rfl, yields⟩
  | cons first front ih =>
      rw [List.forall_mem_cons] at terminals
      obtain ⟨out, rfl, behind⟩ := Yields.eq_of_isTerminal disjoint terminals.1 yields
      obtain ⟨last, rfl, tail⟩ := ih terminals.2 behind
      exact ⟨last, rfl, tail⟩

end RuleTable

namespace Candidates

variable {table : RuleTable} {vocabulary : Vocabulary} {names rest : List String} {name : String}
  {type : Int} {follow : List Int}

/-- The type of a terminal that the walk meets. -/
def Meeting.type? (vocabulary : Vocabulary) : Meeting → Option Int
  | .terminal name _ => vocabulary.type? name
  | .preferredRule _ | .rule _ => none

/-- All that the walk meets, in the order in which it is reported. -/
def encounters (table : RuleTable) (preferred : List String) (chart : Chart) : List Meeting :=
  (walk table preferred (openRules table chart)).toList.flatMap (meetingsAfter table preferred)

theorem mem_encounters {preferred : List String} {chart : Chart} {meeting : Meeting} :
    meeting ∈ encounters table preferred chart ↔
      Meets table preferred (openRules table chart) meeting := by
  simp only [encounters, List.mem_flatMap, OrderedSet.mem_toList, Meets]

/-- A row begins with terminals of the given types. -/
def BeginsWith (vocabulary : Vocabulary) (row : List String) (types : List Int) : Prop :=
  types.map some <+: row.map vocabulary.type?

instance (vocabulary : Vocabulary) (row : List String) (types : List Int) :
    Decidable (BeginsWith vocabulary row types) :=
  inferInstanceAs (Decidable (types.map some <+: row.map vocabulary.type?))

/-- Every sentence that begins with the kept names and `name` goes on with the given types. -/
def Forces (table : RuleTable) (vocabulary : Vocabulary) (kept : List String) (name : String)
    (types : List Int) : Prop :=
  ∀ after, table.Derives [table.start] (kept ++ name :: after) →
    (∀ symbol ∈ after, table.isTerminal symbol = true) → BeginsWith vocabulary after types

/-- A report adds what it meets, if that is new. -/
theorem mem_tokens_report_cases {candidates : Candidates} {meeting : Meeting}
    (recorded : (type, follow) ∈ (report table vocabulary [] candidates meeting).tokens) :
    (type, follow) ∈ candidates.tokens ∨ type ∉ candidates.tokens.map (·.1) ∧ ∃ name rest,
      meeting = .terminal name rest ∧ vocabulary.type? name = some type ∧
      follow = following table vocabulary rest := by
  cases meeting with
  | preferredRule => exact .inl recorded
  | rule => exact .inl recorded
  | terminal name rest =>
      simp only [report] at recorded
      split at recorded
      · exact .inl recorded
      · next own typed =>
          split at recorded
          · exact .inl recorded
          · next unknown =>
              rw [List.mem_append, List.mem_singleton] at recorded
              rcases recorded with before | new
              · exact .inl before
              · obtain ⟨rfl, rfl⟩ := Prod.mk.inj new
                have absent : type ∉ candidates.tokens.map (·.1) := by
                  simpa using unknown
                exact .inr ⟨absent, name, rest, rfl, typed, rfl⟩

/-- A type is recorded where it is met first. -/
theorem first_of_mem_tokens_foldl {meetings : List Meeting} {candidates : Candidates}
    (recorded : (type, follow) ∈
      (meetings.foldl (report table vocabulary []) candidates).tokens) :
    (type, follow) ∈ candidates.tokens ∨ type ∉ candidates.tokens.map (·.1) ∧ ∃ name rest,
      meetings.find? (·.type? vocabulary == some type) = some (.terminal name rest) ∧
      follow = following table vocabulary rest := by
  induction meetings generalizing candidates with
  | nil => exact .inl recorded
  | cons meeting meetings ih =>
      rw [List.foldl_cons] at recorded
      rcases ih recorded with early | ⟨new, name, rest, found, same⟩
      · rcases mem_tokens_report_cases early with before | ⟨new, name, rest, rfl, typed, same⟩
        · exact .inl before
        · exact .inr ⟨new, name, rest, List.find?_cons_of_pos (by simp [Meeting.type?, typed]), same⟩
      · rw [mem_tokens_report, not_or] at new
        have other : ¬ (meeting.type? vocabulary == some type) = true := by
          intro typed
          cases meeting with
          | preferredRule => cases typed
          | rule => cases typed
          | terminal own rest =>
              exact new.2 ⟨own, rest, rfl, eq_of_beq typed, List.not_mem_nil⟩
        exact .inr ⟨new.1, name, rest, (List.find?_cons_of_neg (by exact other)).trans found, same⟩

theorem first_of_mem_tokens {chart : Chart}
    (recorded : (type, follow) ∈ (after table vocabulary {} chart).tokens) :
    ∃ name rest, (encounters table [] chart).find? (·.type? vocabulary == some type) =
        some (.terminal name rest) ∧
      vocabulary.type? name = some type ∧ follow = following table vocabulary rest := by
  rcases first_of_mem_tokens_foldl recorded with none | ⟨-, name, rest, found, same⟩
  · cases none
  · have typed := List.find?_some found
    exact ⟨name, rest, found, eq_of_beq typed, same⟩

theorem OpenAfter.through {kept left right : List String} {rule : DottedRule} {symbol : String}
    (opened : OpenAfter table kept rule)
    (behind : (table.symbols rule.production).drop rule.dot = left ++ symbol :: right)
    (passed : ∀ s ∈ left, passable table s = true) :
    ∃ after, table.Through [table.start] kept symbol right after := by
  obtain ⟨front, between, rfl, production, found, -, yields, opens⟩ := opened
  rw [RuleTable.symbols_of_getElem? found] at behind
  have place : production.symbols =
      (production.symbols.take rule.dot ++ left) ++ symbol :: right := by
    rw [List.append_assoc, ← behind, List.take_append_drop]
  have skipped : table.Yields (production.symbols.take rule.dot ++ left) (between ++ []) :=
    yields.append (yields_of_passable passed)
  rw [List.append_nil] at skipped
  obtain ⟨outer, derives⟩ := RuleTable.opens_iff_derives.1 opens
  exact ⟨right ++ outer, production, Array.mem_of_getElem? found, front, _, between, outer, place,
    rfl, derives, skipped, .refl _⟩

/-- The productions in which the walk meets a terminal are those through which a derivation comes
to it. -/
theorem meets_iff_through (disjoint : table.Disjoint) (terminal : table.isTerminal name = true) :
    Meets table [] (openRules table (.recognize table names)) (.terminal name rest) ↔
      ∃ after, table.Through [table.start] (Chart.keptNames table names) name rest after := by
  constructor
  · intro meets
    obtain ⟨rule, visited, member⟩ := meets
    obtain ⟨left, symbol, right, behind, passed, same⟩ := mem_meetings.1 member
    obtain ⟨-, rfl, rfl⟩ := met_eq_terminal.1 same.symm
    exact (openAfter_of_mem_walk visited).through behind passed
  · intro through
    obtain ⟨after, production, member, earlier, left, between, outer, place, kept, derives, passed,
      -⟩ := through
    obtain ⟨p, found⟩ := Array.mem_iff_getElem?.1 member
    have opened := RuleTable.opens_iff_derives.2 ⟨outer, derives⟩
    have meets := meets_of_production disjoint found place opened passed kept fun read =>
      visited_of_opens disjoint opened (by simpa [read] using kept)
        (RuleTable.mem_productionsOf.2 ⟨_, found, rfl⟩)
    rwa [met_eq_terminal.2 ⟨terminal, rfl, rfl⟩] at meets

section Following

variable (disjoint : table.Disjoint)
  (named : ∀ name ∈ table.terminals, (vocabulary.type? name).isSome = true)

include named

theorem map_some_following (rest : List String) : (following table vocabulary rest).map some =
    (rest.takeWhile table.isTerminal).map vocabulary.type? := by
  rw [following, List.map_filterMap, ← List.filterMap_eq_map]
  apply List.filterMap_congr
  intro symbol member
  have terminal := OrderedSet.contains_iff.1 (List.mem_takeWhile_imp member)
  obtain ⟨type, typed⟩ := Option.isSome_iff_exists.1 (named symbol terminal)
  simp [typed]

include disjoint

/-- What goes through a production goes on with the terminals that stand there. -/
theorem beginsWith_of_through {before after : List String}
    (through : table.Through [table.start] before name rest after) :
    BeginsWith vocabulary after (following table vocabulary rest) := by
  obtain ⟨-, -, -, -, -, outer, -, -, -, -, behind⟩ := through
  rw [← List.takeWhile_append_dropWhile (p := table.isTerminal) (l := rest),
    List.append_assoc] at behind
  obtain ⟨out, rfl, -⟩ := behind.terminals disjoint fun _ => List.mem_takeWhile_imp
  rw [BeginsWith, map_some_following named, List.map_append]
  exact List.prefix_append _ _

/-- The types recorded with a terminal are those behind it in the production that is met first.
They have to follow it if and only if they do so in all sentences through other productions. -/
theorem forces_iff (recorded : (type, follow) ∈
      (after table vocabulary {} (.recognize table names)).tokens)
    (typed : vocabulary.type? name = some type) :
    ∃ rest, (encounters table [] (.recognize table names)).find?
        (·.type? vocabulary == some type) = some (.terminal name rest) ∧
      follow = following table vocabulary rest ∧
      (∃ after, table.Through [table.start] (Chart.keptNames table names) name rest after) ∧
      (∀ after, table.Through [table.start] (Chart.keptNames table names) name rest after →
        BeginsWith vocabulary after follow) ∧
      (Forces table vocabulary (Chart.keptNames table names) name follow ↔
        ∀ other after, other ≠ rest →
          table.Through [table.start] (Chart.keptNames table names) name other after →
          (∀ symbol ∈ after, table.isTerminal symbol = true) →
          BeginsWith vocabulary after follow) := by
  obtain ⟨own, rest, found, typed', rfl⟩ := first_of_mem_tokens recorded
  obtain rfl : own = name := by
    rw [← Option.some_inj, ← Vocabulary.symbolicName?_of_type? typed',
      Vocabulary.symbolicName?_of_type? typed]
  have meets := mem_encounters.1 (List.mem_of_find?_eq_some found)
  obtain ⟨terminal, expects⟩ := expects_of_meets_terminal meets
  have rule := expects.not_isTerminal_start disjoint
  have sure : ∀ after, table.Through [table.start] (Chart.keptNames table names) own rest after →
      BeginsWith vocabulary after (following table vocabulary rest) :=
    fun _ => beginsWith_of_through disjoint named
  use rest, found, rfl, (meets_iff_through disjoint terminal).1 meets, sure
  constructor
  · intro forces other after _ through ended
    exact forces after through.derives ended
  · intro others after derives ended
    obtain ⟨other, through⟩ := RuleTable.exists_through rule terminal derives
    by_cases same : other = rest
    · exact sure after (same ▸ through)
    · exact others other after same through ended

end Following

section Choice

/-- A statement that a value or a block follows the same word. -/
def choiceTable : RuleTable :=
  .ofProductions [⟨"statement", ["RETURN", "NUMBER"]⟩, ⟨"statement", ["RETURN", "WORD"]⟩]
    ["RETURN", "NUMBER", "WORD"] "statement"

def choiceVocabulary : Vocabulary := ⟨[some "RETURN", some "NUMBER", some "WORD"]⟩

theorem choiceTable_disjoint : choiceTable.Disjoint := by
  simp [RuleTable.Disjoint, choiceTable, RuleTable.ofProductions]

theorem choiceVocabulary_named :
    ∀ name ∈ choiceTable.terminals, (choiceVocabulary.type? name).isSome = true := by
  intro name member
  have listed : name ∈ ["RETURN", "NUMBER", "WORD"] := OrderedSet.mem_ofList.1 member
  simp only [List.mem_cons, List.not_mem_nil, or_false] at listed
  rcases listed with rfl | rfl | rfl <;> decide

theorem choiceTable_derives {word : String} (member : (⟨"statement", ["RETURN", word]⟩ : Production) ∈
    choiceTable.productions) : choiceTable.Derives ["statement"] ["RETURN", word] :=
  Relation.ReflTransGen.single (RuleTable.Rewrites.replace [] [] member)

theorem choiceTable_terminal {name : String} (member : name ∈ ["RETURN", "NUMBER", "WORD"]) :
    choiceTable.isTerminal name = true :=
  OrderedSet.contains_iff.2 (OrderedSet.mem_ofList.2 member)

theorem choiceTable_following {production : Production} (member : production ∈ choiceTable.productions)
    {left rest : List String} (place : production.symbols = left ++ "RETURN" :: rest) :
    following choiceTable choiceVocabulary rest = [2] ∨
      following choiceTable choiceVocabulary rest = [3] := by
  have number : choiceTable.isTerminal "NUMBER" = true := choiceTable_terminal (by simp)
  have word : choiceTable.isTerminal "WORD" = true := choiceTable_terminal (by simp)
  simp only [choiceTable, RuleTable.ofProductions, List.mem_toArray, List.mem_cons,
    List.not_mem_nil, or_false] at member
  rcases member with rfl | rfl
  · rcases left with - | ⟨_, - | ⟨_, _⟩⟩ <;> simp at place
    rw [← place]
    exact .inl (by simp [following, number]; rfl)
  · rcases left with - | ⟨_, - | ⟨_, _⟩⟩ <;> simp at place
    rw [← place]
    exact .inr (by simp [following, word]; rfl)

/-- Of the two words that may follow, one is recorded as if it had to. -/
theorem not_forces_of_choice : choiceTable.Disjoint ∧ ∃ follow,
    (1, follow) ∈ (after choiceTable choiceVocabulary {} (.recognize choiceTable [])).tokens ∧
      ¬ Forces choiceTable choiceVocabulary (Chart.keptNames choiceTable []) "RETURN" follow := by
  have number : (⟨"statement", ["RETURN", "NUMBER"]⟩ : Production) ∈ choiceTable.productions := by
    simp [choiceTable, RuleTable.ofProductions]
  have word : (⟨"statement", ["RETURN", "WORD"]⟩ : Production) ∈ choiceTable.productions := by
    simp [choiceTable, RuleTable.ofProductions]
  have typed : choiceVocabulary.type? "RETURN" = some 1 := by decide
  have reported : 1 ∈ (after choiceTable choiceVocabulary {}
      (.recognize choiceTable [])).tokens.map (·.1) := by
    rw [mem_tokens_iff_expects choiceTable_disjoint]
    exact ⟨"RETURN", choiceTable_terminal (by simp), typed, List.not_mem_nil, _, number, [], [], [],
      ["NUMBER"], rfl, .start, .nil, rfl⟩
  obtain ⟨⟨type, follow⟩, recorded, rfl⟩ := List.mem_map.1 reported
  refine ⟨choiceTable_disjoint, follow, recorded, ?_⟩
  obtain ⟨rest, -, rfl, ⟨after, production, member, earlier, left, between, outer, place, -⟩, -⟩ :=
    forces_iff choiceTable_disjoint choiceVocabulary_named recorded typed
  intro forces
  have first := forces ["NUMBER"] (choiceTable_derives number) (by
    simpa using choiceTable_terminal (by simp))
  have second := forces ["WORD"] (choiceTable_derives word) (by
    simpa using choiceTable_terminal (by simp))
  rcases choiceTable_following member place with same | same
  · rw [same] at second
    exact absurd second (by decide)
  · rw [same] at first
    exact absurd first (by decide)

end Choice

end Candidates

end Typeahead
