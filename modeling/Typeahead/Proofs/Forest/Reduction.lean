import Typeahead.Proofs.Forest.Assembly

namespace Typeahead.Forest

/-!
Rows of values, as they stand on the parser's stack.  The list of an inlined value has the value's
height as its level, so what a reduction appends to it comes from higher levels.  A reduction keeps
the levels, and the leaves below its value are those below the values it takes.
-/

/-- The value of a symbol at a height of the stack. -/
def Fits (level : Nat → Nat) (forest : Forest) (height : Nat) (symbol : String) : Branch → Prop
  | .leaf _ => True
  | .node _ list =>
      list < forest.lists.size ∧ height ≤ level list ∧
        (isInlined symbol = true →
          level list = height ∧ (forest.children list).isEmpty = false)

/-- The values of a row, the first of which stands at `height`. -/
def RowFits (level : Nat → Nat) (forest : Forest) : (height : Nat) → List (String × Branch) → Prop
  | _, [] => True
  | height, value :: rest =>
      Fits level forest height value.1 value.2 ∧ RowFits level forest (height + 1) rest

/-- A forest that has grown, with the levels of the lists that were there. -/
structure Growth (level : Nat → Nat) (forest : Forest) (level' : Nat → Nat) (grown : Forest) :
    Prop where
  extended : forest.Extends grown
  levels : ∀ list < forest.lists.size, level' list = level list

variable {level level' : Nat → Nat} {forest grown : Forest} {height list target : Nat}
  {symbol : String} {branch : Branch} {values : List (String × Branch)}

namespace Growth

theorem refl (level : Nat → Nat) (forest : Forest) : Growth level forest level forest :=
  ⟨.refl forest, fun _ _ => rfl⟩

theorem trans {level'' : Nat → Nat} {last : Forest} (first : Growth level forest level' grown)
    (second : Growth level' grown level'' last) : Growth level forest level'' last := by
  refine ⟨first.extended.trans second.extended, ?_⟩
  intro list inside
  rw [second.levels list (Nat.lt_of_lt_of_le inside first.extended.size_le), first.levels list inside]

theorem fits (growth : Growth level forest level' grown)
    (fitting : Fits level forest height symbol branch) :
    Fits level' grown height symbol branch := by
  cases branch with
  | leaf terminal => trivial
  | node rule list =>
      obtain ⟨inside, above, inlined⟩ := fitting
      refine ⟨Nat.lt_of_lt_of_le inside growth.extended.size_le, ?_, ?_⟩
      · rwa [growth.levels list inside]
      · intro inline
        obtain ⟨exact_, nonempty⟩ := inlined inline
        refine ⟨by rwa [growth.levels list inside], ?_⟩
        have kept := growth.extended.children_prefix list
        simp only [Array.isEmpty_eq_false_iff, ne_eq, ← Array.toList_eq_nil_iff] at nonempty ⊢
        intro empty
        rw [empty, List.prefix_nil] at kept
        exact nonempty kept

theorem rowFits (growth : Growth level forest level' grown)
    (fitting : RowFits level forest height values) : RowFits level' grown height values := by
  induction values generalizing height with
  | nil => trivial
  | cons value rest ih => exact ⟨growth.fits fitting.1, ih fitting.2⟩

end Growth

theorem rowFits_append {first second : List (String × Branch)} :
    RowFits level forest height (first ++ second) ↔
      RowFits level forest height first ∧ RowFits level forest (height + first.length) second := by
  induction first generalizing height with
  | nil => simp [RowFits]
  | cons value rest ih =>
      simp only [List.cons_append, RowFits, ih, and_assoc, List.length_cons]
      rw [Nat.add_right_comm height 1, ← Nat.add_assoc]

theorem exists_fits_of_mem (fitting : RowFits level forest height values)
    {value : String × Branch} (member : value ∈ values) :
    ∃ above, height ≤ above ∧ Fits level forest above value.1 value.2 := by
  induction values generalizing height with
  | nil => cases member
  | cons first rest ih =>
      rcases List.mem_cons.1 member with rfl | later
      · exact ⟨height, Nat.le_refl _, fitting.1⟩
      · obtain ⟨above, bound, fits⟩ := ih fitting.2 later
        exact ⟨above, by omega, fits⟩

namespace Leveled

theorem level_le_of_reaches (leveled : Leveled level forest)
    (reaches : forest.Reaches (.node symbol list) target) : level list ≤ level target := by
  cases reaches with
  | here => exact Nat.le_refl _
  | child member reaches =>
      have deeper := leveled.deeper_of_reaches member reaches
      unfold Deeper at deeper
      omega

theorem height_le_of_reaches (leveled : Leveled level forest)
    (fitting : Fits level forest height symbol branch) (reaches : forest.Reaches branch target) :
    height ≤ level target := by
  cases branch with
  | leaf terminal => cases reaches
  | node rule list => exact Nat.le_trans fitting.2.1 (leveled.level_le_of_reaches reaches)

theorem lt_size_of_reaches (leveled : Leveled level forest)
    (fitting : Fits level forest height symbol branch) (reaches : forest.Reaches branch target) :
    target < forest.lists.size := by
  have inner : ∀ {branch target}, forest.Reaches branch target →
      (∀ rule list, branch = .node rule list → list < forest.lists.size) →
      target < forest.lists.size := by
    intro branch target reaches
    induction reaches with
    | here => exact fun inside => inside _ _ rfl
    | child member _ ih =>
        intro _
        apply ih
        intro rule list same
        subst same
        exact (leveled _ _ _ member).1
  apply inner reaches
  intro rule list same
  subst same
  exact fitting.1

end Leveled

theorem mem_contribution {value : String × Branch} (member : branch ∈ forest.contribution value) :
    branch = value.2 ∨
      ∃ rule list, value.2 = .node rule list ∧ isInlined value.1 = true ∧
        branch ∈ forest.children list := by
  rcases value with ⟨symbol, value⟩
  cases value with
  | leaf terminal => exact .inl (List.mem_singleton.1 member)
  | node rule list =>
      simp only [contribution] at member
      split at member
      · rename_i inlined
        exact .inr ⟨rule, list, rfl, inlined, Array.mem_toList_iff.1 member⟩
      · exact .inl (List.mem_singleton.1 member)

theorem fits_contribution (leveled : Leveled level forest) {value : String × Branch}
    (fitting : Fits level forest height value.1 value.2)
    (member : branch ∈ forest.contribution value) : Fits level forest height "" branch := by
  have plain : isInlined "" = false := by decide
  rcases mem_contribution member with rfl | ⟨rule, list, same, -, inside⟩
  · cases kind : value.2 with
    | leaf terminal => trivial
    | node rule list =>
        rw [kind] at fitting
        exact ⟨fitting.1, fitting.2.1, by simp [plain]⟩
  · rw [same] at fitting
    cases branch with
    | leaf terminal => trivial
    | node inner below =>
        obtain ⟨numbered, deeper⟩ := leveled _ _ _ inside
        have above := fitting.2.1
        unfold Deeper at deeper
        exact ⟨numbered, by omega, by simp [plain]⟩

theorem yield_contribution (leveled : Leveled level forest) (value : String × Branch) :
    (forest.contribution value).flatMap forest.yield = forest.yield value.2 := by
  rcases value with ⟨symbol, value⟩
  cases value with
  | leaf terminal => simp [contribution]
  | node rule list =>
      simp only [contribution]
      split
      · rw [leveled.yield_node]
      · simp

theorem contributions_ne_nil (fitting : RowFits level forest height values)
    (nonempty : values ≠ []) : values.flatMap forest.contribution ≠ [] := by
  match values, nonempty with
  | (symbol, .leaf terminal) :: rest, _ => simp [contribution]
  | (symbol, .node rule list) :: rest, _ =>
      by_cases inlined : isInlined symbol = true
      · have filled := (fitting.1.2.2 inlined).2
        simp only [Array.isEmpty_eq_false_iff, ne_eq] at filled
        simp [contribution, inlined, filled]
      · simp [contribution, inlined]

theorem RowFits.gatherable (fitting : RowFits level forest height values) :
    forest.Gatherable values := by
  constructor
  · intro value member rule list same
    obtain ⟨above, -, fits⟩ := exists_fits_of_mem fitting member
    rw [same] at fits
    exact fits.1
  · intro symbol rule list rest split inlined
    subst split
    obtain ⟨⟨-, -, first⟩, later⟩ := fitting
    obtain ⟨exact_, filled⟩ := first inlined
    refine ⟨filled, ?_⟩
    intro other label member
    obtain ⟨above, bound, fits⟩ := exists_fits_of_mem later member
    -- an inlined value higher up has a list of a higher level
    rw [Bool.eq_false_iff]
    intro alsoInlined
    have raised := (fits.2.2 alsoInlined).1
    omega

/-- The values are gathered in a new list, or in that of the first value. -/
theorem assemble_cases (forest : Forest) (values : List (String × Branch)) :
    forest.assemble values = forest.grow (values.flatMap forest.contribution).toArray ∨
      ∃ symbol rule list rest, values = (symbol, .node rule list) :: rest ∧
        isInlined symbol = true ∧
        forest.assemble values =
          (forest.append list (rest.flatMap forest.contribution).toArray, list) := by
  match values with
  | [] => exact .inl rfl
  | (symbol, .leaf terminal) :: rest =>
      left
      simp [assemble, contribution]
  | (symbol, .node rule list) :: rest =>
      by_cases inlined : isInlined symbol = true
      · refine .inr ⟨symbol, rule, list, rest, rfl, inlined, ?_⟩
        simp [assemble, inlined]
      · left
        simp [assemble, contribution, inlined]

/-- The list to which a production appends the contributions of its later values. -/
def appendedTo? : List (String × Branch) → Option Nat
  | (symbol, .node _ list) :: _ :: _ => if isInlined symbol then some list else none
  | _ => none

section Assembled

variable (leveled : Leveled level forest) (fitting : RowFits level forest height values)

include fitting

theorem children_assemble : ((forest.assemble values).1.children (forest.assemble values).2).toList =
    values.flatMap forest.contribution := by
  rcases forest.assemble_cases values with fresh | ⟨symbol, rule, list, rest, rfl, inlined, appended⟩
  · rw [fresh, children_grow]
  · have inside := fitting.1.1
    rw [appended]
    simp [children_append inside, contribution, inlined]

theorem children_assemble_of_ne (different : list ≠ (forest.assemble values).2) :
    (forest.assemble values).1.children list = forest.children list := by
  rcases forest.assemble_cases values with fresh | ⟨symbol, rule, first, rest, rfl, inlined, appended⟩
  · rw [fresh] at different ⊢
    simp only [grow] at different
    rw [children_grow_eq, if_neg different]
  · have inside := fitting.1.1
    rw [appended] at different ⊢
    rw [children_append inside, if_neg different]

theorem extends_assemble : forest.Extends (forest.assemble values).1 := by
  rcases forest.assemble_cases values with fresh | ⟨symbol, rule, list, rest, rfl, inlined, appended⟩
  · rw [fresh]
    exact extends_grow forest _
  · rw [appended]
    exact extends_append fitting.1.1 _

theorem assemble_lt_size : (forest.assemble values).2 < (forest.assemble values).1.lists.size := by
  rcases forest.assemble_cases values with fresh | ⟨symbol, rule, list, rest, rfl, inlined, appended⟩
  · rw [fresh, size_grow]
    exact Nat.lt_succ_self _
  · rw [appended]
    simpa using fitting.1.1

theorem children_assemble_of_appendedTo? (inside : list < forest.lists.size)
    (spared : appendedTo? values ≠ some list) :
    (forest.assemble values).1.children list = forest.children list := by
  rcases forest.assemble_cases values with fresh | ⟨symbol, rule, first, rest, rfl, inlined, appended⟩
  · rw [fresh, children_grow_eq, if_neg (Nat.ne_of_lt inside)]
  · have numbered := fitting.1.1
    rw [appended]
    cases rest with
    | nil => simp [append_empty numbered]
    | cons second rest =>
        rw [children_append numbered, if_neg]
        intro same
        simp [appendedTo?, inlined, same] at spared

include leveled

theorem ne_assemble_of_reaches (member : branch ∈ values.flatMap forest.contribution)
    (reaches : forest.Reaches branch target) : target ≠ (forest.assemble values).2 := by
  obtain ⟨value, listed, contributed⟩ := List.mem_flatMap.1 member
  obtain ⟨above, bound, fits⟩ := exists_fits_of_mem fitting listed
  rcases forest.assemble_cases values with fresh | ⟨symbol, rule, first, rest, rfl, inlined, appended⟩
  · have inside := leveled.lt_size_of_reaches (fits_contribution leveled fits contributed) reaches
    rw [fresh]
    exact Nat.ne_of_lt inside
  · rw [appended]
    simp only
    have base := (fitting.1.2.2 inlined).1
    rcases List.mem_cons.1 listed with rfl | later
    · -- what the first list holds is deeper than that list
      have held : branch ∈ forest.children first := by
        simpa [contribution, inlined] using contributed
      have deeper := leveled.deeper_of_reaches held reaches
      intro same
      rw [same] at deeper
      exact not_deeper_self level first deeper
    · obtain ⟨above, bound, fits⟩ := exists_fits_of_mem fitting.2 later
      have raised :=
        leveled.height_le_of_reaches (fits_contribution leveled fits contributed) reaches
      intro same
      rw [same] at raised
      omega

theorem tree_assemble (member : branch ∈ values.flatMap forest.contribution) :
    (forest.assemble values).1.tree branch = forest.tree branch := by
  obtain ⟨value, listed, contributed⟩ := List.mem_flatMap.1 member
  obtain ⟨above, -, fits⟩ := exists_fits_of_mem fitting listed
  apply leveled.tree_congr (extends_assemble fitting).size_le
  · intro list reaches
    exact leveled.lt_size_of_reaches (fits_contribution leveled fits contributed) reaches
  · intro list reaches
    exact children_assemble_of_ne fitting (ne_assemble_of_reaches leveled fitting member reaches)

/-- The levels after a reduction at `height`. -/
def raised (level : Nat → Nat) (forest : Forest) (height list : Nat) : Nat :=
  if list < forest.lists.size then level list else height

omit leveled in
theorem raised_assemble :
    raised level forest height (forest.assemble values).2 = height := by
  rcases forest.assemble_cases values with fresh | ⟨symbol, rule, first, rest, rfl, inlined, appended⟩
  · rw [fresh]
    simp [raised, grow]
  · rw [appended]
    simp [raised, fitting.1.1, (fitting.1.2.2 inlined).1]

omit leveled in
theorem growth_assemble :
    Growth level forest (raised level forest height) (forest.assemble values).1 :=
  ⟨extends_assemble fitting, fun list inside => by simp [raised, inside]⟩

theorem leveled_assemble :
    Leveled (raised level forest height) (forest.assemble values).1 := by
  have larger := (extends_assemble fitting).size_le
  intro list rule child member
  by_cases gathered : list = (forest.assemble values).2
  · have listed := Array.mem_toList_iff.2 member
    rw [gathered, children_assemble fitting] at listed
    obtain ⟨value, inside, contributed⟩ := List.mem_flatMap.1 listed
    obtain ⟨above, bound, fits⟩ := exists_fits_of_mem fitting inside
    obtain ⟨numbered, high, -⟩ := fits_contribution leveled fits contributed
    have kept : raised level forest height child = level child := by simp [raised, numbered]
    refine ⟨Nat.lt_of_lt_of_le numbered larger, ?_⟩
    unfold Deeper
    rw [gathered, raised_assemble fitting, kept]
    rcases forest.assemble_cases values with fresh | ⟨symbol, label, first, rest, rfl, inlined, appended⟩
    · rw [fresh]
      simp only [grow]
      omega
    · have base := (fitting.1.2.2 inlined).1
      rw [appended]
      rcases List.mem_cons.1 inside with rfl | later
      · have held : .node rule child ∈ forest.children first := by
          simpa [contribution, inlined] using contributed
        have deeper := (leveled _ _ _ held).2
        unfold Deeper at deeper
        simp only
        omega
      · obtain ⟨above, bound, fits⟩ := exists_fits_of_mem fitting.2 later
        obtain ⟨-, high, -⟩ := fits_contribution leveled fits contributed
        omega
  · rw [children_assemble_of_ne fitting gathered] at member
    have inside := lt_size_of_mem member
    obtain ⟨numbered, deeper⟩ := leveled _ _ _ member
    refine ⟨Nat.lt_of_lt_of_le numbered larger, ?_⟩
    simpa [Deeper, raised, inside, numbered] using deeper

theorem yield_assemble (rule : String) :
    (forest.assemble values).1.yield (.node rule (forest.assemble values).2) =
      values.flatMap fun value => forest.yield value.2 := by
  rw [(leveled_assemble leveled fitting).yield_node, children_assemble fitting]
  have kept : (values.flatMap forest.contribution).flatMap (forest.assemble values).1.yield =
      (values.flatMap forest.contribution).flatMap forest.yield := by
    apply List.flatMap_congr
    intro branch member
    rw [yield, yield, tree_assemble leveled fitting member]
  rw [kept, List.flatMap_assoc]
  simp only [yield_contribution leveled]

theorem reaches_assemble {rule : String}
    (reaches : (forest.assemble values).1.Reaches (.node rule (forest.assemble values).2) target) :
    forest.lists.size ≤ target ∨ ∃ value ∈ values, forest.Reaches value.2 target := by
  cases reaches with
  | here =>
      rcases forest.assemble_cases values with fresh | ⟨symbol, label, first, rest, rfl, inlined, appended⟩
      · rw [fresh]
        exact .inl (Nat.le_refl _)
      · rw [appended]
        exact .inr ⟨_, List.mem_cons_self, .here⟩
  | @child _ _ _ branch member reaches =>
      have listed := Array.mem_toList_iff.2 member
      rw [children_assemble fitting] at listed
      have before : forest.Reaches branch target := by
        apply reaches.congr
        intro list reached
        exact children_assemble_of_ne fitting (ne_assemble_of_reaches leveled fitting listed reached)
      obtain ⟨value, inside, contributed⟩ := List.mem_flatMap.1 listed
      refine .inr ⟨value, inside, ?_⟩
      rcases mem_contribution contributed with rfl | ⟨label, list, same, -, held⟩
      · exact before
      · rw [same]
        exact .child held before

end Assembled

/-- The list in which values are gathered: it is new or the one that the first value names, and no
other list has changed. -/
theorem exists_assembled (fitting : RowFits level forest height values) :
    ∃ grown list, forest.assemble values = (grown, list) ∧
      (grown.children list).toList = values.flatMap forest.contribution ∧
      list < grown.lists.size ∧ forest.lists.size ≤ grown.lists.size ∧
      (∀ other, other ≠ list → grown.children other = forest.children other) ∧
      (list = forest.lists.size ∨ ∃ symbol rule rest,
        values = (symbol, .node rule list) :: rest ∧ isInlined symbol = true) := by
  refine ⟨(forest.assemble values).1, (forest.assemble values).2, rfl, children_assemble fitting,
    assemble_lt_size fitting,
    (extends_assemble fitting).size_le,
    fun _ different => children_assemble_of_ne fitting different, ?_⟩
  rcases forest.assemble_cases values with fresh | ⟨symbol, rule, list, rest, split, inlined, appended⟩
  · left
    rw [fresh]
    rfl
  · right
    rw [appended]
    exact ⟨symbol, rule, rest, split, inlined⟩

theorem settle_eq_or (forest : Forest) (transparent : List String) (origin : String) (list : Nat) :
    forest.settle transparent origin list = .node origin list ∨
      transparent.contains origin = true ∧
        (forest.children list).toList = [forest.settle transparent origin list] := by
  unfold settle
  split
  · rename_i child only
    split
    · rename_i listed
      exact .inr ⟨listed, only⟩
    · exact .inl rfl
  · exact .inl rfl

section Reduced

variable {transparent : List String} {production : Production} {branches : List Branch}
  (leveled : Leveled level forest)
  (fitting : RowFits level forest height (production.symbols.zip branches))

include fitting

theorem growth_reduce : Growth level forest (raised level forest height)
    (forest.reduce transparent production branches).1 := by
  rw [reduce_eq fitting.gatherable]
  exact growth_assemble fitting

theorem children_reduce (inside : list < forest.lists.size)
    (spared : appendedTo? (production.symbols.zip branches) ≠ some list) :
    (forest.reduce transparent production branches).1.children list = forest.children list := by
  rw [reduce_eq fitting.gatherable]
  exact children_assemble_of_appendedTo? fitting inside spared

include leveled

theorem leveled_reduce :
    Leveled (raised level forest height) (forest.reduce transparent production branches).1 := by
  rw [reduce_eq fitting.gatherable]
  exact leveled_assemble leveled fitting

/-- The leaves below the value of a production are those below the values of its symbols. -/
theorem yield_reduce : (forest.reduce transparent production branches).1.yield
    (forest.reduce transparent production branches).2 =
      (production.symbols.zip branches).flatMap fun value => forest.yield value.2 := by
  rw [reduce_eq fitting.gatherable, ← yield_assemble leveled fitting production.origin]
  rcases (forest.assemble (production.symbols.zip branches)).1.settle_eq_or transparent
      production.origin (forest.assemble (production.symbols.zip branches)).2 with same | ⟨-, only⟩
  · rw [same]
  · rw [(leveled_assemble leveled fitting).yield_node, only]
    simp

theorem reaches_reduce
    (reaches : (forest.reduce transparent production branches).1.Reaches
      (forest.reduce transparent production branches).2 target) :
    forest.lists.size ≤ target ∨
      ∃ value ∈ production.symbols.zip branches, forest.Reaches value.2 target := by
  rw [reduce_eq fitting.gatherable] at reaches
  rcases (forest.assemble (production.symbols.zip branches)).1.settle_eq_or transparent
      production.origin (forest.assemble (production.symbols.zip branches)).2 with same | ⟨-, only⟩
  · rw [same] at reaches
    exact reaches_assemble leveled fitting reaches
  · have above : (forest.assemble (production.symbols.zip branches)).1.Reaches
        (.node production.origin (forest.assemble (production.symbols.zip branches)).2) target := by
      refine .child ?_ reaches
      rw [← Array.mem_toList_iff, only]
      exact List.mem_singleton.2 rfl
    exact reaches_assemble leveled fitting above

theorem fits_reduce (sized : branches.length = production.symbols.length)
    (allowed : isInlined production.origin = true →
      production.symbols ≠ [] ∧ transparent.contains production.origin = false) :
    Fits (raised level forest height) (forest.reduce transparent production branches).1 height
      production.origin (forest.reduce transparent production branches).2 := by
  have leveled' := leveled_assemble leveled fitting
  have inside := assemble_lt_size fitting
  have at_height := raised_assemble fitting
  have listed := children_assemble fitting
  rw [reduce_eq fitting.gatherable]
  rcases (forest.assemble (production.symbols.zip branches)).1.settle_eq_or transparent
      production.origin (forest.assemble (production.symbols.zip branches)).2 with same | ⟨collapsed, only⟩
  · rw [same]
    refine ⟨inside, Nat.le_of_eq at_height.symm, ?_⟩
    intro inlined
    refine ⟨at_height, ?_⟩
    obtain ⟨nonempty, -⟩ := allowed inlined
    have filled : production.symbols.zip branches ≠ [] := by
      rw [← List.length_pos_iff] at nonempty ⊢
      rw [List.length_zip]
      omega
    rw [Array.isEmpty_eq_false_iff, ne_eq, ← Array.toList_eq_nil_iff, listed]
    exact contributions_ne_nil fitting filled
  · have plain : isInlined production.origin = false := by
      rw [Bool.eq_false_iff]
      intro inlined
      rw [(allowed inlined).2] at collapsed
      cases collapsed
    simp only
    generalize forest' : (forest.assemble (production.symbols.zip branches)).1.settle transparent
      production.origin (forest.assemble (production.symbols.zip branches)).2 = child at only
    cases child with
    | leaf terminal => trivial
    | node rule named =>
        have member : .node rule named ∈ (forest.assemble (production.symbols.zip branches)).1.children
            (forest.assemble (production.symbols.zip branches)).2 := by
          rw [← Array.mem_toList_iff, only]
          exact List.mem_singleton.2 rfl
        obtain ⟨numbered, deeper⟩ := leveled' _ _ _ member
        unfold Deeper at deeper
        exact ⟨numbered, by omega, by simp [plain]⟩

end Reduced

end Typeahead.Forest
