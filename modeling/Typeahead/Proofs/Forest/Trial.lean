import Typeahead.Proofs.Forest.Row

namespace Typeahead.Forest

/-!
Reductions in a trial that shares its lists with a parser.  The trial builds on the topmost value of
the parser.  As long as it appends to no other list of the parser, the parser's tokens stay as they
are; when it does, it appends the last token once more.
-/

/-- A branch that the trial has made of terminals it made up: below it there are foreign lists
only. -/
def Foreign (foreign : Nat → Prop) : Branch → Prop
  | .leaf terminal => terminal.index? = none
  | .node _ list => foreign list

/-- A trial from the row of `forest` with `top` as its last value, which has kept to itself: it has
appended nothing but foreign branches, and those to the list of `top` only.  The value `base`
stands for `top` and those above it are foreign. -/
structure Aside (forest : Forest) (top : Branch) (foreign : Nat → Prop) (grown : Forest)
    (base : String × Branch) (upper : List (String × Branch)) : Prop where
  larger : forest.lists.size ≤ grown.lists.size
  numbered : ∀ list, foreign list → forest.lists.size ≤ list ∧ list < grown.lists.size
  closed : ∀ list, foreign list → ∀ branch ∈ grown.children list, Foreign foreign branch
  upper : ∀ value ∈ upper, Foreign foreign value.2
  base : isInlined base.1 = true → ∀ rule list, base.2 = .node rule list →
    list < grown.lists.size ∧ ¬foreign list ∧
      (forest.lists.size ≤ list ∨ ∃ label, top = .node label list)
  changed : ∀ list < forest.lists.size, ∃ added,
    (grown.children list).toList = (forest.children list).toList ++ added ∧
      (∀ branch ∈ added, Foreign foreign branch) ∧ (added = [] ∨ ∃ label, top = .node label list)

variable {level level' : Nat → Nat} {forest grown : Forest} {top branch : Branch}
  {foreign : Nat → Prop} {base : String × Branch} {upper : List (String × Branch)}
  {height target : Nat}

theorem aside_refl (fits : Fits level forest height base.1 base.2) :
    Aside forest base.2 (fun _ => False) forest base [] where
  larger := Nat.le_refl _
  numbered := fun _ absurd => absurd.elim
  closed := fun _ absurd => absurd.elim
  upper := by simp
  base := by
    intro _ rule list same
    rw [same] at fits
    exact ⟨fits.1, id, .inr ⟨rule, same⟩⟩
  changed := fun list _ => ⟨[], by simp, by simp, .inl rfl⟩

theorem Aside.leaf (aside : Aside forest top foreign grown base upper) (symbol : String)
    {terminal : Leaf} (conjured : terminal.index? = none) :
    Aside forest top foreign grown base (upper ++ [(symbol, .leaf terminal)]) where
  larger := aside.larger
  numbered := aside.numbered
  closed := aside.closed
  upper := by
    intro value member
    rcases List.mem_append.1 member with old | new
    · exact aside.upper value old
    · rw [List.mem_singleton.1 new]
      exact conjured
  base := aside.base
  changed := aside.changed

theorem Foreign.mono {foreign' : Nat → Prop} (fine : ∀ list, foreign list → foreign' list)
    (own : Foreign foreign branch) : Foreign foreign' branch := by
  cases branch with
  | leaf terminal => exact own
  | node rule list => exact fine list own

theorem Aside.foreign_contribution (aside : Aside forest top foreign grown base upper)
    {values : List (String × Branch)} (own : ∀ value ∈ values, Foreign foreign value.2)
    (member : branch ∈ values.flatMap grown.contribution) : Foreign foreign branch := by
  obtain ⟨value, inside, contributed⟩ := List.mem_flatMap.1 member
  have fine := own value inside
  rcases mem_contribution contributed with rfl | ⟨rule, list, same, -, held⟩
  · exact fine
  · rw [same] at fine
    exact aside.closed list fine branch held

section Reduced

variable {transparent : List String} {production : Production} {branches : List Branch}
  (fitting : RowFits level grown height (production.symbols.zip branches))

include fitting

/-- A reduction of foreign values makes a foreign value. -/
theorem Aside.reduce_upper {lower : List (String × Branch)}
    (aside : Aside forest top foreign grown base (lower ++ production.symbols.zip branches)) :
    ∃ foreign', Aside forest top foreign' (grown.reduce transparent production branches).1 base
      (lower ++ [(production.origin, (grown.reduce transparent production branches).2)]) := by
  have own : ∀ value ∈ production.symbols.zip branches, Foreign foreign value.2 := fun value member =>
    aside.upper value (List.mem_append_right _ member)
  obtain ⟨grown', list, assembled, listed, inside, larger, others, gathered⟩ :=
    exists_assembled fitting
  rw [reduce_eq fitting.gatherable, assembled]
  generalize production.symbols.zip branches = values at *
  simp only
  have kind : list = grown.lists.size ∨ foreign list := by
    rcases gathered with fresh | ⟨symbol, rule, rest, split, -⟩
    · exact .inl fresh
    · exact .inr (own (symbol, .node rule list) (split ▸ List.mem_cons_self))
  have beyond : forest.lists.size ≤ list := by
    rcases kind with fresh | known
    · exact fresh ▸ aside.larger
    · exact (aside.numbered list known).1
  have mono : ∀ other, foreign other → foreign other ∨ other = list := fun _ known => .inl known
  have held : ∀ branch ∈ grown'.children list, Foreign (fun other => foreign other ∨ other = list) branch := by
    intro branch member
    have contributed := Array.mem_toList_iff.2 member
    rw [listed] at contributed
    exact (aside.foreign_contribution own contributed).mono mono
  refine ⟨fun other => foreign other ∨ other = list, ⟨Nat.le_trans aside.larger larger, ?_, ?_, ?_, ?_, ?_⟩⟩
  · intro other known
    rcases known with known | rfl
    · obtain ⟨bound, less⟩ := aside.numbered other known
      exact ⟨bound, Nat.lt_of_lt_of_le less larger⟩
    · exact ⟨beyond, inside⟩
  · intro other known branch member
    by_cases same : other = list
    · subst same
      exact held branch member
    · rcases known with known | equal
      · rw [others other same] at member
        exact (aside.closed other known branch member).mono mono
      · exact absurd equal same
  · intro value member
    rcases List.mem_append.1 member with old | new
    · exact (aside.upper value (List.mem_append_left _ old)).mono mono
    · rw [List.mem_singleton.1 new]
      rcases grown'.settle_eq_or transparent production.origin list with same | ⟨-, only⟩
      · rw [same]
        exact .inr rfl
      · apply held
        rw [← Array.mem_toList_iff, only]
        exact List.mem_singleton.2 rfl
  · intro inlined rule other same
    obtain ⟨less, apart, place⟩ := aside.base inlined rule other same
    refine ⟨Nat.lt_of_lt_of_le less larger, ?_, place⟩
    intro known
    rcases known with known | rfl
    · exact apart known
    · rcases kind with fresh | known
      · omega
      · exact apart known
  · intro other less
    obtain ⟨added, split, fine, place⟩ := aside.changed other less
    rw [others other (by omega)]
    exact ⟨added, split, fun branch member => (fine branch member).mono mono, place⟩

/-- A reduction that takes the base takes all above it.  It may append to the list of the base, and
to no other. -/
theorem Aside.reduce_base {taken : List (String × Branch)}
    (aside : Aside forest top foreign grown base upper)
    (split : production.symbols.zip branches = taken ++ base :: upper)
    (spared : taken = [] ∨ appendedTo? (production.symbols.zip branches) = none)
    (kept : isInlined production.origin = true → transparent.contains production.origin = false) :
    Aside forest top foreign (grown.reduce transparent production branches).1
      (production.origin, (grown.reduce transparent production branches).2) [] := by
  obtain ⟨grown', list, assembled, listed, inside, larger, others, gathered⟩ :=
    exists_assembled fitting
  rw [reduce_eq fitting.gatherable, assembled]
  generalize production.symbols.zip branches = values at *
  simp only
  -- the list is new, or the base alone is appended to
  have kind : list = grown.lists.size ∨
      taken = [] ∧ isInlined base.1 = true ∧ ∃ rule, base.2 = .node rule list := by
    rcases gathered with fresh | ⟨symbol, rule, rest, first, inlined⟩
    · exact .inl fresh
    · right
      rw [first] at split spared
      rcases List.cons_eq_append_iff.1 split with ⟨rfl, same⟩ | ⟨front, rfl, rfl⟩
      · obtain ⟨rfl, -⟩ := List.cons.inj same
        exact ⟨rfl, inlined, rule, rfl⟩
      · rcases spared with empty | none
        · cases empty
        · cases front <;> simp [appendedTo?, inlined] at none
  have place : ¬foreign list ∧ (forest.lists.size ≤ list ∨ ∃ label, top = .node label list) := by
    rcases kind with fresh | ⟨-, inlined, rule, same⟩
    · refine ⟨?_, .inl (fresh ▸ aside.larger)⟩
      intro known
      have less := (aside.numbered list known).2
      omega
    · exact (aside.base inlined rule list same).2
  refine ⟨Nat.le_trans aside.larger larger, ?_, ?_, by simp, ?_, ?_⟩
  · intro other known
    obtain ⟨bound, less⟩ := aside.numbered other known
    exact ⟨bound, Nat.lt_of_lt_of_le less larger⟩
  · intro other known branch member
    have different : other ≠ list := fun same => place.1 (same ▸ known)
    rw [others other different] at member
    exact aside.closed other known branch member
  · intro inlined rule other same
    rcases grown'.settle_eq_or transparent production.origin list with node | ⟨collapsed, -⟩
    · simp only at same
      rw [node] at same
      obtain ⟨rfl, rfl⟩ := Branch.node.inj same
      exact ⟨inside, place⟩
    · rw [kept inlined] at collapsed
      cases collapsed
  · intro other less
    obtain ⟨added, before, fine, where_⟩ := aside.changed other less
    by_cases same : other = list
    · subst same
      have notNew : other ≠ grown.lists.size := by
        have bound := aside.larger
        omega
      obtain ⟨rfl, inlined, rule, node⟩ := kind.resolve_left notNew
      have label := place.2.resolve_left (by omega)
      refine ⟨added ++ upper.flatMap grown.contribution, ?_, ?_, .inr label⟩
      · rcases base with ⟨symbol, value⟩
        simp only at node inlined
        subst node
        rw [listed, split, List.nil_append, List.flatMap_cons, contribution, if_pos inlined, before,
          List.append_assoc]
      · intro branch member
        rcases List.mem_append.1 member with old | new
        · exact fine branch old
        · exact aside.foreign_contribution aside.upper new
    · rw [others other same]
      exact ⟨added, before, fine, where_⟩

end Reduced

namespace Aside

variable (aside : Aside forest top foreign grown base upper)

include aside

theorem foreign_of_reaches (reaches : grown.Reaches branch target)
    (own : Foreign foreign branch) : foreign target := by
  induction reaches with
  | here => exact own
  | child member _ ih => exact ih (aside.closed _ own _ member)

theorem indices_of_foreign (own : Foreign foreign branch) : grown.indices branch = [] := by
  rw [indices, List.filterMap_eq_nil_iff]
  intro terminal member
  rcases mem_leaves_unfold member with rfl | ⟨list, reaches, held⟩
  · exact own
  · exact aside.closed list (aside.foreign_of_reaches reaches own) _ held

/-- What was below a value of the parser still is, and nothing else of the parser is. -/
theorem reaches_cases (leveled : Leveled level forest) (reaches : grown.Reaches branch target)
    (numbered : ∀ rule list, branch = .node rule list → list < forest.lists.size) :
    forest.Reaches branch target ∨ foreign target := by
  induction reaches with
  | here => exact .inl .here
  | @child rule list target inner member reaches ih =>
      obtain ⟨added, split, fine, -⟩ := aside.changed list (numbered rule list rfl)
      rw [← Array.mem_toList_iff, split, List.mem_append] at member
      rcases member with old | new
      · have held := Array.mem_toList_iff.1 old
        have inside : ∀ label child, inner = .node label child → child < forest.lists.size := by
          intro label child same
          subst same
          exact (leveled _ _ _ held).1
        exact (ih inside).imp_left (.child held)
      · exact .inr (aside.foreign_of_reaches reaches (fine inner new))

theorem children_eq {list : Nat} (inside : list < forest.lists.size)
    (different : ∀ label, top ≠ .node label list) : grown.children list = forest.children list := by
  obtain ⟨added, split, -, place⟩ := aside.changed list inside
  rcases place with rfl | ⟨label, same⟩
  · rw [List.append_nil] at split
    exact Array.toList_inj.1 split
  · exact absurd same (different label)

section Kept

variable (leveled : Leveled level forest) {front : List (String × Branch)} {symbol : String}
  (fits : RowFits level forest 0 (front ++ [(symbol, top)]))
  (unshared : forest.Unshared (front ++ [(symbol, top)]))

include leveled fits unshared

theorem children_eq_of_reaches {value : String × Branch} (member : value ∈ front) {list : Nat}
    (reaches : forest.Reaches value.2 list) : grown.children list = forest.children list := by
  obtain ⟨_, -, fit⟩ := exists_fits_of_mem fits (List.mem_append_left _ member)
  apply aside.children_eq (leveled.lt_size_of_reaches fit reaches)
  intro label same
  have apart := (List.pairwise_append.1 unshared).2.2 value member _ List.mem_cons_self
  apply apart list reaches
  simp only
  rw [same]
  exact .here

/-- A trial that has kept to itself leaves the parser with values that share nothing. -/
theorem unshared_row : grown.Unshared (front ++ [(symbol, top)]) := by
  obtain ⟨frontApart, -, apart⟩ := List.pairwise_append.1 unshared
  have agree : ∀ value ∈ front, ∀ list, forest.Reaches value.2 list →
      grown.children list = forest.children list :=
    fun value member list => aside.children_eq_of_reaches leveled fits unshared member
  refine List.pairwise_append.2 ⟨unshared_congr frontApart agree, List.pairwise_singleton _ _, ?_⟩
  intro value member last listed list reached also
  obtain rfl := List.mem_singleton.1 listed
  have before := reached.congr (agree value member)
  obtain ⟨_, -, fit⟩ := exists_fits_of_mem fits (List.mem_append_left _ member)
  obtain ⟨_, -, topFits⟩ := exists_fits_of_mem fits (List.mem_append_right front List.mem_cons_self)
  have numbered : ∀ rule list, top = .node rule list → list < forest.lists.size := by
    intro rule list same
    simp only [same] at topFits
    exact topFits.1
  rcases aside.reaches_cases leveled also numbered with below | known
  · exact apart value member _ List.mem_cons_self list before below
  · have bound := leveled.lt_size_of_reaches fit before
    have beyond := (aside.numbered list known).1
    omega

theorem indices_top (leveled' : Leveled level' grown) : grown.indices top = forest.indices top := by
  obtain ⟨_, -, topFits⟩ := exists_fits_of_mem fits (List.mem_append_right front List.mem_cons_self)
  cases top with
  | leaf terminal => simp
  | node rule list =>
      obtain ⟨added, split, fine, -⟩ := aside.changed list topFits.1
      have old : (forest.children list).toList.flatMap grown.yield =
          (forest.children list).toList.flatMap forest.yield := by
        apply List.flatMap_congr
        intro child member
        have held := Array.mem_toList_iff.1 member
        have below : ∀ target, forest.Reaches child target → target < forest.lists.size :=
          fun target reaches => leveled.lt_size_of_reaches topFits (.child held reaches)
        rw [yield, yield, leveled.tree_congr aside.larger below]
        intro target reaches
        apply aside.children_eq (below target reaches)
        intro label same
        obtain ⟨-, rfl⟩ := Branch.node.inj same
        exact not_deeper_self level _ (leveled.deeper_of_reaches held reaches)
      have new : (added.flatMap grown.yield).filterMap Leaf.index? = [] := by
        rw [List.filterMap_flatMap, List.flatMap_eq_nil_iff]
        intro child member
        exact aside.indices_of_foreign (fine child member)
      rw [indices, indices, leveled'.yield_node, leveled.yield_node, split, List.flatMap_append,
        List.filterMap_append, old, new, List.append_nil]

theorem rowIndices_eq (leveled' : Leveled level' grown) :
    grown.rowIndices (front ++ [(symbol, top)]) = forest.rowIndices (front ++ [(symbol, top)]) := by
  rw [rowIndices_append, rowIndices_append, rowIndices_singleton, rowIndices_singleton,
    aside.indices_top leveled fits unshared leveled',
    rowIndices_congr leveled (rowFits_append.1 fits).1 aside.larger]
  intro value member list
  exact aside.children_eq_of_reaches leveled fits unshared member

end Kept

end Aside

/-- A reduction that appends tokens to the list of a value in a row multiplies the tokens of the
row. -/
theorem length_rowIndices_lt {transparent : List String} {production : Production}
    {branches : List Branch} {symbol rule : String} {list : Nat} {row rest : List (String × Branch)}
    (leveled : Leveled level grown)
    (fitting : RowFits level grown height (production.symbols.zip branches))
    (split : production.symbols.zip branches = (symbol, .node rule list) :: rest)
    (inlined : isInlined symbol = true) (gained : grown.rowIndices rest ≠ [])
    (member : (symbol, .node rule list) ∈ row) :
    (grown.rowIndices row).length <
      ((grown.reduce transparent production branches).1.rowIndices row).length := by
  have extended : grown.Extends (grown.reduce transparent production branches).1 :=
    (growth_reduce fitting).extended
  have list_eq : (grown.assemble (production.symbols.zip branches)).2 = list := by
    rw [split, assemble, if_pos inlined]
  have grows : (grown.reduce transparent production branches).1.indices (.node rule list) =
      grown.indices (.node rule list) ++ grown.rowIndices rest := by
    have yielded := yield_assemble leveled fitting rule
    rw [list_eq, split, List.flatMap_cons] at yielded
    rw [reduce_eq fitting.gatherable, split, indices, yielded, List.filterMap_append,
      List.filterMap_flatMap]
    rfl
  obtain ⟨before, after, rfl⟩ := List.append_of_mem member
  have lower := (sublist_rowIndices extended before).length_le
  have upper := (sublist_rowIndices extended after).length_le
  have positive := List.length_pos_iff.2 gained
  have cons : ∀ forest : Forest, (forest.rowIndices (before ++ (symbol, .node rule list) :: after)).length =
      (forest.rowIndices before).length + ((forest.indices (.node rule list)).length +
        (forest.rowIndices after).length) := by
    intro forest
    simp [rowIndices]
  rw [cons, cons, grows, List.length_append]
  omega

end Typeahead.Forest
