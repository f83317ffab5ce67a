import Typeahead.Proofs.Forest.Leading

namespace Typeahead.Forest

/-!
What reductions carry along in a row of values: no token below the row is lost, no token comes from
elsewhere, and where no two values share a list the tokens stay as they are.
-/

variable {level level' : Nat → Nat} {forest grown : Forest} {list : Nat}
  {row below : List (String × Branch)}

/-- The stream positions of the tokens below the values of a row. -/
def rowIndices (forest : Forest) (row : List (String × Branch)) : List Nat :=
  row.flatMap fun value => forest.indices value.2

@[simp]
theorem rowIndices_append (forest : Forest) (first second : List (String × Branch)) :
    forest.rowIndices (first ++ second) = forest.rowIndices first ++ forest.rowIndices second := by
  simp [rowIndices]

theorem rowIndices_singleton (forest : Forest) (symbol : String) (branch : Branch) :
    forest.rowIndices [(symbol, branch)] = forest.indices branch := by
  simp [rowIndices]

/-- No list is below two values of the row. -/
def Unshared (forest : Forest) (row : List (String × Branch)) : Prop :=
  row.Pairwise fun first second =>
    ∀ list, forest.Reaches first.2 list → ¬forest.Reaches second.2 list

/-- The tokens in the lists and in the row are allowed. -/
def Within (allowed : Nat → Prop) (forest : Forest) (row : List (String × Branch)) : Prop :=
  (∀ list index, .leaf (.token index) ∈ forest.children list → allowed index) ∧
    ∀ symbol index, (symbol, .leaf (.token index)) ∈ row → allowed index

theorem Within.of_mem_rowIndices {allowed : Nat → Prop} (within : Within allowed forest row)
    (leveled : Leveled level forest) {index : Nat} (member : index ∈ forest.rowIndices row) :
    allowed index := by
  obtain ⟨⟨symbol, branch⟩, inside, listed⟩ := List.mem_flatMap.1 member
  obtain ⟨terminal, leaf, same⟩ := List.mem_filterMap.1 listed
  cases terminal with
  | conjured name before => cases same
  | token other =>
      obtain rfl : other = index := Option.some.inj same
      rcases leveled.mem_yield_iff.1 leaf with rfl | ⟨list, -, held⟩
      · exact within.2 symbol _ inside
      · exact within.1 list _ held

/-- The first token that comes onto a stack is in front of all that come later. -/
theorem Within.inFront (within : Within (fun _ => False) forest row)
    (leveled : Leveled level forest) (fits : RowFits level forest 0 row) (symbol : String)
    (first : Nat) : InFront first forest (row ++ [(symbol, .leaf (.token first))]) :=
  inFront_leaf leveled fits within.1 within.2 symbol first

/-- There is a token below the last value of the row. -/
def Holds (forest : Forest) (row : List (String × Branch)) : Prop :=
  ∀ value, row.getLast? = some value → forest.indices value.2 ≠ []

theorem exists_of_appendedTo? (appended : appendedTo? row = some list) :
    ∃ symbol rule rest, row = (symbol, .node rule list) :: rest := by
  match row with
  | (symbol, .node rule first) :: second :: rest =>
      simp only [appendedTo?, Option.ite_none_right_eq_some, Option.some.injEq] at appended
      obtain ⟨-, rfl⟩ := appended
      exact ⟨symbol, rule, second :: rest, rfl⟩

/-- How the rows before and after reductions compare. -/
structure Carried (level : Nat → Nat) (forest : Forest) (row : List (String × Branch))
    (level' : Nat → Nat) (grown : Forest) (row' : List (String × Branch)) : Prop where
  growth : Growth level forest level' grown
  leveled : Leveled level' grown
  fits : RowFits level' grown 0 row'
  indices : (forest.rowIndices row).Sublist (grown.rowIndices row')
  unshared : forest.Unshared row →
    grown.Unshared row' ∧ grown.rowIndices row' = forest.rowIndices row
  within : ∀ allowed, Within allowed forest row → Within allowed grown row'
  front : KeepsFront [] forest row grown row'

namespace Carried

theorem refl (leveled : Leveled level forest) (fits : RowFits level forest 0 row) :
    Carried level forest row level forest row where
  growth := .refl level forest
  leveled := leveled
  fits := fits
  indices := List.Sublist.refl _
  unshared := fun unshared => ⟨unshared, rfl⟩
  within := fun _ within => within
  front := .refl forest row

theorem trans {level'' : Nat → Nat} {last : Forest} {row' row'' : List (String × Branch)}
    (first : Carried level forest row level' grown row')
    (second : Carried level' grown row' level'' last row'') :
    Carried level forest row level'' last row'' where
  growth := first.growth.trans second.growth
  leveled := second.leveled
  fits := second.fits
  indices := first.indices.trans second.indices
  unshared := by
    intro unshared
    obtain ⟨middle, same⟩ := first.unshared unshared
    obtain ⟨end_, same'⟩ := second.unshared middle
    exact ⟨end_, same'.trans same⟩
  within := fun allowed within => second.within allowed (first.within allowed within)
  front := first.front.trans second.front

end Carried

theorem sublist_rowIndices (extended : forest.Extends grown) (row : List (String × Branch)) :
    (forest.rowIndices row).Sublist (grown.rowIndices row) := by
  induction row with
  | nil => exact List.Sublist.slnil
  | cons value rest ih => exact (extended.indices_sublist value.2).append ih

theorem rowIndices_congr (leveled : Leveled level forest) (fits : RowFits level forest 0 row)
    (larger : forest.lists.size ≤ grown.lists.size)
    (agree : ∀ value ∈ row, ∀ list, forest.Reaches value.2 list →
      grown.children list = forest.children list) :
    grown.rowIndices row = forest.rowIndices row := by
  apply List.flatMap_congr
  intro value member
  obtain ⟨above, -, fit⟩ := exists_fits_of_mem fits member
  rw [indices, indices, yield, yield, leveled.tree_congr larger
    (fun list reaches => leveled.lt_size_of_reaches fit reaches) (agree value member)]

theorem unshared_congr (unshared : forest.Unshared row)
    (agree : ∀ value ∈ row, ∀ list, forest.Reaches value.2 list →
      grown.children list = forest.children list) : grown.Unshared row := by
  refine List.Pairwise.imp_of_mem ?_ unshared
  intro first second firstMember secondMember apart list reached also
  exact apart list (reached.congr (agree first firstMember))
    (also.congr (agree second secondMember))

section Reduced

variable {transparent : List String} {production : Production} {branches : List Branch}
  (leveled : Leveled level forest)
  (fitting : RowFits level forest 0 (below ++ production.symbols.zip branches))

include leveled fitting

theorem indices_reduce : (forest.reduce transparent production branches).1.indices
    (forest.reduce transparent production branches).2 =
      forest.rowIndices (production.symbols.zip branches) := by
  obtain ⟨-, taken⟩ := rowFits_append.1 fitting
  rw [indices, yield_reduce leveled taken, List.filterMap_flatMap]
  rfl

theorem holds_reduce (nonempty : production.symbols ≠ [])
    (sized : branches.length = production.symbols.length)
    (holds : forest.Holds (below ++ production.symbols.zip branches)) :
    (forest.reduce transparent production branches).1.Holds
      (below ++ [(production.origin, (forest.reduce transparent production branches).2)]) := by
  intro value last
  obtain rfl : (production.origin, (forest.reduce transparent production branches).2) = value := by
    simpa using last
  have filled : production.symbols.zip branches ≠ [] := by
    rw [← List.length_pos_iff] at nonempty ⊢
    rw [List.length_zip]
    omega
  obtain ⟨front, top, split⟩ := (List.eq_nil_or_concat _).resolve_left filled
  rw [List.concat_eq_append] at split
  rw [indices_reduce leveled fitting, split, rowIndices_append, rowIndices_singleton]
  intro empty
  refine holds top ?_ (List.append_eq_nil_iff.1 empty).2
  simp [split]

/-- Where nothing is shared, a reduction does not touch what is below the rest of the row. -/
theorem children_reduce_of_unshared
    (unshared : forest.Unshared (below ++ production.symbols.zip branches))
    {value : String × Branch} (member : value ∈ below) (reaches : forest.Reaches value.2 list) :
    (forest.reduce transparent production branches).1.children list = forest.children list := by
  obtain ⟨rest, taken⟩ := rowFits_append.1 fitting
  obtain ⟨above, -, fit⟩ := exists_fits_of_mem rest member
  apply children_reduce taken (leveled.lt_size_of_reaches fit reaches)
  intro appended
  obtain ⟨symbol, rule, later, split⟩ := exists_of_appendedTo? appended
  rw [split] at unshared
  exact (List.pairwise_append.1 unshared).2.2 value member _ List.mem_cons_self list reaches .here

theorem unshared_reduce (unshared : forest.Unshared (below ++ production.symbols.zip branches)) :
    (forest.reduce transparent production branches).1.Unshared
      (below ++ [(production.origin, (forest.reduce transparent production branches).2)]) := by
  obtain ⟨rest, taken⟩ := rowFits_append.1 fitting
  obtain ⟨belowApart, -, apart⟩ := List.pairwise_append.1 unshared
  have agree : ∀ value ∈ below, ∀ list, forest.Reaches value.2 list →
      (forest.reduce transparent production branches).1.children list = forest.children list :=
    fun value member list => children_reduce_of_unshared leveled fitting unshared member
  refine List.pairwise_append.2 ⟨unshared_congr belowApart agree, List.pairwise_singleton _ _, ?_⟩
  intro value member new listed list reached also
  rw [List.mem_singleton.1 listed] at also
  have before := reached.congr (agree value member)
  rcases reaches_reduce leveled taken also with fresh | ⟨other, inside, otherReaches⟩
  · obtain ⟨above, -, fit⟩ := exists_fits_of_mem rest member
    have bound := leveled.lt_size_of_reaches fit before
    omega
  · exact apart value member other inside list before otherReaches

omit leveled in
theorem mem_children_reduce {branch : Branch}
    (member : branch ∈ (forest.reduce transparent production branches).1.children list) :
    (∃ other, branch ∈ forest.children other) ∨
      ∃ value ∈ production.symbols.zip branches, branch = value.2 := by
  obtain ⟨-, taken⟩ := rowFits_append.1 fitting
  rw [reduce_eq taken.gatherable] at member
  by_cases gathered : list = (forest.assemble (production.symbols.zip branches)).2
  · have listed := Array.mem_toList_iff.2 member
    rw [gathered, children_assemble taken] at listed
    obtain ⟨value, inside, contributed⟩ := List.mem_flatMap.1 listed
    rcases mem_contribution contributed with same | ⟨rule, other, -, -, held⟩
    · exact .inr ⟨value, inside, same⟩
    · exact .inl ⟨other, held⟩
  · rw [children_assemble_of_ne taken gathered] at member
    exact .inl ⟨list, member⟩

omit leveled in
theorem within_reduce {allowed : Nat → Prop}
    (within : Within allowed forest (below ++ production.symbols.zip branches)) :
    Within allowed (forest.reduce transparent production branches).1
      (below ++ [(production.origin, (forest.reduce transparent production branches).2)]) := by
  have lists : ∀ list index, .leaf (.token index) ∈
      (forest.reduce transparent production branches).1.children list → allowed index := by
    intro list index member
    rcases mem_children_reduce fitting member with ⟨other, held⟩ | ⟨⟨symbol, branch⟩, inside, same⟩
    · exact within.1 other index held
    · subst same
      exact within.2 symbol index (List.mem_append_right _ inside)
  refine ⟨lists, ?_⟩
  intro symbol index member
  rcases List.mem_append.1 member with old | new
  · exact within.2 symbol index (List.mem_append_left _ old)
  · obtain ⟨-, taken⟩ := rowFits_append.1 fitting
    have value : .leaf (.token index) = (forest.reduce transparent production branches).2 :=
      congrArg Prod.snd (List.mem_singleton.1 new)
    rw [reduce_eq taken.gatherable] at value lists
    rcases (forest.assemble (production.symbols.zip branches)).1.settle_eq_or transparent
        production.origin (forest.assemble (production.symbols.zip branches)).2 with
      same | ⟨-, only⟩
    · rw [same] at value
      cases value
    · apply lists (forest.assemble (production.symbols.zip branches)).2
      rw [← Array.mem_toList_iff, only]
      exact List.mem_singleton.2 value

theorem carried_reduce (sized : branches.length = production.symbols.length)
    (inlinable : isInlined production.origin = true →
      production.symbols ≠ [] ∧ transparent.contains production.origin = false) :
    Carried level forest (below ++ production.symbols.zip branches)
      (raised level forest below.length) (forest.reduce transparent production branches).1
      (below ++ [(production.origin, (forest.reduce transparent production branches).2)]) := by
  obtain ⟨rest, taken⟩ := rowFits_append.1 fitting
  rw [Nat.zero_add] at taken
  have growth : Growth level forest (raised level forest below.length)
      (forest.reduce transparent production branches).1 := growth_reduce taken
  refine ⟨growth, leveled_reduce leveled taken, ?_, ?_, ?_, fun _ => within_reduce fitting,
    fun _ _ _ _ leading led => leading.reduce taken led⟩
  · refine rowFits_append.2 ⟨growth.rowFits rest, ?_, trivial⟩
    rw [Nat.zero_add]
    exact fits_reduce leveled taken sized inlinable
  · rw [rowIndices_append, rowIndices_append, rowIndices_singleton,
      indices_reduce leveled fitting]
    exact (sublist_rowIndices growth.extended below).append (List.Sublist.refl _)
  · intro unshared
    refine ⟨unshared_reduce leveled fitting unshared, ?_⟩
    rw [rowIndices_append, rowIndices_append, rowIndices_singleton,
      indices_reduce leveled fitting, rowIndices_congr leveled rest growth.extended.size_le]
    intro value member list
    exact children_reduce_of_unshared leveled fitting unshared member

end Reduced

section Leaf

variable (symbol : String) (terminal : Leaf)

theorem rowFits_leaf (fits : RowFits level forest 0 row) :
    RowFits level forest 0 (row ++ [(symbol, .leaf terminal)]) :=
  rowFits_append.2 ⟨fits, trivial, trivial⟩

theorem rowIndices_leaf (forest : Forest) (row : List (String × Branch)) :
    forest.rowIndices (row ++ [(symbol, .leaf terminal)]) =
      forest.rowIndices row ++ terminal.index?.toList := by
  rw [rowIndices_append, rowIndices_singleton, indices_leaf]

theorem unshared_leaf (unshared : forest.Unshared row) :
    forest.Unshared (row ++ [(symbol, .leaf terminal)]) := by
  refine List.pairwise_append.2 ⟨unshared, List.pairwise_singleton _ _, ?_⟩
  intro value _ new listed list _ reached
  rw [List.mem_singleton.1 listed] at reached
  cases reached

theorem within_leaf {allowed : Nat → Prop} (within : Within allowed forest row)
    (fine : ∀ index, terminal = .token index → allowed index) :
    Within allowed forest (row ++ [(symbol, .leaf terminal)]) := by
  refine ⟨within.1, ?_⟩
  intro name index member
  rcases List.mem_append.1 member with old | new
  · exact within.2 name index old
  · have same := congrArg Prod.snd (List.mem_singleton.1 new)
    exact fine index (Branch.leaf.inj same).symm

/-- A terminal that was made up adds no token. -/
theorem Carried.leaf {row' : List (String × Branch)}
    (carried : Carried level forest row level' grown row') (conjured : terminal.index? = none) :
    Carried level forest row level' grown (row' ++ [(symbol, .leaf terminal)]) where
  growth := carried.growth
  leveled := carried.leveled
  fits := rowFits_leaf symbol terminal carried.fits
  indices := by
    rw [rowIndices_leaf, conjured]
    exact carried.indices.trans (List.sublist_append_left _ _)
  unshared := by
    intro unshared
    obtain ⟨apart, same⟩ := carried.unshared unshared
    refine ⟨unshared_leaf symbol terminal apart, ?_⟩
    rw [rowIndices_leaf, conjured, same]
    exact List.append_nil _
  within := by
    intro allowed within
    apply within_leaf symbol terminal (carried.within allowed within)
    intro index same
    rw [same] at conjured
    cases conjured
  front := by
    intro old first later fresh leading led
    obtain ⟨later', fine, leading, led⟩ := carried.front old first later fresh leading led
    exact ⟨later', fine, leading, led.concat_leaf symbol (by simp [conjured])⟩

end Leaf

end Typeahead.Forest
