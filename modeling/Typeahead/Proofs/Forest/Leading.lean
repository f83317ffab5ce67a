import Typeahead.Proofs.Forest.Reduction

namespace Typeahead

/-!
The first token below a row of values.  When it comes onto the stack there is no token in any list,
and all values in front of it are from before it.  A trial may append to the list of such a value,
but what it appends begins with that token: it takes the values from the top, and whatever came in
behind the token holds nothing that was there before.
-/

/-- The branch is one of these terminals, or names one of these lists. -/
def Branch.Made (terminals : Leaf → Prop) (lists : Nat → Prop) : Branch → Prop
  | .leaf terminal => terminals terminal
  | .node _ list => lists list

namespace Forest

/-- A branch that was there when there were `old` lists and no tokens. -/
abbrev Earlier (old : Nat) : Branch → Prop :=
  Branch.Made (fun terminal => terminal.index? = none) (· < old)

/-- A branch that came in behind the token `first`. -/
abbrev Later (first : Nat) (later : Nat → Prop) : Branch → Prop :=
  Branch.Made (fun terminal => terminal.index? ≠ some first) later

/-- Below the branch only earlier branches stand in front of the token `first`. -/
inductive LedBy (forest : Forest) (old first : Nat) : Branch → Prop where
  | leaf : LedBy forest old first (.leaf (.token first))
  | node {rule : String} {list : Nat} {before after : List Branch} {branch : Branch}
      (held : (forest.children list).toList = before ++ branch :: after)
      (earlier : ∀ other ∈ before, Earlier old other) (led : LedBy forest old first branch) :
      LedBy forest old first (.node rule list)

/-- Only earlier branches stand in front of the first that has the token `first` in front. -/
def Begins (forest : Forest) (old first : Nat) (branches : List Branch) : Prop :=
  ∃ before branch after, branches = before ++ branch :: after ∧
    (∀ other ∈ before, Earlier old other) ∧ forest.LedBy old first branch

/-- What earlier lists hold is earlier, or has the token `first` in front, and the lists that came in
behind that token hold nothing else. -/
structure Leading (old first : Nat) (later : Nat → Prop) (forest : Forest) : Prop where
  bound : old ≤ forest.lists.size
  numbered : ∀ list, later list → old ≤ list ∧ list < forest.lists.size
  closed : ∀ list, later list → ∀ branch ∈ forest.children list, Later first later branch
  earlier : ∀ list < old, (∀ branch ∈ forest.children list, Earlier old branch) ∨
    forest.Begins old first (forest.children list).toList

/-- Earlier values stand in a row, then one with the token `first` in front, then later ones. -/
def LedRow (old first : Nat) (later : Nat → Prop) (forest : Forest)
    (row : List (String × Branch)) : Prop :=
  ∃ before value after, row = before ++ value :: after ∧
    (∀ other ∈ before, Earlier old other.2) ∧ forest.LedBy old first value.2 ∧
    ∀ other ∈ after, Later first later other.2

variable {level : Nat → Nat} {forest grown : Forest} {old first height : Nat}
  {later later' : Nat → Prop} {branch : Branch} {branches : List Branch}
  {row values : List (String × Branch)}

theorem head?_append {front rest : List Nat} (quiet : front = [] ∨ front.head? = some first)
    (head : rest.head? = some first) : (front ++ rest).head? = some first := by
  rcases quiet with rfl | same
  · exact head
  · rw [List.head?_append, same]
    rfl

theorem head?_flatMap {α : Type} {part : α → List Nat} {as : List α}
    (each : ∀ a ∈ as, part a = [] ∨ (part a).head? = some first) :
    as.flatMap part = [] ∨ (as.flatMap part).head? = some first := by
  induction as with
  | nil => exact .inl rfl
  | cons a as ih =>
      rw [List.flatMap_cons]
      rcases each a List.mem_cons_self with none | same
      · rw [none]
        exact ih fun other member => each other (List.mem_cons_of_mem _ member)
      · rw [List.head?_append, same]
        exact .inr rfl

theorem Later.mono (fine : ∀ list, later list → later' list) (behind : Later first later branch) :
    Later first later' branch := by
  cases branch with
  | leaf terminal => exact behind
  | node rule list => exact fine list behind

theorem LedBy.mono (extended : forest.Extends grown) (led : forest.LedBy old first branch) :
    grown.LedBy old first branch := by
  induction led with
  | leaf => exact .leaf
  | @node rule list before after branch held earlier _ ih =>
      obtain ⟨added, whole⟩ := extended.children_prefix list
      rw [held, List.append_assoc, List.cons_append] at whole
      exact .node whole.symm earlier ih

theorem Begins.mono (extended : forest.Extends grown) (begins : forest.Begins old first branches) :
    grown.Begins old first branches := by
  obtain ⟨before, branch, after, split, earlier, led⟩ := begins
  exact ⟨before, branch, after, split, earlier, led.mono extended⟩

theorem Begins.append (begins : forest.Begins old first branches) (more : List Branch) :
    forest.Begins old first (branches ++ more) := by
  obtain ⟨before, branch, after, rfl, earlier, led⟩ := begins
  exact ⟨before, branch, after ++ more, by simp, earlier, led⟩

theorem Begins.append_left {front : List Branch} (earlier : ∀ other ∈ front, Earlier old other)
    (begins : forest.Begins old first branches) : forest.Begins old first (front ++ branches) := by
  obtain ⟨before, branch, after, rfl, between, led⟩ := begins
  refine ⟨front ++ before, branch, after, by simp, ?_, led⟩
  intro other member
  exact (List.mem_append.1 member).elim (earlier other) (between other)

theorem begins_singleton_iff : forest.Begins old first [branch] ↔ forest.LedBy old first branch := by
  constructor
  · intro begins
    obtain ⟨before, other, after, split, -, led⟩ := begins
    rcases List.cons_eq_append_iff.1 split with ⟨rfl, same⟩ | ⟨rest, rfl, none⟩
    · rwa [(List.cons.inj same).1] at led
    · simp at none
  · exact fun led => ⟨[], branch, [], rfl, by simp, led⟩

theorem ledBy_node_iff {rule : String} {list : Nat} : forest.LedBy old first (.node rule list) ↔
    forest.Begins old first (forest.children list).toList := by
  constructor
  · intro led
    cases led with
    | node held earlier led => exact ⟨_, _, _, held, earlier, led⟩
  · intro begins
    obtain ⟨before, branch, after, held, earlier, led⟩ := begins
    exact .node held earlier led

theorem LedRow.mono (extended : forest.Extends grown) (fine : ∀ list, later list → later' list)
    (led : LedRow old first later forest row) : LedRow old first later' grown row := by
  obtain ⟨before, value, after, split, earlier, front, behind⟩ := led
  exact ⟨before, value, after, split, earlier, front.mono extended,
    fun other member => (behind other member).mono fine⟩

theorem LedRow.concat_leaf (led : LedRow old first later forest row) (symbol : String)
    {terminal : Leaf} (other : terminal.index? ≠ some first) :
    LedRow old first later forest (row ++ [(symbol, .leaf terminal)]) := by
  obtain ⟨before, value, after, rfl, earlier, front, behind⟩ := led
  refine ⟨before, value, after ++ [(symbol, .leaf terminal)], by simp, earlier, front, ?_⟩
  intro next member
  rcases List.mem_append.1 member with inside | last
  · exact behind next inside
  · rw [List.mem_singleton.1 last]
    exact other

namespace Leading

variable (leading : Leading old first later forest)

include leading

/-- The lists that came in behind the token do not have it. -/
theorem not_later (led : forest.LedBy old first branch) : ¬Later first later branch := by
  induction led with
  | leaf => exact fun behind => behind rfl
  | @node rule list before after branch held _ _ ih =>
      intro behind
      refine ih (leading.closed list behind branch ?_)
      rw [← Array.mem_toList_iff, held]
      exact List.mem_append_right before List.mem_cons_self

theorem later_contribution (behind : ∀ value ∈ values, Later first later value.2)
    (member : branch ∈ values.flatMap forest.contribution) : Later first later branch := by
  obtain ⟨value, inside, contributed⟩ := List.mem_flatMap.1 member
  have own := behind value inside
  rcases mem_contribution contributed with rfl | ⟨rule, list, same, -, held⟩
  · exact own
  · rw [same] at own
    exact leading.closed list own branch held

/-- What earlier values and one with the token in front contribute has the token in front. -/
theorem begins_contributions {before after : List (String × Branch)} {value : String × Branch}
    (earlier : ∀ other ∈ before, Earlier old other.2) (led : forest.LedBy old first value.2) :
    forest.Begins old first ((before ++ value :: after).flatMap forest.contribution) := by
  induction before with
  | nil =>
      rw [List.nil_append, List.flatMap_cons]
      apply Begins.append
      rcases value with ⟨symbol, value⟩
      cases value with
      | leaf terminal => exact begins_singleton_iff.2 led
      | node rule list =>
          rw [contribution]
          split
          · exact ledBy_node_iff.1 led
          · exact begins_singleton_iff.2 led
  | cons head before ih =>
      have rest := ih fun other member => earlier other (List.mem_cons_of_mem _ member)
      have own := earlier head List.mem_cons_self
      rw [List.cons_append, List.flatMap_cons]
      rcases head with ⟨symbol, head⟩
      have plain : ∀ branch, Earlier old branch →
          forest.Begins old first ([branch] ++ (before ++ value :: after).flatMap forest.contribution) := by
        intro branch own
        exact rest.append_left fun other member => List.mem_singleton.1 member ▸ own
      cases head with
      | leaf terminal => exact plain _ own
      | node rule list =>
          rw [contribution]
          split
          · rcases leading.earlier list own with all | begins
            · exact rest.append_left fun other member => all other (Array.mem_toList_iff.1 member)
            · exact begins.append _
          · exact plain _ own

section Reduced

variable {transparent : List String} {production : Production} {values : List Branch}
  (fitting : RowFits level forest height (production.symbols.zip values))

include fitting

/-- A reduction behind the token makes a list that came in behind it. -/
theorem reduce_later (behind : ∀ value ∈ production.symbols.zip values, Later first later value.2) :
    ∃ later', (∀ list, later list → later' list) ∧
      Leading old first later' (forest.reduce transparent production values).1 ∧
      Later first later' (forest.reduce transparent production values).2 := by
  have extended : forest.Extends (forest.assemble (production.symbols.zip values)).1 :=
    extends_assemble fitting
  obtain ⟨grown, list, assembled, listed, inside, larger, others, gathered⟩ :=
    exists_assembled fitting
  rw [reduce_eq fitting.gatherable]
  rw [assembled] at extended ⊢
  have kind : list = forest.lists.size ∨ later list := by
    refine gathered.imp_right fun given => ?_
    obtain ⟨symbol, rule, rest, split, -⟩ := given
    exact behind (symbol, .node rule list) (split ▸ List.mem_cons_self)
  have beyond : old ≤ list := by
    rcases kind with fresh | known
    · exact fresh ▸ leading.bound
    · exact (leading.numbered list known).1
  have fine : ∀ other, later other → later other ∨ other = list := fun _ known => .inl known
  have held : ∀ branch ∈ grown.children list,
      Later first (fun other => later other ∨ other = list) branch := by
    intro branch member
    have contributed := Array.mem_toList_iff.2 member
    rw [listed] at contributed
    exact (leading.later_contribution behind contributed).mono fine
  refine ⟨fun other => later other ∨ other = list, fine, ⟨?_, ?_, ?_, ?_⟩, ?_⟩
  · exact Nat.le_trans leading.bound larger
  · intro other known
    rcases known with known | rfl
    · obtain ⟨above, less⟩ := leading.numbered other known
      exact ⟨above, Nat.lt_of_lt_of_le less larger⟩
    · exact ⟨beyond, inside⟩
  · intro other known branch member
    by_cases same : other = list
    · exact held branch (same ▸ member)
    · rw [others other same] at member
      exact (leading.closed other (known.resolve_right same) branch member).mono fine
  · intro other less
    rw [others other (Nat.ne_of_lt (Nat.lt_of_lt_of_le less beyond))]
    exact (leading.earlier other less).imp_right fun begins => begins.mono extended
  · rcases grown.settle_eq_or transparent production.origin list with same | ⟨-, only⟩
    · rw [same]
      exact .inr rfl
    · apply held
      rw [← Array.mem_toList_iff, only]
      exact List.mem_singleton.2 rfl

/-- A reduction that takes the value with the token in front makes another one. -/
theorem reduce_led {before after : List (String × Branch)} {value : String × Branch}
    (split : production.symbols.zip values = before ++ value :: after)
    (earlier : ∀ other ∈ before, Earlier old other.2) (led : forest.LedBy old first value.2) :
    Leading old first later (forest.reduce transparent production values).1 ∧
      (forest.reduce transparent production values).1.LedBy old first
        (forest.reduce transparent production values).2 := by
  have extended : forest.Extends (forest.assemble (production.symbols.zip values)).1 :=
    extends_assemble fitting
  have contributed : forest.Begins old first
      ((before ++ value :: after).flatMap forest.contribution) :=
    leading.begins_contributions earlier led
  obtain ⟨grown, list, assembled, listed, inside, larger, others, gathered⟩ :=
    exists_assembled fitting
  rw [reduce_eq fitting.gatherable]
  rw [assembled] at extended ⊢
  rw [← split, ← listed] at contributed
  have begins : grown.Begins old first (grown.children list).toList := contributed.mono extended
  have apart : ¬later list := by
    intro known
    obtain ⟨above, less⟩ := leading.numbered list known
    rcases gathered with rfl | ⟨symbol, rule, rest, same, -⟩
    · exact Nat.lt_irrefl _ less
    · rw [split] at same
      cases before with
      | nil =>
          obtain ⟨rfl, -⟩ := List.cons.inj same
          exact leading.not_later led known
      | cons head before =>
          obtain ⟨rfl, -⟩ := List.cons.inj same
          have early : list < old := earlier (symbol, .node rule list) List.mem_cons_self
          omega
  refine ⟨⟨Nat.le_trans leading.bound larger, ?_, ?_, ?_⟩, ?_⟩
  · intro other known
    obtain ⟨above, less⟩ := leading.numbered other known
    exact ⟨above, Nat.lt_of_lt_of_le less larger⟩
  · intro other known branch member
    have different : other ≠ list := fun same => apart (same ▸ known)
    rw [others other different] at member
    exact leading.closed other known branch member
  · intro other less
    by_cases same : other = list
    · exact .inr (same ▸ begins)
    · rw [others other same]
      exact (leading.earlier other less).imp_right fun begins => begins.mono extended
  · rcases grown.settle_eq_or transparent production.origin list with same | ⟨-, only⟩
    · rw [same]
      exact ledBy_node_iff.2 begins
    · rw [only] at begins
      exact begins_singleton_iff.1 begins

/-- A reduction keeps the token in front of the row. -/
theorem reduce {below : List (String × Branch)}
    (led : LedRow old first later forest (below ++ production.symbols.zip values)) :
    ∃ later', (∀ list, later list → later' list) ∧
      Leading old first later' (forest.reduce transparent production values).1 ∧
      LedRow old first later' (forest.reduce transparent production values).1
        (below ++ [(production.origin, (forest.reduce transparent production values).2)]) := by
  have extended : forest.Extends (forest.reduce transparent production values).1 :=
    (growth_reduce fitting).extended
  obtain ⟨before, value, after, split, earlier, front, behind⟩ := led
  rcases List.append_eq_append_iff.1 split with ⟨between, rfl, same⟩ | ⟨between, rfl, same⟩
  · -- the production takes the value with the token in front
    obtain ⟨kept, made⟩ := leading.reduce_led fitting same
      (fun other member => earlier other (List.mem_append_right _ member)) front
    refine ⟨later, fun _ known => known, kept, below, _, [], rfl, ?_, made, by simp⟩
    exact fun other member => earlier other (List.mem_append_left _ member)
  · cases between with
    | nil =>
        have whole : production.symbols.zip values = [] ++ value :: after := same.symm
        obtain ⟨kept, made⟩ := leading.reduce_led fitting whole (by simp) front
        rw [List.append_nil]
        exact ⟨later, fun _ known => known, kept, before, _, [], rfl, earlier, made, by simp⟩
    | cons head between =>
        -- the production takes values behind the token only
        obtain ⟨rfl, tail⟩ := List.cons.inj same
        rw [tail] at behind
        obtain ⟨later', fine, kept, made⟩ := leading.reduce_later fitting
          fun other member => behind other (List.mem_append_right _ member)
        refine ⟨later', fine, kept, before, value, _, List.append_assoc _ _ _, earlier,
          front.mono extended, ?_⟩
        intro other member
        rcases List.mem_append.1 member with inside | last
        · exact (behind other (List.mem_append_left _ inside)).mono fine
        · rw [List.mem_singleton.1 last]
          exact made

end Reduced

section Indices

variable (leveled : Leveled level forest)

include leveled

/-- The first token below earlier branches, if there is one, is the token `first`; below a branch
that has it in front it is. -/
theorem head?_indices (branch : Branch) :
    (Earlier old branch → forest.indices branch = [] ∨ (forest.indices branch).head? = some first) ∧
      (forest.LedBy old first branch → (forest.indices branch).head? = some first) := by
  induction branch using leveled.induction with
  | leaf terminal =>
      rw [indices_leaf]
      constructor
      · intro early
        have none : terminal.index? = none := early
        exact .inl (by rw [none]; rfl)
      · intro led
        cases led
        rfl
  | node rule list ih =>
      have opened : forest.Begins old first (forest.children list).toList →
          (forest.indices (.node rule list)).head? = some first := by
        intro begins
        obtain ⟨before, branch, after, held, earlier, led⟩ := begins
        have inside : ∀ other ∈ before ++ branch :: after, other ∈ forest.children list := by
          intro other member
          rwa [← held, Array.mem_toList_iff] at member
        have front := (ih branch (inside branch (by simp))).2 led
        rw [leveled.indices_node, held, List.flatMap_append, List.flatMap_cons]
        refine head?_append (head?_flatMap fun other member => ?_) ?_
        · exact (ih other (inside other (by simp [member]))).1 (earlier other member)
        · rw [List.head?_append, front]
          rfl
      constructor
      · intro own
        rcases leading.earlier list own with all | begins
        · rw [leveled.indices_node]
          apply head?_flatMap
          intro other member
          have held := Array.mem_toList_iff.1 member
          exact (ih other held).1 (all other held)
        · exact .inr (opened begins)
      · exact fun led => opened (ledBy_node_iff.1 led)

theorem head?_row (led : LedRow old first later forest row) :
    (row.flatMap fun value => forest.indices value.2).head? = some first := by
  obtain ⟨before, value, after, rfl, earlier, front, -⟩ := led
  rw [List.flatMap_append, List.flatMap_cons]
  refine head?_append (head?_flatMap fun other member => ?_) ?_
  · exact (leading.head?_indices leveled other.2).1 (earlier other member)
  · rw [List.head?_append, (leading.head?_indices leveled value.2).2 front]
    rfl

end Indices

end Leading

/-- Below a row the token `first` stands in front of all others. -/
def InFront (first : Nat) (forest : Forest) (row : List (String × Branch)) : Prop :=
  ∃ old later, Leading old first later forest ∧ LedRow old first later forest row

/-- A token in front stays there, unless it is one of those `gained`; more lists may have come in
behind it. -/
def KeepsFront (gained : List Nat) (forest : Forest) (row : List (String × Branch))
    (grown : Forest) (row' : List (String × Branch)) : Prop :=
  ∀ old first later, first ∉ gained → Leading old first later forest →
    LedRow old first later forest row →
    ∃ later', (∀ list, later list → later' list) ∧ Leading old first later' grown ∧
      LedRow old first later' grown row'

namespace KeepsFront

variable {gained gained' : List Nat} {row' row'' : List (String × Branch)} {last : Forest}

theorem refl (forest : Forest) (row : List (String × Branch)) :
    KeepsFront [] forest row forest row :=
  fun _ _ later _ leading led => ⟨later, fun _ known => known, leading, led⟩

theorem trans (one : KeepsFront gained forest row grown row')
    (two : KeepsFront gained' grown row' last row'') :
    KeepsFront (gained ++ gained') forest row last row'' := by
  intro old first later fresh leading led
  rw [List.mem_append, not_or] at fresh
  obtain ⟨middle, fine, leading, led⟩ := one old first later fresh.1 leading led
  obtain ⟨later', more, leading, led⟩ := two old first middle fresh.2 leading led
  exact ⟨later', fun list known => more list (fine list known), leading, led⟩

theorem inFront (keeps : KeepsFront gained forest row grown row') (fresh : first ∉ gained)
    (front : InFront first forest row) : InFront first grown row' := by
  obtain ⟨old, later, leading, led⟩ := front
  obtain ⟨later', -, leading, led⟩ := keeps old first later fresh leading led
  exact ⟨old, later', leading, led⟩

/-- What a trial has made of the forest leaves the row that it started from as it is. -/
theorem discard (keeps : KeepsFront gained forest row grown row')
    (extended : forest.Extends grown) : KeepsFront gained forest row grown row := by
  intro old first later fresh leading led
  obtain ⟨later', fine, leading', -⟩ := keeps old first later fresh leading led
  exact ⟨later', fine, leading', led.mono extended fine⟩

end KeepsFront

theorem InFront.head? (front : InFront first forest row) (leveled : Leveled level forest) :
    (row.flatMap fun value => forest.indices value.2).head? = some first := by
  obtain ⟨old, later, leading, led⟩ := front
  exact leading.head?_row leveled led

/-- Where there are no tokens yet, the one that comes onto the stack is in front. -/
theorem inFront_leaf (leveled : Leveled level forest) (fitting : RowFits level forest height row)
    (lists : ∀ list index, .leaf (.token index) ∉ forest.children list)
    (values : ∀ symbol index, (symbol, .leaf (.token index)) ∉ row) (symbol : String)
    (first : Nat) : InFront first forest (row ++ [(symbol, .leaf (.token first))]) := by
  have made : ∀ branch, (∀ index, branch ≠ .leaf (.token index)) →
      (∀ rule list, branch = .node rule list → list < forest.lists.size) →
      Earlier forest.lists.size branch := by
    intro branch bare numbered
    cases branch with
    | leaf terminal =>
        cases terminal with
        | token index => exact absurd rfl (bare index)
        | conjured name before => rfl
    | node rule list => exact numbered rule list rfl
  refine ⟨forest.lists.size, fun _ => False,
    ⟨Nat.le_refl _, fun _ absurd => absurd.elim, fun _ absurd => absurd.elim, ?_⟩,
    row, _, [], rfl, ?_, .leaf, by simp⟩
  · intro list _
    refine .inl fun branch member => made branch ?_ ?_
    · intro index same
      exact lists list index (same ▸ member)
    · intro rule child same
      exact (leveled list rule child (same ▸ member)).1
  · intro value member
    obtain ⟨above, -, fits⟩ := exists_fits_of_mem fitting member
    refine made value.2 ?_ ?_
    · intro index same
      exact values value.1 index (same ▸ member)
    · intro rule list same
      rw [same] at fits
      exact fits.1

end Forest

end Typeahead
