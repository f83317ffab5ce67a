import Typeahead.Proofs.Forest.Yield

namespace Typeahead.Forest

/-!
The value of a production from the values of its symbols.  Each value contributes itself, or what
its list holds if its rule is inlined.  Where the first rule is inlined the contributions of the
others are appended to its list; otherwise they all come into a new list.
-/

variable {forest : Forest} {list other : Nat} {branch : Branch} {branches : Array Branch}

theorem children_grow_eq : (forest.grow branches).1.children other =
    if other = forest.lists.size then branches else forest.children other := by
  simp only [grow, children, Array.getD_eq_getD_getElem?, Array.getElem?_push]
  split <;> rfl

theorem size_grow : (forest.grow branches).1.lists.size = forest.lists.size + 1 := by
  simp [grow]

theorem children_append (inside : list < forest.lists.size) :
    (forest.append list branches).children other =
      if other = list then forest.children list ++ branches else forest.children other := by
  simp only [append, children, Array.getD_eq_getD_getElem?, Array.getElem?_modify]
  by_cases same : other = list
  · subst same
    simp [Array.getElem?_eq_getElem inside]
  · simp [same, Ne.symm same]

theorem extends_grow (forest : Forest) (branches : Array Branch) :
    forest.Extends (forest.grow branches).1 := by
  refine ⟨by simp [size_grow], ?_⟩
  intro list
  rw [children_grow_eq]
  split
  · rename_i fresh
    simp [children_of_size_le (Nat.le_of_eq fresh.symm)]
  · exact List.prefix_rfl

theorem extends_append (inside : list < forest.lists.size) (branches : Array Branch) :
    forest.Extends (forest.append list branches) := by
  refine ⟨by simp, ?_⟩
  intro other
  rw [children_append inside]
  split
  · rename_i same
    simp [same]
  · exact List.prefix_rfl

theorem append_append (first second : Array Branch) :
    (forest.append list first).append list second = forest.append list (first ++ second) := by
  simp only [append, mk.injEq]
  apply Array.ext_getElem?
  intro i
  simp only [Array.getElem?_modify]
  by_cases same : list = i
  · subst same
    cases forest.lists[list]? <;> simp
  · simp [same]

theorem append_grow (first second : Array Branch) :
    (forest.grow first).1.append (forest.grow first).2 second = (forest.grow (first ++ second)).1 := by
  simp only [append, grow, mk.injEq]
  apply Array.ext_getElem?
  intro i
  simp only [Array.getElem?_modify, Array.getElem?_push]
  by_cases same : forest.lists.size = i
  · subst same
    simp
  · simp [same, Ne.symm same]

theorem append_empty (inside : list < forest.lists.size) : forest.append list #[] = forest := by
  rcases forest with ⟨lists⟩
  simp only [append, mk.injEq]
  apply Array.ext_getElem?
  intro i
  simp only [Array.getElem?_modify, Array.append_empty]
  split <;> simp

/-- What the value of a symbol adds to the list of a production. -/
def contribution (forest : Forest) : String × Branch → List Branch
  | (_, .leaf terminal) => [.leaf terminal]
  | (symbol, .node rule list) =>
      if isInlined symbol then (forest.children list).toList else [.node rule list]

/-- The list in which a production's values are gathered, and the forest with it. -/
def assemble (forest : Forest) : List (String × Branch) → Forest × Nat
  | [] => forest.grow #[]
  | (_, .leaf terminal) :: rest =>
      forest.grow (#[.leaf terminal] ++ (rest.flatMap forest.contribution).toArray)
  | (symbol, .node rule list) :: rest =>
      if isInlined symbol then
        (forest.append list (rest.flatMap forest.contribution).toArray, list)
      else forest.grow (#[.node rule list] ++ (rest.flatMap forest.contribution).toArray)

/-- No inlined value names the list. -/
def Spares (list : Nat) (values : List (String × Branch)) : Prop :=
  ∀ symbol rule, (symbol, .node rule list) ∈ values → isInlined symbol = false

theorem contribution_append {values : List (String × Branch)} (inside : list < forest.lists.size)
    (spares : Spares list values) :
    values.flatMap (forest.append list branches).contribution =
      values.flatMap forest.contribution := by
  apply List.flatMap_congr
  intro value member
  rcases value with ⟨symbol, value⟩
  cases value with
  | leaf terminal => rfl
  | node rule named =>
      simp only [contribution, children_append inside]
      by_cases same : named = list
      · subst same
        simp [spares symbol rule member]
      · simp [same]

theorem gatherAll_some {values : List (String × Branch)} (inside : list < forest.lists.size)
    (nonempty : (forest.children list).isEmpty = false) (spares : Spares list values) :
    forest.gatherAll (some list) values =
      (forest.append list (values.flatMap forest.contribution).toArray, some list) := by
  induction values generalizing forest with
  | nil => simp [gatherAll, append_empty inside]
  | cons value rest ih =>
      rcases value with ⟨symbol, value⟩
      have later : Spares list rest :=
        fun symbol rule member => spares symbol rule (List.mem_cons_of_mem _ member)
      have gathered : forest.gather (some list) symbol value =
          (forest.append list (forest.contribution (symbol, value)).toArray, some list) := by
        cases value with
        | leaf terminal => rfl
        | node rule named =>
            simp only [gather, contribution, nonempty]
            split <;> simp
      have inside' : list < (forest.append list
          (forest.contribution (symbol, value)).toArray).lists.size := by simpa using inside
      have nonempty' : ((forest.append list
          (forest.contribution (symbol, value)).toArray).children list).isEmpty = false := by
        rw [children_append inside, if_pos rfl]
        simp only [Array.isEmpty_eq_false_iff] at nonempty ⊢
        simp [nonempty]
      rw [gatherAll, gathered]
      simp only
      rw [ih inside' nonempty' later, contribution_append inside later, append_append]
      simp

/-- The first value of a production can be gathered into: its list, if the rule is inlined, is not
empty and no other value's. -/
def Gatherable (forest : Forest) (values : List (String × Branch)) : Prop :=
  (∀ value ∈ values, ∀ rule list, value.2 = .node rule list → list < forest.lists.size) ∧
    ∀ symbol rule list rest, values = (symbol, .node rule list) :: rest → isInlined symbol = true →
      (forest.children list).isEmpty = false ∧ Spares list rest

theorem gatherAll_none {values : List (String × Branch)} (nonempty : values ≠ [])
    (gatherable : forest.Gatherable values) :
    forest.gatherAll none values =
      ((forest.assemble values).1, some (forest.assemble values).2) := by
  obtain ⟨numbered, first⟩ := gatherable
  -- a new list is named by none of the values
  have fresh : ∀ (branch : Branch) (rest : List (String × Branch)),
      (∀ value ∈ rest, value ∈ values) →
      (forest.grow #[branch]).1.gatherAll (some forest.lists.size) rest =
        ((forest.grow (#[branch] ++ (rest.flatMap forest.contribution).toArray)).1,
          some forest.lists.size) := by
    intro branch rest included
    have spares : Spares forest.lists.size rest := by
      intro symbol rule member
      have bound := numbered _ (included _ member) rule _ rfl
      exact absurd bound (Nat.lt_irrefl _)
    have kept : rest.flatMap (forest.grow #[branch]).1.contribution =
        rest.flatMap forest.contribution := by
      apply List.flatMap_congr
      intro value member
      rcases value with ⟨symbol, value⟩
      cases value with
      | leaf terminal => rfl
      | node rule named =>
          have bound := numbered _ (included _ member) rule named rfl
          simp only [contribution, children_grow_eq, if_neg (Nat.ne_of_lt bound)]
    have inside : forest.lists.size < (forest.grow #[branch]).1.lists.size := by
      simp [size_grow]
    rw [gatherAll_some inside (by simp [children_grow_eq]) spares, kept, ← append_grow]
    rfl
  match values, nonempty with
  | (symbol, .leaf terminal) :: rest, _ =>
      exact fresh _ rest fun value member => List.mem_cons_of_mem _ member
  | (symbol, .node rule list) :: rest, _ =>
      have inside := numbered _ List.mem_cons_self rule list rfl
      by_cases inlined : isInlined symbol = true
      · obtain ⟨filled, spares⟩ := first symbol rule list rest rfl inlined
        simp only [gatherAll, gather, inlined, if_true, assemble]
        exact gatherAll_some inside filled spares
      · simp only [gatherAll, gather, inlined, assemble]
        exact fresh _ rest fun value member => List.mem_cons_of_mem _ member

/-- The value over a list: the node of the rule, or the only child in place of a transparent rule. -/
def settle (forest : Forest) (transparent : List String) (origin : String) (list : Nat) : Branch :=
  match (forest.children list).toList with
  | [child] => if transparent.contains origin then child else .node origin list
  | _ => .node origin list

/-- The values gathered in one list. -/
def gathered (forest : Forest) (values : List (String × Branch)) : Forest × Nat :=
  match forest.gatherAll none values with
  | (grown, some list) => (grown, list)
  | (grown, none) => grown.grow #[]

theorem gathered_eq {values : List (String × Branch)} (gatherable : forest.Gatherable values) :
    forest.gathered values = forest.assemble values := by
  by_cases nonempty : values = []
  · rw [nonempty]
    rfl
  · rw [gathered, gatherAll_none nonempty gatherable]

theorem reduce_eq_settle (transparent : List String) (forest : Forest) (production : Production)
    (values : List Branch) : forest.reduce transparent production values =
      ((forest.gathered (production.symbols.zip values)).1,
        (forest.gathered (production.symbols.zip values)).1.settle transparent production.origin
          (forest.gathered (production.symbols.zip values)).2) := by
  unfold reduce gathered settle
  rcases forest.gatherAll none (production.symbols.zip values) with ⟨middle, _ | list⟩
  · dsimp only
    rcases middle.grow #[] with ⟨grown, list⟩
    rcases (grown.children list).toList with _ | ⟨child, _ | ⟨second, rest⟩⟩ <;> rfl
  · dsimp only
    rcases (middle.children list).toList with _ | ⟨child, _ | ⟨second, rest⟩⟩ <;> rfl

theorem reduce_eq {transparent : List String} {production : Production} {values : List Branch}
    (gatherable : forest.Gatherable (production.symbols.zip values)) :
    forest.reduce transparent production values =
      ((forest.assemble (production.symbols.zip values)).1,
        (forest.assemble (production.symbols.zip values)).1.settle transparent production.origin
          (forest.assemble (production.symbols.zip values)).2) := by
  rw [reduce_eq_settle, gathered_eq gatherable]

theorem exists_node_of_reduce {transparent : List String} {production : Production}
    (kept : transparent.contains production.origin = false) (forest : Forest)
    (values : List Branch) :
    ∃ list, (forest.reduce transparent production values).2 = .node production.origin list := by
  unfold reduce
  simp only [kept]
  split <;> exact ⟨_, rfl⟩

end Typeahead.Forest
