import Mathlib.Algebra.GroupWithZero.Nat
import Typeahead.Proofs.ParseTree.Locating

namespace Typeahead

/-!
The search for a caret with a stack of nodes.  A rule is taken off twice, first in front of what is
below it and then behind that, when none of its terminals has answered.
-/

namespace ParseTree

variable (tree : ParseTree) (stream : TokenStream) (caret : Caret)

/-- Whether a node lies wholly on other lines than the caret. -/
def liesElsewhere (i : Nat) : Bool :=
  match tree.tokenRange? i with
  | none => false
  | some (first, last) => caret.line < first.line || last.line < caret.line

/-- The first token in a node's range under the caret. -/
def locateWithin (i : Nat) : Option Located :=
  match tree.tokenRange? i with
  | none => none
  | some (first, last) => locateInRange stream caret i first last

/-- Looks for the caret at the nodes on a stack, each with the mark of whether what is below it has
been tried. -/
def locateStacked : (steps : Nat) → List (Nat × Bool) → Option Located
  | 0, _ => none
  | _ + 1, [] => none
  | steps + 1, (i, tried) :: pending =>
      match tree.token? i with
      | some token =>
          if !token.conjured && token.covers caret.line caret.column then
            some (token.locatedAt caret i)
          else locateStacked steps pending
      | none =>
          if tried then
            match tree.locateWithin stream caret i with
            | some located => some located
            | none => locateStacked steps pending
          else if tree.liesElsewhere caret i then locateStacked steps pending
          else
            locateStacked steps (((tree.children i).map fun child => (child, false)) ++
              (i, true) :: pending)

variable {tree} {stream} {caret} {outline : Outline} {i steps : Nat} {pending : List (Nat × Bool)}

theorem locateStacked_terminal {token : Token} (own : tree.token? i = some token) (tried : Bool) :
    tree.locateStacked stream caret (steps + 1) ((i, tried) :: pending) =
      (if !token.conjured && token.covers caret.line caret.column then
        some (token.locatedAt caret i) else none).or
          (tree.locateStacked stream caret steps pending) := by
  rw [locateStacked, own]
  simp only
  split <;> rfl

theorem locateStacked_tried (rule : tree.token? i = none) :
    tree.locateStacked stream caret (steps + 1) ((i, true) :: pending) =
      (tree.locateWithin stream caret i).or (tree.locateStacked stream caret steps pending) := by
  rw [locateStacked, rule]
  simp only [if_true]
  cases tree.locateWithin stream caret i <;> rfl

theorem locateStacked_rule (rule : tree.token? i = none) :
    tree.locateStacked stream caret (steps + 1) ((i, false) :: pending) =
      if tree.liesElsewhere caret i then tree.locateStacked stream caret steps pending
      else tree.locateStacked stream caret steps
        (((tree.children i).map fun child => (child, false)) ++ (i, true) :: pending) := by
  rw [locateStacked, rule]
  rfl

/-- With depth for all that is below a node the search ends by itself. -/
theorem Depicts.locateBelow_congr (depicts : tree.Depicts outline) {depth depth' : Nat}
    (enough : outline.places.length ≤ depth) (enough' : outline.places.length ≤ depth') :
    tree.locateBelow stream caret depth outline.place =
      tree.locateBelow stream caret depth' outline.place := by
  induction depth generalizing outline depth' with
  | zero =>
      have nonempty := List.length_pos_of_mem outline.place_mem_places
      omega
  | succ depth ih =>
      have nonempty := List.length_pos_of_mem outline.place_mem_places
      obtain ⟨depth', rfl⟩ := Nat.exists_eq_add_one_of_ne_zero (n := depth') (by omega)
      cases outline with
      | terminal place token =>
          have own : tree.token? place = some token := depicts.token?_eq
          rw [Outline.place, locateBelow, locateBelow, own]
      | rule place name children =>
          have below : (children.findSome? fun child =>
              tree.locateBelow stream caret depth child.place) =
              children.findSome? fun child => tree.locateBelow stream caret depth' child.place := by
            rw [← List.head?_filterMap, ← List.head?_filterMap]
            apply congrArg List.head?
            apply List.filterMap_congr
            intro child member
            have smaller := Outline.length_places_lt place name member
            exact ih (depicts.child member) (by omega) (by omega)
          rw [Outline.place, depicts.locateBelow_rule, depicts.locateBelow_rule, below]

/-- A rule answers if it does not lie elsewhere: by what is below it, or else by its range. -/
theorem Depicts.locateBelow_eq_or {place : Nat} {name : String} {children : List Outline}
    (depicts : tree.Depicts (.rule place name children)) (depth : Nat) :
    tree.locateBelow stream caret (depth + 1) place =
      if tree.liesElsewhere caret place then none
      else
        (children.findSome? fun child => tree.locateBelow stream caret depth child.place).or
          (tree.locateWithin stream caret place) := by
  rw [depicts.locateBelow_rule, liesElsewhere, locateWithin]
  cases tree.tokenRange? place with
  | none => simp
  | some range => rfl

section Searching

variable (tree) (stream) (caret)

/-- What a node on the stack answers, by itself and by what is below it. -/
def answerOf (task : Outline × Bool) : Option Located :=
  if task.2 then tree.locateWithin stream caret task.1.place
  else tree.locateBelow stream caret tree.size task.1.place

end Searching

/-- A node as it stands on the stack. -/
def entryOf (task : Outline × Bool) : Nat × Bool := (task.1.place, task.2)

/-- In how many steps a node and what is below it are off the stack. -/
def stepsOf (task : Outline × Bool) : Nat := if task.2 then 1 else 2 * task.1.places.length

theorem stepsOf_pos (task : Outline × Bool) : 0 < stepsOf task := by
  have nonempty := List.length_pos_of_mem task.1.place_mem_places
  unfold stepsOf
  split <;> omega

/-- What the first visit of a rule leaves on the stack. -/
def leftBy (place : Nat) (name : String) (children : List Outline) : List (Outline × Bool) :=
  (children.map fun child => (child, false)) ++ [(.rule place name children, true)]

theorem sum_stepsOf_children (children : List Outline) :
    ((children.map fun child => (child, false)).map stepsOf).sum =
      2 * (children.flatMap Outline.places).length := by
  induction children with
  | nil => rfl
  | cons child rest ih =>
      rw [List.map_cons, List.map_cons, List.sum_cons, ih, List.flatMap_cons,
        List.length_append, Nat.mul_add]
      rfl

theorem sum_stepsOf_leftBy (place : Nat) (name : String) (children : List Outline) :
    ((leftBy place name children).map stepsOf).sum + 1 =
      stepsOf (.rule place name children, false) := by
  rw [leftBy, List.map_append, List.sum_append, sum_stepsOf_children, stepsOf,
    Outline.places_rule, List.length_cons]
  rfl

/-- A node on the stack and what is below it are in the tree; only rules are put back. -/
structure Waits (tree : ParseTree) (task : Outline × Bool) : Prop where
  depicts : tree.Depicts task.1
  distinct : task.1.places.Nodup
  again : task.2 = true → tree.token? task.1.place = none

theorem Waits.of_mem_leftBy {place : Nat} {name : String} {children : List Outline}
    (waits : tree.Waits (.rule place name children, false)) :
    ∀ task ∈ leftBy place name children, tree.Waits task := by
  obtain ⟨depicts, distinct, -⟩ := waits
  intro task member
  rcases List.mem_append.1 member with below | itself
  · obtain ⟨child, inside, rfl⟩ := List.mem_map.1 below
    exact ⟨depicts.child inside, nodup_places_of_mem distinct inside, nofun⟩
  · obtain rfl := List.mem_singleton.1 itself
    exact ⟨depicts, distinct, fun _ => depicts.token?_eq⟩

theorem Depicts.exists_size (depicts : tree.Depicts outline) : ∃ depth, tree.size = depth + 1 := by
  have inside := depicts.lt_size outline.place_mem_places
  exact Nat.exists_eq_add_one_of_ne_zero (Nat.ne_zero_of_lt inside)

theorem Depicts.answerOf_terminal {place : Nat} {token : Token}
    (depicts : tree.Depicts (.terminal place token)) :
    tree.answerOf stream caret (.terminal place token, false) =
      if !token.conjured && token.covers caret.line caret.column then
        some (token.locatedAt caret place)
      else none := by
  have own : tree.token? place = some token := depicts.token?_eq
  obtain ⟨depth, size⟩ := depicts.exists_size
  rw [answerOf, if_neg Bool.false_ne_true, Outline.place, size, locateBelow, own]

/-- A rule answers as the nodes that it leaves on the stack. -/
theorem Depicts.answerOf_rule {place : Nat} {name : String} {children : List Outline}
    (depicts : tree.Depicts (.rule place name children))
    (distinct : (Outline.rule place name children).places.Nodup) :
    tree.answerOf stream caret (.rule place name children, false) =
      if tree.liesElsewhere caret place then none
      else (leftBy place name children).findSome? (tree.answerOf stream caret) := by
  obtain ⟨depth, size⟩ := depicts.exists_size
  have counted := depicts.length_places_le distinct
  have below : (children.findSome? fun child =>
      tree.locateBelow stream caret depth child.place) =
      (children.map fun child => (child, false)).findSome? (tree.answerOf stream caret) := by
    rw [List.findSome?_map, ← List.head?_filterMap, ← List.head?_filterMap]
    apply congrArg List.head?
    apply List.filterMap_congr
    intro child member
    have smaller := Outline.length_places_lt place name member
    exact (depicts.child member).locateBelow_congr (by omega) (by omega)
  rw [answerOf, if_neg Bool.false_ne_true, Outline.place, size, depicts.locateBelow_eq_or, below,
    leftBy, List.findSome?_append, List.findSome?_singleton]
  rfl

theorem findSome?_cons_eq_or {α β : Type} (f : α → Option β) (x : α) (xs : List α) :
    (x :: xs).findSome? f = (f x).or (xs.findSome? f) := by
  rw [List.findSome?_cons]
  cases f x <;> rfl

/-- A stack answers as the first of its nodes that does. -/
theorem locateStacked_eq_findSome? (steps : Nat) (tasks : List (Outline × Bool))
    (waiting : ∀ task ∈ tasks, tree.Waits task) (enough : (tasks.map stepsOf).sum ≤ steps) :
    tree.locateStacked stream caret steps (tasks.map entryOf) =
      tasks.findSome? (tree.answerOf stream caret) := by
  induction steps generalizing tasks with
  | zero =>
      cases tasks with
      | nil => rfl
      | cons task pending =>
          have positive := stepsOf_pos task
          rw [List.map_cons, List.sum_cons] at enough
          omega
  | succ steps ih =>
      cases tasks with
      | nil => rfl
      | cons task pending =>
          have positive := stepsOf_pos task
          rw [List.map_cons, List.sum_cons] at enough
          have others := fun task member => waiting task (List.mem_cons_of_mem _ member)
          have next := ih pending others (by omega)
          rw [List.map_cons, findSome?_cons_eq_or]
          obtain ⟨depicts, distinct, again⟩ := waiting task List.mem_cons_self
          obtain ⟨outline, tried⟩ := task
          cases outline with
          | terminal place token =>
              have own : tree.token? place = some token := depicts.token?_eq
              cases tried with
              | true => simp [Outline.place, own] at again
              | false =>
                  rw [entryOf, Outline.place, locateStacked_terminal own, next,
                    depicts.answerOf_terminal]
          | rule place name children =>
              have own : tree.token? place = none := depicts.token?_eq
              have below : tree.children place = children.map Outline.place :=
                depicts.children_eq
              cases tried with
              | true =>
                  rw [entryOf, Outline.place, locateStacked_tried own, next]
                  rfl
              | false =>
                  have left := sum_stepsOf_leftBy place name children
                  have enough' : ((leftBy place name children ++ pending).map stepsOf).sum ≤
                      steps := by
                    rw [List.map_append, List.sum_append]
                    omega
                  have waiting' : ∀ task ∈ leftBy place name children ++ pending,
                      tree.Waits task := by
                    intro task member
                    exact (List.mem_append.1 member).elim
                      (Waits.of_mem_leftBy ⟨depicts, distinct, again⟩ task) (others task)
                  have pushed := ih _ waiting' enough'
                  rw [List.findSome?_append, leftBy, List.append_assoc, List.map_append,
                    List.map_map] at pushed
                  rw [entryOf, Outline.place, locateStacked_rule own, next,
                    depicts.answerOf_rule distinct, below, List.map_map, leftBy]
                  split
                  · rfl
                  · exact pushed

/-- Started on the root the stack finds what the search down the tree does. -/
theorem WellFormed.getD_locateStacked (wellFormed : tree.WellFormed) (stream : TokenStream)
    (caret : Caret) {steps : Nat} (enough : 2 * tree.size ≤ steps) :
    (tree.locateStacked stream caret steps [(0, false)]).getD .nowhere =
      tree.locate stream caret := by
  obtain ⟨root, place, depicts, distinct⟩ := wellFormed
  have counted := depicts.length_places_le distinct
  have waiting : ∀ task ∈ [(root, false)], tree.Waits task := by
    intro task member
    obtain rfl := List.mem_singleton.1 member
    exact ⟨depicts, distinct, nofun⟩
  have few : ([(root, false)].map stepsOf).sum ≤ steps := by
    simp only [List.map_singleton, List.sum_singleton, stepsOf]
    exact Nat.le_trans (Nat.mul_le_mul_left 2 counted) enough
  have searched : tree.locateStacked stream caret steps _ = _ :=
    locateStacked_eq_findSome? steps [(root, false)] waiting few
  rw [List.map_singleton, List.findSome?_singleton, entryOf, place, answerOf] at searched
  rw [searched, if_neg Bool.false_ne_true, place, locate]

end ParseTree

end Typeahead
