import Typeahead.Symbol.Declaration
import Typeahead.Proofs.ParseTree.Ancestry

namespace Typeahead

/-!
The symbol table of a tree built with a stack, on which each node waits with the scope that it
stands in.
-/

namespace Declared

variable (declarations : Declarations) (tree : ParseTree)

/-- Declares what the nodes on a stack do.  Each leaves its children there, in the scope that it
hands down. -/
def declareStacked : (steps : Nat) → Declared → List (Nat × Nat) → Declared
  | 0, state, _ => state
  | _ + 1, state, [] => state
  | steps + 1, state, (i, scope) :: pending =>
      let (state, inner) := declare declarations tree state scope i
      declareStacked steps state (((tree.children i).map fun child => (child, inner)) ++ pending)

/-- Declares what a node with its scope does, and those below it. -/
def declareTask (state : Declared) (task : Outline × Nat) : Declared :=
  declareBelow declarations tree tree.size state task.2 task.1.place

/-- The children of an outline in the scope that its node hands down. -/
def tasksBelow (state : Declared) (task : Outline × Nat) : List (Outline × Nat) :=
  task.1.children.map fun child =>
    (child, (declare declarations tree state task.2 task.1.place).2)

variable {declarations} {tree} {outline : Outline}

/-- With depth for all that is below a node its declarations end by themselves. -/
theorem declareBelow_congr (depicts : tree.Depicts outline) {depth depth' : Nat}
    (enough : outline.places.length ≤ depth) (enough' : outline.places.length ≤ depth')
    (state : Declared) (scope : Nat) :
    declareBelow declarations tree depth state scope outline.place =
      declareBelow declarations tree depth' state scope outline.place := by
  induction depth generalizing outline depth' state scope with
  | zero =>
      have nonempty := List.length_pos_of_mem outline.place_mem_places
      omega
  | succ depth ih =>
      have nonempty := List.length_pos_of_mem outline.place_mem_places
      obtain ⟨depth', rfl⟩ := Nat.exists_eq_add_one_of_ne_zero (n := depth') (by omega)
      rw [declareBelow, declareBelow, depicts.children_eq]
      simp only [List.foldl_map]
      apply List.foldl_ext
      intro state child member
      have smaller := Outline.length_places_lt_of_mem_children member
      exact ih (depicts.child member) (by omega) (by omega) state _

/-- A node's declarations are its own and then those of its children. -/
theorem declareTask_eq {task : Outline × Nat} (depicts : tree.Depicts task.1)
    (distinct : task.1.places.Nodup) (state : Declared) :
    declareTask declarations tree state task =
      (tasksBelow declarations tree state task).foldl (declareTask declarations tree)
        (declare declarations tree state task.2 task.1.place).1 := by
  obtain ⟨outline, scope⟩ := task
  have counted : outline.places.length ≤ tree.size := depicts.length_places_le distinct
  have inside := depicts.lt_size outline.place_mem_places
  obtain ⟨depth, size⟩ := Nat.exists_eq_add_one_of_ne_zero (Nat.ne_zero_of_lt inside)
  rw [declareTask, size, declareBelow, depicts.children_eq, tasksBelow]
  simp only [List.foldl_map]
  apply List.foldl_ext
  intro state child member
  have smaller := Outline.length_places_lt_of_mem_children member
  exact declareBelow_congr (depicts.child member) (by omega) (by omega) state _

variable (declarations) (tree) in
theorem length_tasksBelow (state : Declared) (task : Outline × Nat) :
    ((tasksBelow declarations tree state task).flatMap fun below => below.1.places).length + 1 =
      task.1.places.length := by
  rw [tasksBelow, List.flatMap_map, task.1.places_eq, List.length_cons]

/-- A stack declares what its nodes and those below them do, one after the other. -/
theorem declareStacked_eq_foldl (steps : Nat) (tasks : List (Outline × Nat)) (state : Declared)
    (waiting : ∀ task ∈ tasks, tree.Depicts task.1 ∧ task.1.places.Nodup)
    (enough : (tasks.flatMap fun task => task.1.places).length ≤ steps) :
    declareStacked declarations tree steps state
        (tasks.map fun task => (task.1.place, task.2)) =
      tasks.foldl (declareTask declarations tree) state := by
  induction steps generalizing tasks state with
  | zero =>
      cases tasks with
      | nil => rfl
      | cons task pending =>
          have nonempty := List.length_pos_of_mem task.1.place_mem_places
          rw [List.flatMap_cons, List.length_append] at enough
          omega
  | succ steps ih =>
      cases tasks with
      | nil => rfl
      | cons task pending =>
          obtain ⟨depicts, distinct⟩ := waiting task List.mem_cons_self
          have counted := length_tasksBelow declarations tree state task
          rw [List.flatMap_cons, List.length_append] at enough
          have next := ih (tasksBelow declarations tree state task ++ pending)
            (declare declarations tree state task.2 task.1.place).1 ?_ ?_
          · rw [List.map_append, tasksBelow, List.map_map] at next
            rw [List.foldl_cons, declareTask_eq depicts distinct, ← List.foldl_append, tasksBelow,
              ← next, List.map_cons, declareStacked, depicts.children_eq]
            simp only [List.map_map, Function.comp_def]
          · intro other member
            rcases List.mem_append.1 member with below | later
            · obtain ⟨child, inside, rfl⟩ := List.mem_map.1 below
              exact ⟨depicts.child inside,
                (Outline.within_of_mem_children inside).nodup_places distinct⟩
            · exact waiting other (List.mem_cons_of_mem _ later)
          · rw [List.flatMap_append, List.length_append]
            omega

/-- Started on the root the stack declares what the descent through the tree does. -/
theorem declareStacked_root (wellFormed : tree.WellFormed) {steps : Nat}
    (enough : tree.size ≤ steps) :
    declareStacked declarations tree steps .empty [(0, 0)] = tree.declared declarations := by
  obtain ⟨root, place, depicts, distinct⟩ := wellFormed
  have counted := depicts.length_places_le distinct
  have waiting : ∀ task ∈ [(root, 0)], tree.Depicts task.1 ∧ task.1.places.Nodup := by
    intro task member
    obtain rfl := List.mem_singleton.1 member
    exact ⟨depicts, distinct⟩
  have few : ([(root, 0)].flatMap fun task => task.1.places).length ≤ steps := by
    rw [List.flatMap_singleton]
    exact Nat.le_trans counted enough
  have stacked : declareStacked declarations tree steps .empty _ = _ :=
    declareStacked_eq_foldl steps [(root, 0)] .empty waiting few
  rw [List.map_singleton, place] at stacked
  rw [stacked, List.foldl_cons, List.foldl_nil, declareTask, place]
  rfl

end Declared

end Typeahead
