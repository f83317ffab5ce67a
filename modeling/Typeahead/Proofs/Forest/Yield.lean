import Mathlib.Data.Finset.Card
import Mathlib.Data.Finset.Range
import Typeahead.Forest

namespace Typeahead

/-!
The leaves below a branch of a forest.  The lists of a parser's forest have levels: a list holds
nodes of its own level with smaller numbers and nodes of higher levels.  So no list holds itself,
and the leaves below a node are those below the branches in its list, from left to right.
-/

namespace SyntaxTree

mutual

def leaves : SyntaxTree → List Leaf
  | .leaf terminal => [terminal]
  | .node _ children => leavesOf children

def leavesOf : List SyntaxTree → List Leaf
  | [] => []
  | child :: rest => child.leaves ++ leavesOf rest

end

theorem leavesOf_eq (children : List SyntaxTree) : leavesOf children = children.flatMap leaves := by
  induction children with
  | nil => rfl
  | cons child rest ih => rw [leavesOf, ih, List.flatMap_cons]

@[simp]
theorem leaves_node (rule : String) (children : List SyntaxTree) :
    (node rule children).leaves = children.flatMap leaves := by
  rw [leaves, leavesOf_eq]

end SyntaxTree

/-- The stream position of a leaf, if it has one. -/
def Leaf.index? : Leaf → Option Nat
  | .token index => some index
  | .conjured .. => none

namespace Forest

variable {forest grown : Forest} {branch : Branch} {list target depth : Nat} {rule : String}

@[simp]
theorem unfold_leaf (terminal : Leaf) : forest.unfold depth (.leaf terminal) = .leaf terminal := by
  cases depth <;> rfl

theorem children_of_size_le (outside : forest.lists.size ≤ list) : forest.children list = #[] := by
  simp [children, Array.getD, Nat.not_lt.2 outside]

theorem lt_size_of_mem (member : branch ∈ forest.children list) : list < forest.lists.size := by
  by_contra outside
  rw [children_of_size_le (Nat.le_of_not_lt outside)] at member
  exact absurd member (Array.not_mem_empty _)

/-- The lists below a branch. -/
inductive Reaches (forest : Forest) : Branch → Nat → Prop where
  | here {rule : String} {list : Nat} : Reaches forest (.node rule list) list
  | child {rule : String} {list target : Nat} {branch : Branch}
      (member : branch ∈ forest.children list) (reaches : Reaches forest branch target) :
      Reaches forest (.node rule list) target

theorem unfold_congr
    (agree : ∀ list, forest.Reaches branch list → grown.children list = forest.children list) :
    grown.unfold depth branch = forest.unfold depth branch := by
  induction depth generalizing branch with
  | zero => cases branch <;> rfl
  | succ depth ih =>
      cases branch with
      | leaf terminal => rfl
      | node rule list =>
          simp only [unfold, agree list .here]
          congr 1
          apply List.map_congr_left
          intro child member
          apply ih
          intro target reaches
          exact agree target (.child (Array.mem_toList_iff.1 member) reaches)

theorem Reaches.congr
    (agree : ∀ list, forest.Reaches branch list → grown.children list = forest.children list)
    (reaches : grown.Reaches branch target) : forest.Reaches branch target := by
  induction reaches with
  | here => exact .here
  | @child rule list target inner member _ ih =>
      rw [agree list .here] at member
      exact .child member (ih fun other reached => agree other (.child member reached))

/-- A list `child` may stand in the list `list`. -/
def Deeper (level : Nat → Nat) (child list : Nat) : Prop :=
  level list < level child ∨ level list = level child ∧ child < list

instance (level : Nat → Nat) (child list : Nat) : Decidable (Deeper level child list) :=
  inferInstanceAs (Decidable (_ ∨ _))

theorem Deeper.trans {level : Nat → Nat} {first second third : Nat}
    (upper : Deeper level second first) (lower : Deeper level third second) :
    Deeper level third first := by
  unfold Deeper at *
  omega

theorem not_deeper_self (level : Nat → Nat) (list : Nat) : ¬Deeper level list list := by
  unfold Deeper
  omega

/-- The lists that a list holds are there and may stand in it. -/
def Leveled (level : Nat → Nat) (forest : Forest) : Prop :=
  ∀ list rule child, .node rule child ∈ forest.children list →
    child < forest.lists.size ∧ Deeper level child list

namespace Leveled

variable {level : Nat → Nat}

theorem deeper_of_reaches (leveled : Leveled level forest) (member : branch ∈ forest.children list)
    (reaches : forest.Reaches branch target) : Deeper level target list := by
  induction reaches generalizing list with
  | here => exact (leveled _ _ _ member).2
  | child inside _ ih => exact (leveled _ _ _ member).2.trans (ih inside)

/-- The number of lists that may stand below a list. -/
def height (level : Nat → Nat) (forest : Forest) (list : Nat) : Nat :=
  ((Finset.range forest.lists.size).filter (Deeper level · list)).card

theorem height_lt_size (level : Nat → Nat) (inside : list < forest.lists.size) :
    height level forest list < forest.lists.size := by
  have smaller : (Finset.range forest.lists.size).filter (Deeper level · list) ⊂
      Finset.range forest.lists.size := by
    rw [Finset.filter_ssubset]
    exact ⟨list, Finset.mem_range.2 inside, not_deeper_self level list⟩
  simpa [height] using Finset.card_lt_card smaller

theorem height_lt (leveled : Leveled level forest)
    (member : .node rule target ∈ forest.children list) :
    height level forest target < height level forest list := by
  obtain ⟨inside, deeper⟩ := leveled _ _ _ member
  apply Finset.card_lt_card
  rw [Finset.ssubset_iff_of_subset]
  · refine ⟨target, ?_, ?_⟩
    · simp [inside, deeper]
    · simp [not_deeper_self]
  · intro other
    simp only [Finset.mem_filter, Finset.mem_range]
    intro found
    exact ⟨found.1, deeper.trans found.2⟩

/-- What holds of a node if it holds of the branches in its list holds of all branches. -/
theorem induction (leveled : Leveled level forest) {P : Branch → Prop}
    (leaf : ∀ terminal, P (.leaf terminal))
    (node : ∀ rule list, (∀ branch ∈ forest.children list, P branch) → P (.node rule list))
    (branch : Branch) : P branch := by
  have below : ∀ bound rule list, height level forest list < bound → P (.node rule list) := by
    intro bound
    induction bound with
    | zero => exact fun _ _ less => absurd less (Nat.not_lt_zero _)
    | succ bound ih =>
        intro rule list less
        apply node
        intro child member
        cases child with
        | leaf terminal => exact leaf terminal
        | node inner target =>
            have lower := leveled.height_lt member
            exact ih inner target (by omega)
  cases branch with
  | leaf terminal => exact leaf terminal
  | node rule list => exact below _ rule list (Nat.lt_succ_self _)

theorem unfold_eq (leveled : Leveled level forest) {more : Nat}
    (enough : height level forest list < depth) (also : height level forest list < more) :
    forest.unfold depth (.node rule list) = forest.unfold more (.node rule list) := by
  induction depth generalizing list rule more with
  | zero => omega
  | succ depth ih =>
      obtain ⟨spare, rfl⟩ : ∃ spare, more = spare + 1 := ⟨more - 1, by omega⟩
      simp only [unfold]
      congr 1
      apply List.map_congr_left
      intro child member
      cases child with
      | leaf terminal => simp
      | node inner below =>
          have lower := leveled.height_lt (Array.mem_toList_iff.1 member)
          exact ih (by omega) (by omega)

/-- The tree of a node has the trees of its children below it. -/
theorem tree_node (leveled : Leveled level forest) (rule : String) (list : Nat) :
    forest.tree (.node rule list) =
      .node rule ((forest.children list).toList.map forest.tree) := by
  by_cases inside : list < forest.lists.size
  · obtain ⟨size, counted⟩ : ∃ size, forest.lists.size = size + 1 :=
      ⟨forest.lists.size - 1, by omega⟩
    have bound := height_lt_size level inside
    simp only [tree, counted, unfold]
    congr 1
    apply List.map_congr_left
    intro child member
    cases child with
    | leaf terminal => simp [tree]
    | node inner below =>
        have lower := leveled.height_lt (Array.mem_toList_iff.1 member)
        rw [tree, counted]
        exact leveled.unfold_eq (by omega) (by omega)
  · have empty := children_of_size_le (Nat.le_of_not_lt inside)
    unfold tree
    cases forest.lists.size <;> simp [unfold, empty]

theorem tree_congr (leveled : Leveled level forest) (larger : forest.lists.size ≤ grown.lists.size)
    (inside : ∀ list, forest.Reaches branch list → list < forest.lists.size)
    (agree : ∀ list, forest.Reaches branch list → grown.children list = forest.children list) :
    grown.tree branch = forest.tree branch := by
  rw [tree, tree, unfold_congr agree]
  cases branch with
  | leaf terminal => simp
  | node rule list =>
      have bound := height_lt_size level (inside list .here)
      exact leveled.unfold_eq (by omega) bound

end Leveled

def yield (forest : Forest) (branch : Branch) : List Leaf := (forest.tree branch).leaves

/-- The stream positions of the tokens below a branch. -/
def indices (forest : Forest) (branch : Branch) : List Nat :=
  (forest.yield branch).filterMap Leaf.index?

@[simp]
theorem yield_leaf (terminal : Leaf) : forest.yield (.leaf terminal) = [terminal] := by
  simp [yield, tree, SyntaxTree.leaves]

theorem Leveled.yield_node {level : Nat → Nat} (leveled : Leveled level forest) (rule : String)
    (list : Nat) :
    forest.yield (.node rule list) = (forest.children list).toList.flatMap forest.yield := by
  simp only [yield, leveled.tree_node, SyntaxTree.leaves_node, List.flatMap_map]
  rfl

@[simp]
theorem indices_leaf (forest : Forest) (terminal : Leaf) :
    forest.indices (.leaf terminal) = terminal.index?.toList := by
  cases terminal <;> simp [indices, Leaf.index?]

theorem Leveled.indices_node {level : Nat → Nat} (leveled : Leveled level forest) (rule : String)
    (list : Nat) :
    forest.indices (.node rule list) = (forest.children list).toList.flatMap forest.indices := by
  rw [indices, leveled.yield_node, List.filterMap_flatMap]
  rfl

theorem mem_leaves_unfold {terminal : Leaf}
    (member : terminal ∈ (forest.unfold depth branch).leaves) :
    branch = .leaf terminal ∨
      ∃ list, forest.Reaches branch list ∧ .leaf terminal ∈ forest.children list := by
  induction depth generalizing branch with
  | zero =>
      cases branch with
      | leaf other => simp_all [SyntaxTree.leaves]
      | node rule list => simp [unfold] at member
  | succ depth ih =>
      cases branch with
      | leaf other => simp_all [SyntaxTree.leaves]
      | node rule list =>
          simp only [unfold, SyntaxTree.leaves_node, List.mem_flatMap, List.mem_map,
            exists_exists_and_eq_and] at member
          obtain ⟨child, inside, member⟩ := member
          have listed := Array.mem_toList_iff.1 inside
          rcases ih member with rfl | ⟨target, reaches, found⟩
          · exact .inr ⟨list, .here, listed⟩
          · exact .inr ⟨target, .child listed reaches, found⟩

theorem Leveled.mem_yield_iff {level : Nat → Nat} (leveled : Leveled level forest)
    {terminal : Leaf} :
    terminal ∈ forest.yield branch ↔ branch = .leaf terminal ∨
      ∃ list, forest.Reaches branch list ∧ .leaf terminal ∈ forest.children list := by
  constructor
  · exact mem_leaves_unfold
  · intro found
    rcases found with rfl | ⟨list, reaches, found⟩
    · simp
    · induction reaches with
      | here =>
          rw [leveled.yield_node, List.mem_flatMap]
          exact ⟨_, Array.mem_toList_iff.2 found, by simp⟩
      | child member _ ih =>
          rw [leveled.yield_node, List.mem_flatMap]
          exact ⟨_, Array.mem_toList_iff.2 member, ih found⟩

/-- Lists have been added and lists have grown at their ends. -/
structure Extends (forest grown : Forest) : Prop where
  size_le : forest.lists.size ≤ grown.lists.size
  children_prefix : ∀ list, (forest.children list).toList <+: (grown.children list).toList

namespace Extends

theorem refl (forest : Forest) : forest.Extends forest := ⟨Nat.le_refl _, fun _ => List.prefix_rfl⟩

theorem trans {first second third : Forest} (one : first.Extends second)
    (two : second.Extends third) : first.Extends third :=
  ⟨Nat.le_trans one.size_le two.size_le,
    fun list => (one.children_prefix list).trans (two.children_prefix list)⟩

theorem leaves_unfold (extended : forest.Extends grown) {more : Nat} (deeper : depth ≤ more) :
    (forest.unfold depth branch).leaves.Sublist (grown.unfold more branch).leaves := by
  induction depth generalizing branch more with
  | zero =>
      cases branch with
      | leaf terminal => simp
      | node rule list => simp [unfold]
  | succ depth ih =>
      obtain ⟨spare, rfl⟩ : ∃ spare, more = spare + 1 := ⟨more - 1, by omega⟩
      cases branch with
      | leaf terminal => simp
      | node rule list =>
          simp only [unfold, SyntaxTree.leaves_node, List.flatMap_map]
          obtain ⟨added, split⟩ := extended.children_prefix list
          rw [← split, List.flatMap_append]
          apply List.Sublist.trans _ (List.sublist_append_left _ _)
          clear split
          induction (forest.children list).toList with
          | nil => exact List.Sublist.slnil
          | cons child rest rests =>
              exact (ih (by omega)).append rests

theorem yield_sublist (extended : forest.Extends grown) (branch : Branch) :
    (forest.yield branch).Sublist (grown.yield branch) :=
  extended.leaves_unfold extended.size_le

theorem indices_sublist (extended : forest.Extends grown) (branch : Branch) :
    (forest.indices branch).Sublist (grown.indices branch) :=
  (extended.yield_sublist branch).filterMap _

end Extends

end Forest

end Typeahead
