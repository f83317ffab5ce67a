import Typeahead.Proofs.DerivationTree
import Typeahead.Proofs.Forest.Row

namespace Typeahead

/-!
What the parser keeps of a derivation.  A tree with a node for every production that was used shows
a derivation; condensed, it has the children of inlined rules in their place and the only child of a
transparent rule instead of the rule.  As long as no two values share a list, each value of a row is
the condensed tree of a derivation of its symbol.
-/

namespace SyntaxTree

/-- The symbol of a tree, where `nameOf` gives the terminals of leaves. -/
def symbol (nameOf : Leaf → String) : SyntaxTree → String
  | .leaf terminal => nameOf terminal
  | .node rule _ => rule

mutual

/-- The derivation that a tree shows: each rule is used with the symbols of its children. -/
def derivation (nameOf : Leaf → String) : SyntaxTree → DerivationTree
  | .leaf terminal => .leaf (nameOf terminal)
  | .node rule children =>
      .node ⟨rule, children.map (symbol nameOf)⟩ (derivations nameOf children)

def derivations (nameOf : Leaf → String) : List SyntaxTree → List DerivationTree
  | [] => []
  | child :: rest => child.derivation nameOf :: derivations nameOf rest

end

/-- A rule over its children, or its only child if the rule is transparent. -/
def settle (transparent : List String) (rule : String) : List SyntaxTree → SyntaxTree
  | [child] => if transparent.contains rule then child else .node rule [child]
  | children => .node rule children

mutual

/-- What a tree adds to the children of the rule above it. -/
def parts (transparent : List String) : SyntaxTree → List SyntaxTree
  | .leaf terminal => [.leaf terminal]
  | .node rule children =>
      if isInlined rule then partsOf transparent children
      else [settle transparent rule (partsOf transparent children)]

def partsOf (transparent : List String) : List SyntaxTree → List SyntaxTree
  | [] => []
  | child :: rest => child.parts transparent ++ partsOf transparent rest

end

/-- The tree with inlined rules spliced into their parents, and transparent rules with one child
replaced by it. -/
def condense (transparent : List String) : SyntaxTree → SyntaxTree
  | .leaf terminal => .leaf terminal
  | .node rule children => settle transparent rule (partsOf transparent children)

theorem settle_of_not_transparent {transparent : List String} {rule : String}
    (kept : transparent.contains rule = false) (children : List SyntaxTree) :
    settle transparent rule children = .node rule children := by
  unfold settle
  split
  · rw [kept]
    rfl
  · rfl

theorem leaves_settle (transparent : List String) (rule : String) (children : List SyntaxTree) :
    (settle transparent rule children).leaves = leavesOf children := by
  unfold settle
  split
  · split
    · rw [leavesOf, leavesOf, List.append_nil]
    · rw [leaves]
  · rw [leaves]

mutual

theorem leavesOf_parts (transparent : List String) : (tree : SyntaxTree) →
    leavesOf (tree.parts transparent) = tree.leaves
  | .leaf _ => by rw [parts, leavesOf, leavesOf, List.append_nil]
  | .node rule children => by
      rw [parts, leaves]
      split
      · exact leavesOf_partsOf transparent children
      · rw [leavesOf, leavesOf, List.append_nil, leaves_settle,
          leavesOf_partsOf transparent children]

theorem leavesOf_partsOf (transparent : List String) : (children : List SyntaxTree) →
    leavesOf (partsOf transparent children) = leavesOf children
  | [] => by rw [partsOf]
  | child :: rest => by
      have here := leavesOf_parts transparent child
      have later := leavesOf_partsOf transparent rest
      rw [leavesOf_eq] at here later
      rw [partsOf, leavesOf_eq, List.flatMap_append, here, later, leavesOf]

end

/-- Condensing leaves out rules, but no terminals. -/
theorem leaves_condense (transparent : List String) (tree : SyntaxTree) :
    (tree.condense transparent).leaves = tree.leaves := by
  cases tree with
  | leaf terminal => rfl
  | node rule children => rw [condense, leaves_settle, leavesOf_partsOf, leaves]

theorem derivations_eq (nameOf : Leaf → String) (children : List SyntaxTree) :
    derivations nameOf children = children.map (derivation nameOf) := by
  induction children with
  | nil => rfl
  | cons child rest ih => rw [derivations, ih, List.map_cons]

@[simp]
theorem symbol_derivation (nameOf : Leaf → String) (tree : SyntaxTree) :
    (tree.derivation nameOf).symbol = tree.symbol nameOf := by
  cases tree <;> rfl

mutual

theorem frontier_derivation (nameOf : Leaf → String) : (tree : SyntaxTree) →
    (tree.derivation nameOf).frontier = tree.leaves.map nameOf
  | .leaf _ => rfl
  | .node _ children => by
      rw [derivation, DerivationTree.frontier, frontiers_derivations nameOf children, leaves]

theorem frontiers_derivations (nameOf : Leaf → String) : (children : List SyntaxTree) →
    DerivationTree.frontiers (derivations nameOf children) = (leavesOf children).map nameOf
  | [] => rfl
  | child :: rest => by
      rw [derivations, DerivationTree.frontiers, frontier_derivation nameOf child,
        frontiers_derivations nameOf rest, leavesOf, List.map_append]

end

variable {table : RuleTable} {nameOf : Leaf → String}

theorem derived_node {rule : String} {children : List SyntaxTree} :
    ((node rule children).derivation nameOf).Derived table ↔
      ⟨rule, children.map (symbol nameOf)⟩ ∈ table.productions ∧
        ∀ child ∈ children, (child.derivation nameOf).Derived table := by
  rw [derivation, derivations_eq]
  constructor
  · intro derived
    obtain ⟨member, -, below⟩ := derived.cases_node
    exact ⟨member, fun child inside => below _ (List.mem_map_of_mem inside)⟩
  · intro ⟨member, below⟩
    refine .node member (by simp [Function.comp_def]) ?_
    intro tree listed
    obtain ⟨child, inside, rfl⟩ := List.mem_map.1 listed
    exact below child inside

end SyntaxTree

namespace Forest

variable {level : Nat → Nat} {forest : Forest} {height : Nat} {transparent : List String}
  {production : Production} {branches : List Branch}

/-- The tree of a production's value has the trees of what its symbols contribute. -/
theorem tree_reduce (leveled : Leveled level forest)
    (fitting : RowFits level forest height (production.symbols.zip branches)) :
    (forest.reduce transparent production branches).1.tree
        (forest.reduce transparent production branches).2 =
      SyntaxTree.settle transparent production.origin
        (((production.symbols.zip branches).flatMap forest.contribution).map forest.tree) := by
  have leveled' := leveled_assemble leveled fitting
  have listed := children_assemble fitting
  have kept : ∀ branch ∈ (production.symbols.zip branches).flatMap forest.contribution,
      (forest.assemble (production.symbols.zip branches)).1.tree branch = forest.tree branch :=
    fun branch member => tree_assemble leveled fitting member
  have node : (forest.assemble (production.symbols.zip branches)).1.tree
      (.node production.origin (forest.assemble (production.symbols.zip branches)).2) =
      .node production.origin
        (((production.symbols.zip branches).flatMap forest.contribution).map forest.tree) := by
    rw [leveled'.tree_node, listed, List.map_congr_left kept]
  rw [reduce_eq fitting.gatherable]
  simp only [settle, listed]
  match (production.symbols.zip branches).flatMap forest.contribution, kept, node with
  | [], _, node => exact node
  | first :: second :: rest, _, node => exact node
  | [child], kept, node =>
      simp only [List.map_cons, List.map_nil, SyntaxTree.settle]
      split
      · exact kept child List.mem_cons_self
      · exact node

/-- The value of a symbol is the condensed tree of a derivation of the symbol. -/
structure Shows (table : RuleTable) (nameOf : Leaf → String) (transparent : List String)
    (forest : Forest) (tree : SyntaxTree) (value : String × Branch) : Prop where
  derived : (tree.derivation nameOf).Derived table
  symbol : tree.symbol nameOf = value.1
  condensed : forest.tree value.2 = tree.condense transparent

variable {table : RuleTable} {nameOf : Leaf → String} {tree : SyntaxTree} {value : String × Branch}

theorem Shows.map_contribution (leveled : Leveled level forest)
    (inlinable : ∀ production ∈ table.productions, isInlined production.origin = true →
      transparent.contains production.origin = false)
    (shown : Shows table nameOf transparent forest tree value) :
    (forest.contribution value).map forest.tree = tree.parts transparent := by
  obtain ⟨derived, symbol, condensed⟩ := shown
  obtain ⟨name, branch⟩ := value
  subst symbol
  cases tree with
  | leaf terminal =>
      cases branch with
      | leaf other =>
          rw [contribution, List.map_singleton, condensed]
          rfl
      | node rule list =>
          rw [leveled.tree_node] at condensed
          cases condensed
  | node rule children =>
      rw [SyntaxTree.parts]
      by_cases inlined : isInlined rule = true
      · have kept := inlinable _ (SyntaxTree.derived_node.1 derived).1 inlined
        rw [SyntaxTree.condense, SyntaxTree.settle_of_not_transparent kept] at condensed
        cases branch with
        | leaf other =>
            rw [tree, unfold_leaf] at condensed
            cases condensed
        | node named list =>
            rw [leveled.tree_node] at condensed
            have name : (SyntaxTree.node rule children).symbol nameOf = rule := rfl
            rw [contribution, name, if_pos inlined, if_pos inlined]
            exact (SyntaxTree.node.inj condensed).2
      · have alone : forest.contribution (rule, branch) = [branch] := by
          cases branch with
          | leaf other => rfl
          | node named list => rw [contribution, if_neg inlined]
        have name : (SyntaxTree.node rule children).symbol nameOf = rule := rfl
        rw [name, alone, List.map_singleton, condensed, if_neg inlined]
        rfl

section Row

variable {trees : List SyntaxTree} {row : List (String × Branch)}
  (shown : List.Forall₂ (Shows table nameOf transparent forest) trees row)

include shown

theorem map_symbol_of_shows : trees.map (SyntaxTree.symbol nameOf) = row.map (·.1) := by
  induction shown with
  | nil => rfl
  | cons head _ ih => rw [List.map_cons, List.map_cons, head.symbol, ih]

theorem derived_of_shows : ∀ tree ∈ trees, (tree.derivation nameOf).Derived table := by
  induction shown with
  | nil => simp
  | cons head _ ih => exact List.forall_mem_cons.2 ⟨head.derived, ih⟩

theorem map_contributions_of_shows (leveled : Leveled level forest)
    (inlinable : ∀ production ∈ table.productions, isInlined production.origin = true →
      transparent.contains production.origin = false) :
    (row.flatMap forest.contribution).map forest.tree =
      SyntaxTree.partsOf transparent trees := by
  induction shown with
  | nil => rfl
  | cons head _ ih =>
      rw [List.flatMap_cons, List.map_append, head.map_contribution leveled inlinable, ih,
        SyntaxTree.partsOf]

theorem shows_of_tree_eq {grown : Forest}
    (same : ∀ value ∈ row, grown.tree value.2 = forest.tree value.2) :
    List.Forall₂ (Shows table nameOf transparent grown) trees row := by
  induction shown with
  | nil => exact .nil
  | cons head _ ih =>
      rw [List.forall_mem_cons] at same
      exact .cons ⟨head.derived, head.symbol, same.1.trans head.condensed⟩ (ih same.2)

end Row

/-- The values of a row show derivations whose leaves, from left to right, are those `read`, and no
two of them share a list. -/
structure Displays (table : RuleTable) (nameOf : Leaf → String) (transparent : List String)
    (read : List Leaf) (level : Nat → Nat) (forest : Forest) (row : List (String × Branch)) :
    Prop where
  leveled : Leveled level forest
  fits : RowFits level forest 0 row
  unshared : forest.Unshared row
  trees : ∃ trees : List SyntaxTree,
    List.Forall₂ (Shows table nameOf transparent forest) trees row ∧
      trees.flatMap SyntaxTree.leaves = read

namespace Displays

variable {read : List Leaf} {row below : List (String × Branch)}

theorem nil (forest : Forest) (leveled : Leveled level forest) :
    Displays table nameOf transparent [] level forest [] where
  leveled := leveled
  fits := trivial
  unshared := .nil
  trees := ⟨[], .nil, rfl⟩

theorem leaf (displays : Displays table nameOf transparent read level forest row)
    (terminal : Leaf) :
    Displays table nameOf transparent (read ++ [terminal]) level forest
      (row ++ [(nameOf terminal, .leaf terminal)]) where
  leveled := displays.leveled
  fits := rowFits_leaf _ _ displays.fits
  unshared := unshared_leaf _ _ displays.unshared
  trees := by
    obtain ⟨trees, shown, leaves⟩ := displays.trees
    refine ⟨trees ++ [.leaf terminal], List.rel_append shown (.cons ⟨.leaf _, rfl, ?_⟩ .nil), ?_⟩
    · simp [tree, SyntaxTree.condense]
    · simp [leaves, SyntaxTree.leaves]

/-- A reduction puts the node of the production over the derivations of its symbols. -/
theorem reduce
    (displays : Displays table nameOf transparent read level forest
      (below ++ production.symbols.zip branches))
    (member : production ∈ table.productions)
    (sized : branches.length = production.symbols.length)
    (inlinable : ∀ production ∈ table.productions, isInlined production.origin = true →
      production.symbols ≠ [] ∧ transparent.contains production.origin = false) :
    Displays table nameOf transparent read (raised level forest below.length)
      (forest.reduce transparent production branches).1
      (below ++ [(production.origin, (forest.reduce transparent production branches).2)]) := by
  obtain ⟨leveled, fits, unshared, trees, shown, leaves⟩ := displays
  obtain ⟨rest, taken⟩ := rowFits_append.1 fits
  have carried : Carried _ _ _ _ (forest.reduce transparent production branches).1 _ :=
    carried_reduce leveled fits sized (inlinable production member)
  refine ⟨carried.leveled, carried.fits, (carried.unshared unshared).1, ?_⟩
  have lower := List.forall₂_take_append _ _ _ shown
  have upper := List.forall₂_drop_append _ _ _ shown
  have kept : ∀ value ∈ below,
      (forest.reduce transparent production branches).1.tree value.2 = forest.tree value.2 := by
    intro value listed
    obtain ⟨above, -, fit⟩ := exists_fits_of_mem rest listed
    exact leveled.tree_congr carried.growth.extended.size_le
      (fun list reaches => leveled.lt_size_of_reaches fit reaches)
      (fun list => children_reduce_of_unshared leveled fits unshared listed)
  have symbols : (trees.drop below.length).map (SyntaxTree.symbol nameOf) =
      production.symbols := by
    rw [map_symbol_of_shows upper]
    exact List.map_fst_zip (Nat.le_of_eq sized.symm)
  refine ⟨trees.take below.length ++ [.node production.origin (trees.drop below.length)],
    List.rel_append (shows_of_tree_eq lower kept) (.cons ⟨?_, rfl, ?_⟩ .nil), ?_⟩
  · refine SyntaxTree.derived_node.2 ⟨?_, derived_of_shows upper⟩
    rw [symbols]
    exact member
  · rw [tree_reduce leveled taken, map_contributions_of_shows upper leveled
      fun production member inlined => (inlinable production member inlined).2]
    rfl
  · rw [← leaves, List.flatMap_append, List.flatMap_singleton, SyntaxTree.leaves_node,
      ← List.flatMap_append, List.take_append_drop]

end Displays

end Forest

end Typeahead
