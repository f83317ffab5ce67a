import Typeahead.Proofs.Derivation

namespace Typeahead

/-!
Derivation trees.  A node is found by its address, the numbers of the children on the way down to
it; what a tree yields falls into what stands on the left of a node, what the node's own tree yields
and what comes later.
-/

/-- A symbol that is kept, or a production with a tree for each of its symbols. -/
inductive DerivationTree where
  | leaf (symbol : String)
  | node (production : Production) (children : List DerivationTree)

namespace DerivationTree

/-- The symbol that a tree is derived from. -/
def symbol : DerivationTree → String
  | .leaf symbol => symbol
  | .node production _ => production.origin

mutual

/-- The symbols of the leaves from left to right. -/
def frontier : DerivationTree → List String
  | .leaf symbol => [symbol]
  | .node _ children => frontiers children

def frontiers : List DerivationTree → List String
  | [] => []
  | child :: rest => child.frontier ++ frontiers rest

end

/-- The node at an address. -/
def at? : DerivationTree → List Nat → Option DerivationTree
  | tree, [] => some tree
  | .leaf _, _ :: _ => none
  | .node _ children, i :: address => children[i]?.bind (·.at? address)

/-- The symbols of the leaves on the left of the node at an address. -/
def leftOf : DerivationTree → List Nat → List String
  | _, [] => []
  | .leaf _, _ :: _ => []
  | .node _ children, i :: address =>
      (children.take i).flatMap frontier ++ children[i]?.elim [] (·.leftOf address)

/-- The tree with another one in place of the node at an address. -/
def graft : DerivationTree → List Nat → DerivationTree → DerivationTree
  | _, [], scion => scion
  | .leaf symbol, _ :: _, _ => .leaf symbol
  | .node production children, i :: address, scion =>
      .node production (children.modify i (·.graft address scion))

theorem frontiers_eq (children : List DerivationTree) :
    frontiers children = children.flatMap frontier := by
  induction children with
  | nil => rfl
  | cons child rest ih => rw [frontiers, ih, List.flatMap_cons]

@[simp]
theorem frontier_node (production : Production) (children : List DerivationTree) :
    (node production children).frontier = children.flatMap frontier := by
  rw [frontier, frontiers_eq]

@[simp]
theorem frontier_leaf (symbol : String) : (leaf symbol).frontier = [symbol] := rfl

variable {tree found scion : DerivationTree} {upper lower address : List Nat}
  {production : Production}

section Children

variable {child : DerivationTree} {before after : List DerivationTree}

theorem at?_child : (node production (before ++ child :: after)).at? (before.length :: address) =
    child.at? address := by
  simp [at?]

theorem leftOf_child :
    (node production (before ++ child :: after)).leftOf (before.length :: address) =
      before.flatMap frontier ++ child.leftOf address := by
  simp [leftOf]

theorem graft_child :
    (node production (before ++ child :: after)).graft (before.length :: address) scion =
      .node production (before ++ child.graft address scion :: after) := by
  have inside : before.length < (before ++ child :: after).length := by simp
  rw [graft, List.modify_eq_take_cons_drop inside]
  simp

end Children

/-- A node below the root stands below one of its children. -/
theorem exists_child_of_at? {i : Nat} (reached : tree.at? (i :: address) = some found) :
    ∃ production before child after, tree = .node production (before ++ child :: after) ∧
      i = before.length ∧ child.at? address = some found := by
  cases tree with
  | leaf symbol => cases reached
  | node production children =>
      obtain ⟨child, listed, below⟩ := Option.bind_eq_some_iff.1 reached
      obtain ⟨inside, rfl⟩ := List.getElem?_eq_some_iff.1 listed
      refine ⟨production, children.take i, children[i], children.drop (i + 1), ?_, ?_, below⟩
      · rw [← List.drop_eq_getElem_cons inside, List.take_append_drop]
      · rw [List.length_take_of_le (Nat.le_of_lt inside)]

theorem at?_append (tree : DerivationTree) (upper lower : List Nat) :
    tree.at? (upper ++ lower) = (tree.at? upper).bind (·.at? lower) := by
  induction upper generalizing tree with
  | nil => rfl
  | cons i upper ih =>
      cases tree with
      | leaf symbol => rfl
      | node production children =>
          rw [List.cons_append, at?, at?]
          cases children[i]? with
          | none => rfl
          | some child => exact ih child

theorem leftOf_append (reached : tree.at? upper = some found) (lower : List Nat) :
    tree.leftOf (upper ++ lower) = tree.leftOf upper ++ found.leftOf lower := by
  induction upper generalizing tree with
  | nil =>
      obtain rfl := Option.some.inj reached
      simp [leftOf]
  | cons i upper ih =>
      obtain ⟨production, before, child, after, rfl, rfl, below⟩ := exists_child_of_at? reached
      rw [List.cons_append, leftOf_child, leftOf_child, ih below, List.append_assoc]

theorem exists_frontier_eq (reached : tree.at? address = some found) :
    ∃ later, tree.frontier = tree.leftOf address ++ found.frontier ++ later := by
  induction address generalizing tree with
  | nil =>
      obtain rfl := Option.some.inj reached
      exact ⟨[], by simp [leftOf]⟩
  | cons i address ih =>
      obtain ⟨production, before, child, after, rfl, rfl, below⟩ := exists_child_of_at? reached
      obtain ⟨later, same⟩ := ih below
      refine ⟨later ++ after.flatMap frontier, ?_⟩
      simp [leftOf_child, same]

/-- Above the place of a graft stand the old nodes, with the graft below them. -/
theorem at?_graft (reached : tree.at? upper = some found) (lower : List Nat)
    (scion : DerivationTree) :
    (tree.graft (upper ++ lower) scion).at? upper = some (found.graft lower scion) := by
  induction upper generalizing tree with
  | nil =>
      obtain rfl := Option.some.inj reached
      rfl
  | cons i upper ih =>
      obtain ⟨production, before, child, after, rfl, rfl, below⟩ := exists_child_of_at? reached
      rw [List.cons_append, graft_child, at?_child, ih below]

theorem at?_graft_self (reached : tree.at? address = some found) :
    (tree.graft address scion).at? address = some scion := by
  simpa [graft] using at?_graft reached [] scion

theorem leftOf_graft (reached : tree.at? address = some found) (lower : List Nat) :
    (tree.graft address scion).leftOf (address ++ lower) =
      tree.leftOf address ++ scion.leftOf lower := by
  rw [leftOf_append (at?_graft_self reached)]
  congr 1
  induction address generalizing tree with
  | nil => rfl
  | cons i address ih =>
      obtain ⟨production, before, child, after, rfl, rfl, below⟩ := exists_child_of_at? reached
      rw [graft_child, leftOf_child, leftOf_child, ih below]

theorem symbol_graft (reached : tree.at? address = some found)
    (same : scion.symbol = found.symbol) : (tree.graft address scion).symbol = tree.symbol := by
  cases address with
  | nil =>
      obtain rfl := Option.some.inj reached
      exact same
  | cons i address =>
      obtain ⟨production, before, child, after, rfl, rfl, -⟩ := exists_child_of_at? reached
      rw [graft_child]
      rfl

/-- Every node is a production of the table with one tree for each of its symbols. -/
inductive Derived (table : RuleTable) : DerivationTree → Prop where
  | leaf (symbol : String) : Derived table (.leaf symbol)
  | node {production : Production} {children : List DerivationTree}
      (member : production ∈ table.productions)
      (symbols : children.map symbol = production.symbols)
      (below : ∀ child ∈ children, Derived table child) : Derived table (.node production children)

namespace Derived

variable {table : RuleTable}

theorem cases_node {children : List DerivationTree}
    (derived : (DerivationTree.node production children).Derived table) :
    production ∈ table.productions ∧ children.map symbol = production.symbols ∧
      ∀ child ∈ children, child.Derived table := by
  cases derived with
  | node member symbols below => exact ⟨member, symbols, below⟩

theorem yields_row {children : List DerivationTree}
    (each : ∀ child ∈ children, table.Yields [child.symbol] child.frontier) :
    table.Yields (children.map symbol) (children.flatMap frontier) := by
  induction children with
  | nil => exact .nil
  | cons child rest ih =>
      rw [List.forall_mem_cons] at each
      exact each.1.append (ih each.2)

/-- The symbol of a tree yields its frontier. -/
theorem yields (derived : tree.Derived table) : table.Yields [tree.symbol] tree.frontier := by
  induction derived with
  | leaf symbol => exact .refl [symbol]
  | @node production children member symbols below ih =>
      have inner := yields_row ih
      rw [symbols] at inner
      simpa [symbol] using RuleTable.Yields.expand member inner .nil

theorem graft (derived : tree.Derived table) (reached : tree.at? address = some found)
    (grafted : scion.Derived table) (same : scion.symbol = found.symbol) :
    (tree.graft address scion).Derived table := by
  induction address generalizing tree with
  | nil => exact grafted
  | cons i address ih =>
      obtain ⟨production, before, child, after, rfl, rfl, below⟩ := exists_child_of_at? reached
      obtain ⟨member, symbols, children⟩ := derived.cases_node
      rw [List.forall_mem_append, List.forall_mem_cons] at children
      rw [graft_child]
      refine .node member ?_ ?_
      · rw [← symbols]
        simp [symbol_graft below same]
      · rw [List.forall_mem_append, List.forall_mem_cons]
        exact ⟨children.1, ih children.2.1 below, children.2.2⟩

end Derived

/-- What a row of symbols yields is the frontier of a row of trees. -/
theorem exists_trees_of_yields {table : RuleTable} {row out : List String}
    (yields : table.Yields row out) :
    ∃ trees : List DerivationTree, trees.map symbol = row ∧
      (∀ tree ∈ trees, tree.Derived table) ∧ trees.flatMap frontier = out := by
  induction yields with
  | nil => exact ⟨[], rfl, by simp, rfl⟩
  | keep symbol _ ih =>
      obtain ⟨trees, rfl, derived, rfl⟩ := ih
      exact ⟨.leaf symbol :: trees, rfl, List.forall_mem_cons.2 ⟨.leaf symbol, derived⟩, rfl⟩
  | @expand production row middle out member _ _ innerIH ih =>
      obtain ⟨children, symbols, inner, rfl⟩ := innerIH
      obtain ⟨trees, rfl, derived, rfl⟩ := ih
      exact ⟨.node production children :: trees, rfl,
        List.forall_mem_cons.2 ⟨.node member symbols inner, derived⟩, by simp⟩

/-- In a derivation tree from the start the symbol is the leaf at an address, with `front` on its
left. -/
structure Shows (table : RuleTable) (tree : DerivationTree) (address : List Nat)
    (front : List String) (symbol : String) : Prop where
  derived : tree.Derived table
  start : tree.symbol = table.start
  leaf : tree.at? address = some (.leaf symbol)
  left : tree.leftOf address = front
  frontier : ∃ later, tree.frontier = front ++ symbol :: later

/-- A preferred rule other than the root stands above the node at an address and yields nothing on
the left of that node. -/
def HiddenBy (preferred : List String) (tree : DerivationTree) (address : List Nat) : Prop :=
  ∃ upper lower node, address = upper ++ lower ∧ upper ≠ [] ∧ lower ≠ [] ∧
    tree.at? upper = some node ∧ node.leftOf lower = [] ∧ node.symbol ∈ preferred

theorem not_hiddenBy_root {preferred : List String} : ¬ tree.HiddenBy preferred [] := by
  intro hidden
  obtain ⟨upper, lower, node, split, below, -⟩ := hidden
  exact below (List.append_eq_nil_iff.1 split.symm).1

theorem HiddenBy.child {preferred : List String} {child : DerivationTree}
    (hidden : child.HiddenBy preferred address) (before after : List DerivationTree) :
    (node production (before ++ child :: after)).HiddenBy preferred (before.length :: address) := by
  obtain ⟨upper, lower, found, rfl, -, inside, reached, empty, wanted⟩ := hidden
  exact ⟨before.length :: upper, lower, found, rfl, List.cons_ne_nil _ _, inside,
    by rw [at?_child, reached], empty, wanted⟩

namespace Shows

variable {table : RuleTable} {front : List String} {symbol : String}

theorem root (table : RuleTable) : Shows table (.leaf table.start) [] [] table.start where
  derived := .leaf _
  start := rfl
  leaf := rfl
  left := rfl
  frontier := ⟨[], rfl⟩

/-- The leaf of a tree gives way to a production.  A node that hides what stands in the production
hid the leaf already or is the production itself. -/
theorem extend {left between right : List String}
    (shows_ : Shows table tree address front production.origin)
    (member : production ∈ table.productions)
    (place : production.symbols = left ++ symbol :: right) (passed : table.Yields left between) :
    ∃ grown, Shows table grown (address ++ [left.length]) (front ++ between) symbol ∧
      ∀ preferred, grown.HiddenBy preferred (address ++ [left.length]) →
        between = [] ∧ (tree.HiddenBy preferred address ∨
          address ≠ [] ∧ production.origin ∈ preferred) := by
  obtain ⟨trees, rfl, derived, rfl⟩ := exists_trees_of_yields passed
  let scion : DerivationTree := .node production (trees ++ .leaf symbol :: right.map .leaf)
  have grafted : scion.Derived table := by
    refine .node member ?_ ?_
    · rw [place]
      simp [Function.comp_def, DerivationTree.symbol]
    · rw [List.forall_mem_append, List.forall_mem_cons]
      refine ⟨derived, .leaf symbol, ?_⟩
      intro other listed
      obtain ⟨kept, -, rfl⟩ := List.mem_map.1 listed
      exact .leaf kept
  have leaf : (tree.graft address scion).at? (address ++ [trees.length]) =
      some (.leaf symbol) := by
    rw [at?_append, at?_graft_self shows_.leaf]
    simp [scion, at?]
  have own : scion.leftOf [trees.length] = trees.flatMap DerivationTree.frontier := by
    simp [scion, leftOf]
  have left : (tree.graft address scion).leftOf (address ++ [trees.length]) =
      front ++ trees.flatMap DerivationTree.frontier := by
    rw [leftOf_graft shows_.leaf, shows_.left, own]
  have same : scion.symbol = (DerivationTree.leaf production.origin).symbol := rfl
  rw [List.length_map]
  refine ⟨tree.graft address scion,
    ⟨shows_.derived.graft shows_.leaf grafted same, ?_, leaf, left, ?_⟩, ?_⟩
  · rw [symbol_graft shows_.leaf same]
    exact shows_.start
  · obtain ⟨later, frontier⟩ := exists_frontier_eq leaf
    exact ⟨later, by simp [frontier, left]⟩
  · intro preferred hidden
    obtain ⟨upper, lower, node, split, below, inside, reached, empty, wanted⟩ := hidden
    obtain rfl | ⟨lower, last, rfl⟩ := List.eq_nil_or_concat lower
    · exact absurd rfl inside
    · rw [List.concat_eq_append, ← List.append_assoc] at split
      obtain ⟨rfl, same'⟩ := List.append_inj' split rfl
      obtain rfl := List.singleton_inj.1 same'
      obtain ⟨old, above, onward⟩ :=
        Option.bind_eq_some_iff.1 ((at?_append tree upper lower).symm.trans shows_.leaf)
      rw [at?_graft above, Option.some.injEq] at reached
      subst reached
      rw [List.concat_eq_append, leftOf_graft onward, own] at empty
      rw [symbol_graft onward same] at wanted
      obtain ⟨nothing, passed⟩ := List.append_eq_nil_iff.1 empty
      refine ⟨passed, ?_⟩
      by_cases here : lower = []
      · subst here
        obtain rfl := Option.some.inj onward
        exact .inr ⟨by simpa using below, wanted⟩
      · exact .inl ⟨upper, lower, old, rfl, below, here, above, nothing, wanted⟩

/-- Whatever is open stands in a derivation tree. -/
theorem exists_of_opens (opens : table.Opens front symbol) :
    ∃ tree address, Shows table tree address front symbol := by
  induction opens with
  | start => exact ⟨_, _, .root table⟩
  | enter member place _ passed ih =>
      obtain ⟨tree, address, shows_⟩ := ih
      obtain ⟨grown, extended, -⟩ := shows_.extend member place passed
      exact ⟨grown, _, extended⟩

end Shows

end DerivationTree

end Typeahead
