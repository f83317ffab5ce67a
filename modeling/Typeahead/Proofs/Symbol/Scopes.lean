import Typeahead.Proofs.Symbol.Declaring

namespace Typeahead

/-!
Scopes of the symbol table and scopes of the tree.  The scopes around a symbol are opened by the
nodes above its own, and the symbols nested in a scope are those declared below its node.
-/

namespace Declarations

variable (declarations : Declarations) (tree : ParseTree)

/-- The nodes above a node that open scopes, the nearest first. -/
def outer (i : Nat) : List Nat := (tree.ancestors i).tail.filter (declarations.opens tree)

/-- Whether a node stands in the scope of another, or in one nested in it. -/
def nestedIn (scope i : Nat) : Bool :=
  (declarations.home? tree i).any fun home => decide (scope ∈ tree.ancestors home)

/-- Whether a node declares a symbol of a kind. -/
def declaresKind (kind : SymbolKind) (i : Nat) : Bool :=
  (declarations.ofNode? tree i).any fun declaration =>
    declaration.kind.isA kind && !declaration.isUnnamed tree i

/-- The name that a node declares. -/
def nameAt (i : Nat) : String :=
  match declarations.ofNode? tree i with
  | some declaration => declaration.nameIn tree i
  | none => ""

/-- The nodes among some that are visible from a node.  In the scope of a node these are the ones in
that scope and in those nested in it, and then the ones that stand in each scope around it, the
nearest first and the global one last; outside all scopes they are those that stand there. -/
def visible (nodes : List Nat) (i : Nat) : List Nat :=
  match declarations.owner? tree i with
  | none => nodes.filter fun j => declarations.home? tree j == none
  | some owner =>
      nodes.filter (declarations.nestedIn tree owner) ++
        ((declarations.outer tree owner).map some ++ [none]).flatMap fun home =>
          nodes.filter fun j => declarations.home? tree j == home

theorem visible_subset (nodes : List Nat) (i : Nat) :
    declarations.visible tree nodes i ⊆ nodes := by
  unfold visible
  split
  · exact List.filter_sublist.subset
  · refine List.append_subset.2 ⟨List.filter_sublist.subset, ?_⟩
    intro j member
    obtain ⟨home, -, here⟩ := List.mem_flatMap.1 member
    exact List.mem_of_mem_filter here

variable {declarations} {tree}

theorem declares_of_declaresKind {kind : SymbolKind} {i : Nat}
    (speaks : declarations.declaresKind tree kind i = true) :
    declarations.declares tree i = true := by
  unfold declaresKind at speaks
  unfold declares
  cases found : declarations.ofNode? tree i with
  | none => simp [found] at speaks
  | some declaration =>
      rw [found, Option.any_some, Bool.and_eq_true] at speaks
      exact speaks.2

end Declarations

namespace ParseTree.Rooted

open Declarations

variable {declarations : Declarations} {tree : ParseTree} (rooted : tree.Rooted) {i j : Nat}

include rooted

/-- Above the nearest scope around a node there are the other scopes around it. -/
theorem filter_opens_ancestors (reached : i ∈ tree.walk 0) {owner : Nat}
    (found : declarations.owner? tree i = some owner) :
    (tree.ancestors i).filter (declarations.opens tree) =
      owner :: declarations.outer tree owner := by
  have above := List.mem_of_find?_eq_some found
  have inside := ((rooted.mem_ancestors_iff reached).1 above).1
  obtain ⟨opens, before, after, split, closed⟩ := List.find?_eq_some_iff_append.1 found
  obtain ⟨line, climbs⟩ := rooted.exists_ancestors_eq reached above
  have distinct := rooted.nodup_ancestors reached
  have start := (rooted.ancestors_eq inside).1
  rw [start] at climbs
  rw [split] at distinct
  have fresh : owner ∉ before := by
    intro twice
    exact (List.disjoint_of_nodup_append distinct) twice List.mem_cons_self
  have fresh' : owner ∉ after := (List.nodup_cons.1 distinct.of_append_right).1
  obtain ⟨-, -, rfl⟩ := (List.append_cons_inj_of_notMem fresh fresh').1 (split.symm.trans climbs)
  have none : before.filter (declarations.opens tree) = [] := by
    rw [List.filter_eq_nil_iff]
    intro other member
    simpa using closed other member
  rw [split, List.filter_append, none, List.nil_append, List.filter_cons_of_pos opens, outer,
    start, List.tail_cons]

/-- The scopes around a node are the one that it stands in and those around that. -/
theorem outer_eq (reached : i ∈ tree.walk 0) : declarations.outer tree i =
    match declarations.home? tree i with
    | none => []
    | some home => home :: declarations.outer tree home := by
  obtain ⟨climbs, inside⟩ := rooted.ancestors_eq reached
  rw [outer, climbs, List.tail_cons, home?]
  cases held : tree.parent? i with
  | none => rfl
  | some parent =>
      rw [Option.elim_some, Option.bind_some]
      cases found : declarations.owner? tree parent with
      | none =>
          rw [owner?, List.find?_eq_none] at found
          simpa [List.filter_eq_nil_iff] using found
      | some owner => exact rooted.filter_opens_ancestors (inside parent held) found

theorem mem_outer_iff (reached : i ∈ tree.walk 0) : j ∈ declarations.outer tree i ↔
    j ∈ tree.ancestors i ∧ j ≠ i ∧ declarations.opens tree j = true := by
  have distinct := rooted.nodup_ancestors reached
  have climbs := (rooted.ancestors_eq reached).1
  rw [climbs, List.nodup_cons] at distinct
  rw [outer, List.mem_filter, climbs, List.tail_cons, List.mem_cons]
  constructor
  · intro ⟨above, opens⟩
    exact ⟨.inr above, fun same => distinct.1 (same ▸ above), opens⟩
  · intro ⟨above, different, opens⟩
    exact ⟨above.resolve_left different, opens⟩

theorem home?_mem_outer (reached : i ∈ tree.walk 0) {home : Nat}
    (found : declarations.home? tree i = some home) : home ∈ declarations.outer tree i := by
  rw [rooted.outer_eq reached, found]
  exact List.mem_cons_self

/-- A node stands in a scope, or in one nested in it, just if the scope is around it. -/
theorem nestedIn_iff (reached : i ∈ tree.walk 0) {scope : Nat}
    (opens : declarations.opens tree scope = true) :
    declarations.nestedIn tree scope i = true ↔ scope ∈ declarations.outer tree i := by
  rw [nestedIn, rooted.outer_eq reached]
  cases found : declarations.home? tree i with
  | none => simp
  | some home =>
      have around := (rooted.mem_outer_iff reached).1 (rooted.home?_mem_outer reached found)
      have inside := ((rooted.mem_ancestors_iff reached).1 around.1).1
      rw [Option.any_some, decide_eq_true_iff]
      simp only [List.mem_cons, rooted.mem_outer_iff inside]
      constructor
      · intro above
        by_cases same : scope = home
        · exact .inl same
        · exact .inr ⟨above, same, opens⟩
      · intro around
        rcases around with rfl | ⟨above, -, -⟩
        · rw [(rooted.ancestors_eq inside).1]
          exact List.mem_cons_self
        · exact above

/-! ### The table -/

theorem exists_entry (reached : i ∈ tree.walk 0) (speaks : declarations.declares tree i = true) :
    ∃ declaration, declarations.ofNode? tree i = some declaration ∧
      (tree.symbolTable declarations).symbol? (declarations.rank tree i) =
        some (declarations.entry tree (tree.walk 0) i declaration) := by
  cases found : declarations.ofNode? tree i with
  | none => simp [declares, found] at speaks
  | some declaration =>
      exact ⟨declaration, rfl, rooted.records_symbolTable.entries i reached declaration found speaks⟩

theorem children_rank (reached : i ∈ tree.walk 0) (speaks : declarations.declares tree i = true) :
    (tree.symbolTable declarations).children (declarations.rank tree i) =
      (declarations.held tree (tree.walk 0) (some i)).map (declarations.rank tree) := by
  obtain ⟨declaration, -, entry⟩ := rooted.exists_entry reached speaks
  rw [SymbolTable.children, entry]
  rfl

theorem children_global : (tree.symbolTable declarations).children 0 =
    (declarations.held tree (tree.walk 0) none).map (declarations.rank tree) := by
  rw [SymbolTable.children, rooted.records_symbolTable.global]

theorem enclosingUpTo_global (fuel : Nat) :
    (tree.symbolTable declarations).enclosingUpTo fuel 0 = [] := by
  cases fuel with
  | zero => rfl
  | succ fuel =>
      rw [SymbolTable.enclosingUpTo, SymbolTable.parent?, rooted.records_symbolTable.global]
      rfl

theorem rank_home?_lt (reached : i ∈ tree.walk 0) (speaks : declarations.declares tree i = true)
    {home : Nat} (found : declarations.home? tree i = some home) :
    declarations.rank tree home < declarations.rank tree i := by
  obtain ⟨seen, rest, split⟩ := List.append_of_mem reached
  obtain ⟨before, opens⟩ := rooted.mem_of_home? split found
  rw [rooted.rank_eq split speaks]
  exact rooted.rank_lt split before (declares_of_opens opens)

theorem enclosingUpTo_rank (reached : i ∈ tree.walk 0)
    (speaks : declarations.declares tree i = true) {fuel : Nat}
    (enough : declarations.rank tree i ≤ fuel) :
    (tree.symbolTable declarations).enclosingUpTo fuel (declarations.rank tree i) =
      (declarations.outer tree i).map (declarations.rank tree) ++ [0] := by
  induction fuel generalizing i with
  | zero => cases enough
  | succ fuel ih =>
      obtain ⟨declaration, -, entry⟩ := rooted.exists_entry reached speaks
      have parent : (tree.symbolTable declarations).parent? (declarations.rank tree i) =
          some (declarations.rankOf tree (declarations.home? tree i)) := by
        rw [SymbolTable.parent?, entry]
        rfl
      rw [SymbolTable.enclosingUpTo, parent, rooted.outer_eq reached]
      cases found : declarations.home? tree i with
      | none =>
          simp only [rankOf]
          rw [rooted.enclosingUpTo_global]
          rfl
      | some home =>
          have around := (rooted.mem_outer_iff reached).1 (rooted.home?_mem_outer reached found)
          have inside := ((rooted.mem_ancestors_iff reached).1 around.1).1
          have lower := rooted.rank_home?_lt reached speaks found
          simp only [rankOf]
          rw [ih inside (declares_of_opens around.2.2) (by omega)]
          rfl

theorem rank_lt_size_symbolTable (reached : i ∈ tree.walk 0)
    (speaks : declarations.declares tree i = true) :
    declarations.rank tree i < (tree.symbolTable declarations).symbols.size := by
  rw [rooted.records_symbolTable.size, rank]
  exact Nat.succ_lt_succ (List.idxOf_lt_length_of_mem (List.mem_filter.2 ⟨reached, speaks⟩))

/-- The scopes around a symbol are opened by the nodes above its own; the global one is the last. -/
theorem enclosing_rank (reached : i ∈ tree.walk 0) (speaks : declarations.declares tree i = true) :
    (tree.symbolTable declarations).enclosing (declarations.rank tree i) =
      (declarations.outer tree i).map (declarations.rank tree) ++ [0] :=
  rooted.enclosingUpTo_rank reached speaks
    (Nat.le_of_lt (rooted.rank_lt_size_symbolTable reached speaks))

theorem scopeFor?_eq (reached : i ∈ tree.walk 0) :
    (tree.symbolTable declarations).scopeFor? i =
      if declarations.opens tree i then some (declarations.rank tree i) else none := by
  rw [SymbolTable.scopeFor?, rooted.records_symbolTable.opened]
  cases found : (((tree.walk 0).filter (declarations.opens tree)).map fun i : Nat =>
      ((i : Int), declarations.rank tree i)).reverse.find? (·.1 == (i : Int)) with
  | none =>
      have closed : declarations.opens tree i = false := by
        rw [List.find?_eq_none] at found
        rw [Bool.eq_false_iff]
        intro opens
        refine found (i, declarations.rank tree i) ?_ (by simp)
        rw [List.mem_reverse]
        exact List.mem_map.2 ⟨i, List.mem_filter.2 ⟨reached, opens⟩, rfl⟩
      rw [closed]
      rfl
  | some pair =>
      have member := List.mem_of_find?_eq_some found
      rw [List.mem_reverse] at member
      obtain ⟨node, listed, rfl⟩ := List.mem_map.1 member
      have same : node = i := Int.ofNat.inj (by simpa using List.find?_some found)
      subst same
      rw [(List.mem_filter.1 listed).2]
      rfl

theorem resolveScope?_eq (reached : i ∈ tree.walk 0) :
    tree.resolveScope? (tree.symbolTable declarations) i =
      (declarations.owner? tree i).map (declarations.rank tree) := by
  have climbs : ∀ line : List Nat, line ⊆ tree.walk 0 →
      line.findSome? (fun j : Nat => (tree.symbolTable declarations).scopeFor? j) =
        (line.find? (declarations.opens tree)).map (declarations.rank tree) := by
    intro line inside
    induction line with
    | nil => rfl
    | cons j line ih =>
        rw [List.findSome?_cons, rooted.scopeFor?_eq (inside List.mem_cons_self), List.find?_cons]
        cases declarations.opens tree j with
        | true => rfl
        | false => exact ih fun other member => inside (List.mem_cons_of_mem _ member)
  refine climbs (tree.ancestors i) ?_
  intro j above
  exact ((rooted.mem_ancestors_iff reached).1 above).1

theorem held_walk_of_not_opens (closed : declarations.opens tree i = false) :
    declarations.held tree (tree.walk 0) (some i) = [] := by
  rw [held, List.filter_eq_nil_iff]
  intro j reached holds
  simp only [Bool.and_eq_true, beq_iff_eq] at holds
  have around := rooted.home?_mem_outer reached holds.2
  rw [((rooted.mem_outer_iff reached).1 around).2.2] at closed
  cases closed

theorem descendantsUpTo_of_not_opens (reached : i ∈ tree.walk 0)
    (speaks : declarations.declares tree i = true) (closed : declarations.opens tree i = false)
    (depth : Nat) :
    (tree.symbolTable declarations).descendantsUpTo depth (declarations.rank tree i) = [] := by
  cases depth with
  | zero => rfl
  | succ depth =>
      rw [SymbolTable.descendantsUpTo, rooted.children_rank reached speaks,
        rooted.held_walk_of_not_opens closed]
      rfl

end ParseTree.Rooted

namespace ParseTree.Outlines

open Declarations

variable {declarations : Declarations} {tree : ParseTree} {root outline : Outline}
  (outlines : tree.Outlines root) (within : outline.Within root)

include outlines within

/-- What holds only of nodes strictly below a node is found there. -/
theorem filter_walk {p : Nat → Bool}
    (below : ∀ j ∈ tree.walk 0, p j = true → outline.place ∈ tree.ancestors j ∧ outline.place ≠ j) :
    (tree.walk 0).filter p = (outline.children.flatMap Outline.places).filter p := by
  obtain ⟨before, after, split⟩ := within.exists_places
  have walk : tree.walk 0 = before ++ outline.places ++ after := outlines.walk_eq.trans split
  have distinct := outlines.rooted.nodup_walk
  rw [walk] at distinct
  have part : ∀ j ∈ tree.walk 0, p j = true → j ∈ outline.places := by
    intro j reached holds
    rw [← outlines.walk_place within]
    exact ((outlines.rooted.mem_ancestors_iff reached).1 (below j reached holds).1).2
  have front : before.filter p = [] := by
    rw [List.filter_eq_nil_iff]
    intro j member holds
    exact (List.disjoint_of_nodup_append distinct.of_append_left) member
      (part j (by simp [walk, member]) holds)
  have back : after.filter p = [] := by
    rw [List.filter_eq_nil_iff]
    intro j member holds
    exact (List.disjoint_of_nodup_append distinct)
      (List.mem_append_right _ (part j (by simp [walk, member]) holds)) member
  have own : p outline.place = false := by
    rw [Bool.eq_false_iff]
    intro holds
    exact (below _ (outlines.mem_walk within) holds).2 rfl
  rw [walk, List.filter_append, List.filter_append, front, back, List.append_nil, List.nil_append,
    outline.places_eq, List.filter_cons_of_neg (by simp [own])]

/-- What stands in a node's scope is declared below it. -/
theorem held_walk : declarations.held tree (tree.walk 0) (some outline.place) =
    outline.children.flatMap fun child =>
      declarations.held tree child.places (some outline.place) := by
  have found := outlines.filter_walk within (p := fun i =>
    declarations.declares tree i && declarations.home? tree i == some outline.place) (by
      intro j reached holds
      simp only [Bool.and_eq_true, beq_iff_eq] at holds
      have around := outlines.rooted.home?_mem_outer reached holds.2
      obtain ⟨above, different, -⟩ := (outlines.rooted.mem_outer_iff reached).1 around
      exact ⟨above, different⟩)
  rw [List.filter_flatMap] at found
  exact found

theorem home?_child {child : Outline} (member : child ∈ outline.children) :
    declarations.home? tree child.place =
      if declarations.opens tree outline.place then some outline.place
      else declarations.home? tree outline.place := by
  rw [home?, outlines.parents outline within child member, Option.bind_some,
    outlines.rooted.owner?_eq (outlines.mem_walk within)]

theorem mem_ancestors_of_mem_child {child : Outline} (member : child ∈ outline.children) {j : Nat}
    (inside : j ∈ child.places) :
    j ∈ tree.walk 0 ∧ outline.place ∈ tree.ancestors j ∧ outline.place ≠ j := by
  have below : j ∈ outline.children.flatMap Outline.places :=
    List.mem_flatMap.2 ⟨child, member, inside⟩
  have distinct := outlines.nodup_places within
  rw [outline.places_eq, List.nodup_cons] at distinct
  obtain ⟨before, after, split⟩ := within.exists_places
  have reached : j ∈ tree.walk 0 := by
    rw [outlines.walk_eq, split, outline.places_eq]
    simp [below]
  refine ⟨reached, (outlines.rooted.mem_ancestors_iff reached).2
    ⟨outlines.mem_walk within, ?_⟩, fun same => distinct.1 (same ▸ below)⟩
  rw [outlines.walk_place within, outline.places_eq]
  exact List.mem_cons_of_mem _ below

/-- Below a node that opens a scope nothing stands in the scope that the node itself stands in. -/
theorem held_child (opens : declarations.opens tree outline.place = true) {child : Outline}
    (member : child ∈ outline.children) :
    declarations.held tree child.places (declarations.home? tree outline.place) = [] := by
  have rooted := outlines.rooted
  have known := outlines.mem_walk within
  rw [held, List.filter_eq_nil_iff]
  intro j inside holds
  simp only [Bool.and_eq_true, beq_iff_eq] at holds
  obtain ⟨reached, above, different⟩ := outlines.mem_ancestors_of_mem_child within member inside
  have around : outline.place ∈ declarations.outer tree j :=
    (rooted.mem_outer_iff reached).2 ⟨above, different, opens⟩
  have same : declarations.outer tree j = declarations.outer tree outline.place := by
    rw [rooted.outer_eq reached, rooted.outer_eq known, holds.2]
  rw [same, rooted.mem_outer_iff known] at around
  exact around.2.1 rfl

theorem held_places_of_opens (opens : declarations.opens tree outline.place = true) :
    declarations.held tree outline.places (declarations.home? tree outline.place) =
      [outline.place] := by
  rw [outline.places_eq, held, List.filter_cons_of_pos (by simp [declares_of_opens opens]),
    List.filter_flatMap]
  congr 1
  rw [List.flatMap_eq_nil_iff]
  intro child member
  exact outlines.held_child within opens member

theorem held_places_of_not_opens (closed : declarations.opens tree outline.place = false) :
    declarations.held tree outline.places (declarations.home? tree outline.place) =
      [outline.place].filter (declarations.declares tree) ++ outline.children.flatMap fun child =>
        declarations.held tree child.places (declarations.home? tree child.place) := by
  have same : (outline.children.flatMap fun child =>
      declarations.held tree child.places (declarations.home? tree child.place)) =
      outline.children.flatMap fun child =>
        declarations.held tree child.places (declarations.home? tree outline.place) := by
    apply List.flatMap_congr
    intro child member
    rw [outlines.home?_child within member, closed]
    rfl
  rw [same, outline.places_eq, ← List.singleton_append, held, List.filter_append,
    List.filter_flatMap]
  congr 1
  simp [List.filter_singleton]

omit within in
/-- The symbols that stand in the scope of a part of the tree, each with those nested in it, are all
those that the part declares. -/
theorem flatMap_descendantsUpTo (depicts : tree.Depicts outline) (within : outline.Within root)
    {depth : Nat}
    (enough : (outline.places.filter (declarations.declares tree)).length ≤ depth + 1) :
    ((declarations.held tree outline.places (declarations.home? tree outline.place)).flatMap
        fun i => declarations.rank tree i ::
          (tree.symbolTable declarations).descendantsUpTo depth (declarations.rank tree i)) =
      (outline.places.filter (declarations.declares tree)).map (declarations.rank tree) := by
  have rooted := outlines.rooted
  induction depicts generalizing depth with
  | @mk outline _ _ _ _ _ ih =>
      have known := outlines.mem_walk within
      have below : ∀ depth, ((outline.children.flatMap Outline.places).filter
            (declarations.declares tree)).length ≤ depth + 1 →
          (outline.children.flatMap fun child =>
            (declarations.held tree child.places (declarations.home? tree child.place)).flatMap
              fun i => declarations.rank tree i ::
                (tree.symbolTable declarations).descendantsUpTo depth (declarations.rank tree i)) =
          ((outline.children.flatMap Outline.places).filter (declarations.declares tree)).map
            (declarations.rank tree) := by
        intro depth enough
        rw [List.filter_flatMap, List.map_flatMap]
        apply List.flatMap_congr
        intro child member
        refine ih child member ((Outline.within_of_mem_children member).trans within) ?_
        obtain ⟨front, back, split⟩ := List.append_of_mem member
        rw [split] at enough
        simp only [List.flatMap_append, List.flatMap_cons, List.filter_append,
          List.length_append] at enough
        omega
      cases opens : declarations.opens tree outline.place with
      | true =>
          -- the node stands alone in its scope, and all else is nested in it
          have speaks := declares_of_opens opens
          rw [outline.places_eq, List.filter_cons_of_pos speaks, List.length_cons] at enough
          rw [outlines.held_places_of_opens within opens, List.flatMap_singleton,
            outline.places_eq, List.filter_cons_of_pos speaks, List.map_cons]
          congr 1
          cases depth with
          | zero =>
              have empty : (outline.children.flatMap Outline.places).filter
                  (declarations.declares tree) = [] := List.length_eq_zero_iff.1 (by omega)
              rw [empty]
              rfl
          | succ depth =>
              rw [← below depth (by omega), SymbolTable.descendantsUpTo,
                rooted.children_rank known speaks, outlines.held_walk within, List.flatMap_map,
                List.flatMap_assoc]
              apply List.flatMap_congr
              intro child member
              rw [outlines.home?_child within member, opens]
              rfl
      | false =>
          have split : outline.places =
              [outline.place] ++ outline.children.flatMap Outline.places := outline.places_eq
          rw [split, List.filter_append, List.length_append] at enough
          rw [outlines.held_places_of_not_opens within opens, List.flatMap_append,
            List.flatMap_assoc, below depth (by omega), split, List.filter_append, List.map_append]
          congr 1
          cases speaks : declarations.declares tree outline.place with
          | false => simp [speaks]
          | true => simp [speaks, rooted.descendantsUpTo_of_not_opens known speaks opens]

theorem descendants_rank (opens : declarations.opens tree outline.place = true) :
    (tree.symbolTable declarations).descendants (declarations.rank tree outline.place) =
      ((outline.children.flatMap Outline.places).filter (declarations.declares tree)).map
        (declarations.rank tree) := by
  have part : outline.places.Sublist (tree.walk 0) := by
    obtain ⟨before, after, split⟩ := within.exists_places
    rw [outlines.walk_eq, split, List.append_assoc]
    exact (List.sublist_append_left _ _).trans (List.sublist_append_right _ _)
  have enough : (outline.places.filter (declarations.declares tree)).length ≤
      (tree.symbolTable declarations).symbols.size + 1 := by
    have fewer := (part.filter (declarations.declares tree)).length_le
    rw [outlines.rooted.records_symbolTable.size]
    omega
  have whole := outlines.flatMap_descendantsUpTo (within.depicts outlines.depicts) within enough
  rw [outlines.held_places_of_opens within opens, List.flatMap_singleton, outline.places_eq,
    List.filter_cons_of_pos (declares_of_opens opens), List.map_cons] at whole
  exact (List.cons.inj whole).2

end ParseTree.Outlines

namespace ParseTree.Rooted

open Declarations

variable {declarations : Declarations} {tree : ParseTree} (rooted : tree.Rooted) {i j : Nat}

include rooted

/-- The symbols nested in a scope, in the order of the walk. -/
theorem descendants_rank (reached : i ∈ tree.walk 0) (opens : declarations.opens tree i = true) :
    (tree.symbolTable declarations).descendants (declarations.rank tree i) =
      ((tree.walk 0).filter fun j => declarations.declares tree j &&
        declarations.nestedIn tree i j).map (declarations.rank tree) := by
  obtain ⟨root, outlines⟩ := rooted.exists_outlines
  obtain ⟨outline, within, rfl⟩ := outlines.exists_within reached
  rw [outlines.descendants_rank within opens, outlines.filter_walk within]
  · congr 1
    apply List.filter_congr
    intro j below
    obtain ⟨child, member, inside⟩ := List.mem_flatMap.1 below
    obtain ⟨known, above, different⟩ := outlines.mem_ancestors_of_mem_child within member inside
    have around := (rooted.mem_outer_iff known).2 ⟨above, different, opens⟩
    rw [(rooted.nestedIn_iff known opens).2 around, Bool.and_true]
  · intro j known holds
    rw [Bool.and_eq_true, rooted.nestedIn_iff known opens, rooted.mem_outer_iff known] at holds
    exact ⟨holds.2.1, holds.2.2.1⟩

theorem isA_rank (reached : i ∈ tree.walk 0) (speaks : declarations.declares tree i = true)
    (kind : SymbolKind) :
    (tree.symbolTable declarations).isA kind (declarations.rank tree i) =
      declarations.declaresKind tree kind i := by
  obtain ⟨declaration, found, entry⟩ := rooted.exists_entry reached speaks
  rw [declares, found, Option.any_some] at speaks
  rw [SymbolTable.isA, SymbolTable.kind?, entry, declaresKind, found, Option.any_some, speaks,
    Bool.and_true]
  rfl

theorem nameOf_rank (reached : i ∈ tree.walk 0) (speaks : declarations.declares tree i = true) :
    (tree.symbolTable declarations).nameOf (declarations.rank tree i) =
      declarations.nameAt tree i := by
  obtain ⟨declaration, found, entry⟩ := rooted.exists_entry reached speaks
  rw [SymbolTable.nameOf, entry, nameAt, found]
  rfl

/-- The symbols of a kind among those that satisfy a condition. -/
theorem filter_isA_map_rank (kind : SymbolKind) (p : Nat → Bool) :
    (((tree.walk 0).filter fun j => declarations.declares tree j && p j).map
        (declarations.rank tree)).filter ((tree.symbolTable declarations).isA kind) =
      (((tree.walk 0).filter (declarations.declaresKind tree kind)).filter p).map
        (declarations.rank tree) := by
  rw [List.filter_map, List.filter_filter, List.filter_filter]
  congr 1
  apply List.filter_congr
  intro j reached
  rw [Function.comp_apply]
  cases speaks : declarations.declares tree j with
  | true => rw [rooted.isA_rank reached speaks, Bool.true_and, Bool.and_comm]
  | false =>
      have silent : declarations.declaresKind tree kind j = false := by
        rw [Bool.eq_false_iff]
        intro speaks'
        rw [declares_of_declaresKind speaks'] at speaks
        cases speaks
      rw [silent]
      simp

/-- What the table shows from a scope is what is visible in the tree. -/
theorem visibleFrom_rank (reached : i ∈ tree.walk 0) {owner : Nat}
    (found : declarations.owner? tree i = some owner) (kind : SymbolKind) :
    (tree.symbolTable declarations).visibleFrom (declarations.rank tree owner) kind =
      (declarations.visible tree
        ((tree.walk 0).filter (declarations.declaresKind tree kind)) i).map
        (declarations.rank tree) := by
  have opens : declarations.opens tree owner = true := List.find?_some found
  have above := List.mem_of_find?_eq_some found
  have inside := ((rooted.mem_ancestors_iff reached).1 above).1
  have holder : ∀ home ∈ declarations.outer tree owner,
      (tree.symbolTable declarations).children (declarations.rank tree home) =
        (declarations.held tree (tree.walk 0) (some home)).map (declarations.rank tree) := by
    intro home around
    obtain ⟨above, -, opens⟩ := (rooted.mem_outer_iff inside).1 around
    exact rooted.children_rank ((rooted.mem_ancestors_iff inside).1 above).1
      (declares_of_opens opens)
  simp only [SymbolTable.visibleFrom, visible, found]
  rw [List.filter_append, List.map_append, rooted.descendants_rank inside opens,
    rooted.filter_isA_map_rank, rooted.enclosing_rank inside (declares_of_opens opens)]
  congr 1
  rw [List.flatMap_append, List.flatMap_append, List.filter_append, List.map_append,
    List.flatMap_singleton, List.flatMap_singleton, List.flatMap_map, List.flatMap_map,
    List.filter_flatMap, List.map_flatMap, rooted.children_global, held,
    rooted.filter_isA_map_rank]
  congr 1
  apply List.flatMap_congr
  intro home around
  rw [holder home around, held, rooted.filter_isA_map_rank]

theorem filter_children_global (found : declarations.owner? tree i = none) (kind : SymbolKind) :
    ((tree.symbolTable declarations).children 0).filter
        ((tree.symbolTable declarations).isA kind) =
      (declarations.visible tree
        ((tree.walk 0).filter (declarations.declaresKind tree kind)) i).map
        (declarations.rank tree) := by
  simp only [visible, found]
  rw [rooted.children_global, held, rooted.filter_isA_map_rank]

/-- No node is visible twice. -/
theorem nodup_visible (reached : i ∈ tree.walk 0) {nodes : List Nat}
    (part : nodes.Sublist (tree.walk 0)) : (declarations.visible tree nodes i).Nodup := by
  have distinct := part.nodup rooted.nodup_walk
  unfold visible
  cases found : declarations.owner? tree i with
  | none => exact distinct.filter _
  | some owner =>
      have opens : declarations.opens tree owner = true := List.find?_some found
      have above := List.mem_of_find?_eq_some found
      have inside := ((rooted.mem_ancestors_iff reached).1 above).1
      have homes : ((declarations.outer tree owner).map some ++ [none]).Nodup := by
        have climbs := rooted.nodup_ancestors inside
        refine List.nodup_append.2 ⟨?_, List.nodup_singleton _, by simp⟩
        exact ((climbs.sublist (List.tail_sublist _)).filter _).map (Option.some_injective _)
      refine List.nodup_append'.2 ⟨distinct.filter _, List.nodup_flatMap.2
        ⟨fun home _ => distinct.filter _, homes.imp ?_⟩, ?_⟩
      · intro home home' different j here there
        have same := (List.mem_filter.1 here).2
        have same' := (List.mem_filter.1 there).2
        rw [beq_iff_eq] at same same'
        exact different (same.symm.trans same')
      · -- a scope around the owner is not nested in it
        intro j here there
        obtain ⟨member, nested⟩ := List.mem_filter.1 here
        obtain ⟨home, listed, stands⟩ := List.mem_flatMap.1 there
        have same := (List.mem_filter.1 stands).2
        rw [beq_iff_eq] at same
        subst same
        rw [nestedIn] at nested
        cases stands : declarations.home? tree j with
        | none => simp [stands] at nested
        | some home =>
            rw [stands, Option.any_some, decide_eq_true_iff] at nested
            have around : home ∈ declarations.outer tree owner := by simpa [stands] using listed
            obtain ⟨above', different, -⟩ := (rooted.mem_outer_iff inside).1 around
            exact different (rooted.ancestors_antisymm inside above' nested)

end ParseTree.Rooted

end Typeahead
