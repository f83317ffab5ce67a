import Typeahead.Proofs.Language.Locating

namespace Typeahead

/-!
The nodes above a node.  In a tree whose nodes name their parents the way up from a node leads
through the nodes that hold it, to the root.
-/

namespace ParseTree

/-- A well-formed tree in which every node names the node that holds it as its parent, and the root
names none. -/
structure Rooted (tree : ParseTree) : Prop where
  wellFormed : tree.WellFormed
  top : tree.parent? 0 = none
  parents : ∀ i ∈ tree.walk 0, ∀ child ∈ tree.children i, tree.parent? child = some i

/-- The outline of a rooted tree. -/
structure Outlines (tree : ParseTree) (root : Outline) : Prop where
  place : root.place = 0
  depicts : tree.Depicts root
  distinct : root.places.Nodup
  top : tree.parent? 0 = none
  parents : ∀ outline : Outline, outline.Within root → ∀ child ∈ outline.children,
    tree.parent? child.place = some outline.place

end ParseTree

namespace Outline

variable {root outline inner : Outline}

theorem Within.trans (first : inner.Within outline) (second : outline.Within root) :
    inner.Within root := by
  induction second with
  | refl => exact first
  | part member _ place name ih => exact .part member ih place name

theorem within_of_mem_children {child : Outline} (member : child ∈ outline.children) :
    child.Within outline := by
  cases outline with
  | terminal place token => cases member
  | rule place name children => exact .part member (.refl child) place name

theorem length_places_lt_of_mem_children {child : Outline} (member : child ∈ outline.children) :
    child.places.length < outline.places.length := by
  cases outline with
  | terminal place token => cases member
  | rule place name children => exact length_places_lt place name member

theorem places_eq (outline : Outline) :
    outline.places = outline.place :: outline.children.flatMap places := by
  cases outline <;> simp [place, children]

/-- The places of a part stand next to each other. -/
theorem Within.exists_places (within : inner.Within outline) :
    ∃ before after, outline.places = before ++ inner.places ++ after := by
  induction within with
  | refl => exact ⟨[], [], by simp⟩
  | @part child children member _ place name ih =>
      obtain ⟨before, after, split⟩ := ih
      obtain ⟨front, rest, rfl⟩ := List.append_of_mem member
      refine ⟨place :: front.flatMap places ++ before, after ++ rest.flatMap places, ?_⟩
      simp [split]

theorem Within.nodup_places (within : inner.Within outline) (distinct : outline.places.Nodup) :
    inner.places.Nodup := by
  obtain ⟨before, after, split⟩ := within.exists_places
  rw [split] at distinct
  exact distinct.of_append_left.of_append_right

theorem Within.depicts {tree : ParseTree} (within : inner.Within outline)
    (depicts : tree.Depicts outline) : tree.Depicts inner := by
  induction within with
  | refl => exact depicts
  | part member _ _ _ ih => exact ih (depicts.child member)

/-- What holds of the root, and of the children of each node of which it holds, holds of all
nodes. -/
theorem Within.descent {P : Outline → Prop} (first : P root)
    (step : ∀ outline, outline.Within root → P outline → ∀ child ∈ outline.children, P child)
    (within : outline.Within root) : P outline := by
  have descend : ∀ {inner outline : Outline}, inner.Within outline → outline.Within root →
      P outline → P inner := by
    intro inner outline part
    induction part with
    | refl => exact fun _ holds => holds
    | @part child children member _ place name ih =>
        intro whole holds
        have held : child.Within (.rule place name children) := within_of_mem_children member
        exact ih (held.trans whole) (step _ whole holds _ member)
  exact descend within (.refl root) first

end Outline

namespace ParseTree

variable {tree : ParseTree} {root outline inner : Outline}

theorem Rooted.exists_outlines (rooted : tree.Rooted) : ∃ root, tree.Outlines root := by
  obtain ⟨root, place, depicts, distinct⟩ := rooted.wellFormed
  refine ⟨root, place, depicts, distinct, rooted.top, ?_⟩
  intro outline within child member
  have reached : outline.place ∈ tree.walk 0 := by
    rw [← place, depicts.walk_eq distinct]
    exact within.place_mem
  apply rooted.parents _ reached
  rw [(within.depicts depicts).children_eq]
  exact List.mem_map_of_mem member

namespace Outlines

variable (outlines : tree.Outlines root)

include outlines

theorem walk_eq : tree.walk 0 = root.places := by
  rw [← outlines.place]
  exact outlines.depicts.walk_eq outlines.distinct

theorem exists_within {i : Nat} (reached : i ∈ tree.walk 0) :
    ∃ outline : Outline, outline.Within root ∧ outline.place = i := by
  rw [outlines.walk_eq] at reached
  exact outlines.depicts.exists_within reached

/-- The way up from a part to the whole. -/
theorem exists_line (whole : outline.Within root) (within : inner.Within outline) :
    ∃ line : List Nat, line.length + inner.places.length ≤ outline.places.length ∧
      ∀ fuel, tree.ancestorsUpTo (line.length + fuel) inner.place =
        line ++ tree.ancestorsUpTo fuel outline.place := by
  induction within with
  | refl => exact ⟨[], by simp, by simp⟩
  | @part child children member _ place name ih =>
      have held : child.Within (.rule place name children) :=
        Outline.within_of_mem_children member
      obtain ⟨line, shorter, climbs⟩ := ih (held.trans whole)
      have smaller := Outline.length_places_lt place name member
      refine ⟨line ++ [child.place], ?_, ?_⟩
      · rw [List.length_append, List.length_singleton]
        omega
      intro fuel
      have up := climbs (fuel + 1)
      have parent := outlines.parents _ whole child member
      rw [ancestorsUpTo, parent] at up
      have counted : (line ++ [child.place]).length + fuel = line.length + (fuel + 1) := by
        simp
        omega
      rw [counted, up]
      simp

theorem ancestors_root : tree.ancestors 0 = [0] := by
  have nonempty : 0 < tree.size := by
    have inside := outlines.depicts.lt_size root.place_mem_places
    omega
  obtain ⟨fuel, counted⟩ := Nat.exists_eq_add_one_of_ne_zero (Nat.ne_of_gt nonempty)
  rw [ancestors, counted, ancestorsUpTo, outlines.top]

/-- The nodes above a child are its parent and those above it. -/
theorem ancestors_child (within : outline.Within root) {child : Outline}
    (member : child ∈ outline.children) :
    tree.ancestors child.place = child.place :: tree.ancestors outline.place := by
  obtain ⟨line, shorter, climbs⟩ := outlines.exists_line (.refl root) within
  have bound := outlines.depicts.length_places_le outlines.distinct
  have smaller : child.places.length < outline.places.length := by
    cases outline with
    | terminal place token => cases member
    | rule place name children => exact Outline.length_places_lt place name member
  have nonempty := List.length_pos_of_mem child.place_mem_places
  -- one step more is left for the root
  have top : ∀ fuel, tree.ancestorsUpTo (fuel + 1) root.place = [0] := by
    intro fuel
    rw [outlines.place, ancestorsUpTo, outlines.top]
  have upper : tree.ancestors outline.place = line ++ [0] := by
    have climbed := climbs (tree.size - line.length - 1 + 1)
    rwa [top, show line.length + (tree.size - line.length - 1 + 1) = tree.size by omega] at climbed
  obtain ⟨fuel, counted⟩ : ∃ fuel, tree.size = fuel + 1 := ⟨tree.size - 1, by omega⟩
  rw [upper, ancestors, counted, ancestorsUpTo, outlines.parents _ within child member]
  have climbed := climbs (fuel - line.length - 1 + 1)
  rw [top, show line.length + (fuel - line.length - 1 + 1) = fuel by omega] at climbed
  simp only [climbed]

theorem nodup_places (within : outline.Within root) : outline.places.Nodup :=
  within.nodup_places outlines.distinct

theorem walk_place (within : outline.Within root) : tree.walk outline.place = outline.places :=
  (within.depicts outlines.depicts).walk_eq (outlines.nodup_places within)

theorem mem_walk (within : outline.Within root) : outline.place ∈ tree.walk 0 :=
  outlines.walk_eq ▸ within.place_mem

theorem exists_within_of_mem_ancestors (within : inner.Within root) {i : Nat}
    (above : i ∈ tree.ancestors inner.place) :
    ∃ outline : Outline, outline.Within root ∧ outline.place = i ∧ inner.Within outline := by
  refine within.descent (P := fun inner => ∀ i ∈ tree.ancestors inner.place,
    ∃ outline : Outline, outline.Within root ∧ outline.place = i ∧ inner.Within outline)
    ?_ ?_ i above
  · intro i above
    rw [outlines.place, outlines.ancestors_root, List.mem_singleton] at above
    exact ⟨root, .refl root, outlines.place.trans above.symm, .refl root⟩
  · intro parent within ih child member i above
    rw [outlines.ancestors_child within member, List.mem_cons] at above
    have held := Outline.within_of_mem_children member
    rcases above with rfl | above
    · exact ⟨child, held.trans within, rfl, .refl child⟩
    · obtain ⟨outline, whole, place, around⟩ := ih i above
      exact ⟨outline, whole, place, held.trans around⟩

theorem exists_ancestors (whole : outline.Within root) (within : inner.Within outline) :
    ∃ line, tree.ancestors inner.place = line ++ tree.ancestors outline.place := by
  induction within with
  | refl => exact ⟨[], rfl⟩
  | @part child children member _ place name ih =>
      have held : child.Within (.rule place name children) :=
        Outline.within_of_mem_children member
      obtain ⟨line, climbs⟩ := ih (held.trans whole)
      refine ⟨line ++ [child.place], ?_⟩
      rw [climbs, outlines.ancestors_child whole member, List.append_assoc, List.singleton_append]

theorem mem_ancestors_self (within : outline.Within root) :
    outline.place ∈ tree.ancestors outline.place := by
  refine within.descent (P := fun outline => outline.place ∈ tree.ancestors outline.place) ?_ ?_
  · rw [outlines.place, outlines.ancestors_root]
    exact List.mem_singleton_self 0
  · intro parent within _ child member
    rw [outlines.ancestors_child within member]
    exact List.mem_cons_self

end Outlines

namespace Rooted

variable (rooted : tree.Rooted) {i j : Nat}

include rooted

/-- The nodes above a node are those that it is below. -/
theorem mem_ancestors_iff (reached : j ∈ tree.walk 0) :
    i ∈ tree.ancestors j ↔ i ∈ tree.walk 0 ∧ j ∈ tree.walk i := by
  obtain ⟨root, outlines⟩ := rooted.exists_outlines
  obtain ⟨inner, within, rfl⟩ := outlines.exists_within reached
  constructor
  · intro above
    obtain ⟨outline, whole, rfl, around⟩ := outlines.exists_within_of_mem_ancestors within above
    rw [outlines.walk_eq, outlines.walk_place whole]
    exact ⟨whole.place_mem, around.place_mem⟩
  · intro ⟨known, below⟩
    obtain ⟨outline, whole, rfl⟩ := outlines.exists_within known
    rw [outlines.walk_place whole] at below
    obtain ⟨other, part, same⟩ := (whole.depicts outlines.depicts).exists_within below
    obtain ⟨line, climbs⟩ := outlines.exists_ancestors whole part
    rw [← same, climbs]
    exact List.mem_append_right _ (outlines.mem_ancestors_self whole)

/-- The way up from a node goes on as that from its parent, which is a node of the tree. -/
theorem ancestors_eq (reached : i ∈ tree.walk 0) :
    tree.ancestors i = i :: (tree.parent? i).elim [] tree.ancestors ∧
      ∀ parent, tree.parent? i = some parent → parent ∈ tree.walk 0 := by
  obtain ⟨root, outlines⟩ := rooted.exists_outlines
  obtain ⟨outline, within, rfl⟩ := outlines.exists_within reached
  refine within.descent (P := fun outline =>
    tree.ancestors outline.place =
        outline.place :: (tree.parent? outline.place).elim [] tree.ancestors ∧
      ∀ parent, tree.parent? outline.place = some parent → parent ∈ tree.walk 0) ?_ ?_
  · rw [outlines.place, outlines.ancestors_root, outlines.top]
    exact ⟨rfl, by simp⟩
  · intro upper within _ child member
    rw [outlines.ancestors_child within member, outlines.parents upper within child member]
    refine ⟨rfl, ?_⟩
    intro parent same
    exact Option.some.inj same ▸ outlines.mem_walk within

theorem exists_ancestors_eq (reached : i ∈ tree.walk 0) (above : j ∈ tree.ancestors i) :
    ∃ line, tree.ancestors i = line ++ tree.ancestors j := by
  obtain ⟨root, outlines⟩ := rooted.exists_outlines
  obtain ⟨inner, within, rfl⟩ := outlines.exists_within reached
  obtain ⟨outline, whole, rfl, around⟩ := outlines.exists_within_of_mem_ancestors within above
  exact outlines.exists_ancestors whole around

theorem nodup_ancestors (reached : i ∈ tree.walk 0) : (tree.ancestors i).Nodup := by
  obtain ⟨root, outlines⟩ := rooted.exists_outlines
  obtain ⟨outline, within, rfl⟩ := outlines.exists_within reached
  refine within.descent (P := fun outline => (tree.ancestors outline.place).Nodup) ?_ ?_
  · rw [outlines.place, outlines.ancestors_root]
    exact List.nodup_singleton 0
  · intro upper within distinct child member
    rw [outlines.ancestors_child within member]
    refine List.nodup_cons.2 ⟨?_, distinct⟩
    -- the parent is not below its child
    intro above
    have held := Outline.within_of_mem_children member
    have below := ((rooted.mem_ancestors_iff (outlines.mem_walk within)).1 above).2
    rw [outlines.walk_place (held.trans within)] at below
    have alone := outlines.nodup_places within
    rw [Outline.places_eq, List.nodup_cons] at alone
    exact alone.1 (List.mem_flatMap.2 ⟨child, member, below⟩)

theorem ancestors_antisymm (reached : i ∈ tree.walk 0) (above : j ∈ tree.ancestors i)
    (below : i ∈ tree.ancestors j) : j = i := by
  have known := ((rooted.mem_ancestors_iff reached).1 above).1
  obtain ⟨line, climbs⟩ := rooted.exists_ancestors_eq reached above
  obtain ⟨line', climbs'⟩ := rooted.exists_ancestors_eq known below
  have counted := congrArg List.length climbs
  have counted' := congrArg List.length climbs'
  rw [List.length_append] at counted counted'
  obtain rfl : line = [] := List.length_eq_zero_iff.1 (by omega)
  rw [List.nil_append, (rooted.ancestors_eq reached).1, (rooted.ancestors_eq known).1] at climbs
  exact (List.cons.inj climbs).1.symm

theorem nodup_walk : (tree.walk 0).Nodup := by
  obtain ⟨root, outlines⟩ := rooted.exists_outlines
  rw [outlines.walk_eq]
  exact outlines.distinct

/-- The walk comes to the nodes above a node before it comes to that. -/
theorem mem_of_mem_ancestors {seen rest : List Nat} (split : tree.walk 0 = seen ++ i :: rest)
    (above : j ∈ tree.ancestors i) (different : j ≠ i) : j ∈ seen := by
  have distinct := rooted.nodup_walk
  obtain ⟨root, outlines⟩ := rooted.exists_outlines
  have reached : i ∈ tree.walk 0 := by simp [split]
  obtain ⟨inner, within, rfl⟩ := outlines.exists_within reached
  obtain ⟨outline, whole, rfl, around⟩ := outlines.exists_within_of_mem_ancestors within above
  obtain ⟨before, after, parts⟩ := whole.exists_places
  cases around with
  | refl => exact absurd rfl different
  | @part child children member deeper place name =>
      have inside : inner.place ∈ children.flatMap Outline.places :=
        List.mem_flatMap.2 ⟨child, member, deeper.place_mem⟩
      obtain ⟨front, back, middle⟩ := List.append_of_mem inside
      rw [outlines.walk_eq] at split distinct
      have split' : root.places = (before ++ place :: front) ++ inner.place :: (back ++ after) := by
        rw [parts, Outline.places_rule, middle]
        simp
      rw [split] at distinct
      have fresh : inner.place ∉ seen := by
        intro twice
        exact (List.disjoint_of_nodup_append distinct) twice List.mem_cons_self
      have fresh' : inner.place ∉ rest := (List.nodup_cons.1 distinct.of_append_right).1
      have same := (List.append_cons_inj_of_notMem fresh fresh').1 (split.symm.trans split')
      rw [same.1]
      exact List.mem_append_right _ List.mem_cons_self

end Rooted

end ParseTree

end Typeahead
