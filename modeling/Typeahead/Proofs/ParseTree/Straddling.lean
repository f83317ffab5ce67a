import Typeahead.Proofs.ParseTree.Nesting
import Typeahead.Proofs.ParseTree.Ancestry

namespace Typeahead

/-!
Trees whose tokens are in the order of the stream.  Two nodes of such a tree have tokens on both
sides of one position only if one of them is above the other, so the search for the place of a
token that is not in the tree ends at the deepest of them.  The token stands between tokens of that
node, so no range but the root's changes.
-/

namespace Outline

variable {root first second inner outer : Outline}

theorem tokens_sublist_of_mem {children : List Outline} (member : inner ∈ children) :
    inner.tokens.Sublist (children.flatMap tokens) := by
  rw [List.flatMap_def]
  exact List.sublist_flatten_of_mem (List.mem_map_of_mem member)

theorem Within.tokens_sublist (within : inner.Within outer) :
    inner.tokens.Sublist outer.tokens := by
  induction within with
  | refl => exact .refl _
  | part member _ place name ih =>
      rw [tokens_rule]
      exact ih.trans (tokens_sublist_of_mem member)

/-- Of two parts one is in the other, or one comes after the other. -/
theorem Within.cases (within : first.Within root) (within' : second.Within root) :
    first.Within second ∨ second.Within first ∨
      (first.tokens ++ second.tokens).Sublist root.tokens ∨
      (second.tokens ++ first.tokens).Sublist root.tokens := by
  induction within with
  | refl => exact .inr (.inl within')
  | @part child children member within place name ih =>
      cases within' with
      | refl => exact .inl (.part member within place name)
      | @part child' _ member' within' =>
          rw [tokens_rule]
          by_cases same : child' = child
          · subst same
            have wider := tokens_sublist_of_mem member
            exact (ih within').imp_right (.imp_right (.imp (·.trans wider) (·.trans wider)))
          · obtain ⟨before, after, rfl⟩ := List.append_of_mem member
            rw [List.flatMap_append, List.flatMap_cons]
            have here := within.tokens_sublist
            have there := within'.tokens_sublist
            rcases List.mem_append.1 member' with earlier | later
            · have inFront := there.trans (tokens_sublist_of_mem earlier)
              exact .inr (.inr (.inr (inFront.append (here.trans (List.sublist_append_left _ _)))))
            · have behind := there.trans
                (tokens_sublist_of_mem ((List.mem_cons.1 later).resolve_left same))
              exact .inr (.inr (.inl ((here.append behind).trans (List.sublist_append_right _ _))))

end Outline

namespace ParseTree

/-- The stream positions of the tokens below a node. -/
def indicesAt (tree : ParseTree) (i : Nat) : List Int := (tree.tokens i).filterMap (·.index)

/-- A well-formed tree whose tokens are in the order of the stream, with `eof` as the last child of
the root. -/
structure InOrder (tree : ParseTree) (eof : Token) : Prop where
  wellFormed : tree.WellFormed
  nesting : Nesting tree.size tree.parent? tree.children
  ordered : (tree.indicesAt 0).Pairwise (· < ·)
  last : (tree.children 0).getLast?.bind tree.token? = some eof

/-- The node is a rule's, and its range reaches from before a stream position to behind it. -/
structure Straddles (tree : ParseTree) (index : Int) (i : Nat) : Prop where
  rule : (tree.rule? i).isSome = true
  range : ∃ first last low high, tree.tokenRange? i = some (first, last) ∧
    first.index = some low ∧ last.index = some high ∧ low < index ∧ index < high

/-- The deepest node that straddles a stream position, or the root where there is none. -/
structure Deepest (tree : ParseTree) (index : Int) (i : Nat) : Prop where
  known : i < tree.size
  straddles : i = 0 ∨ tree.Straddles index i
  below : ∀ j, tree.Straddles index j → j ∈ tree.ancestors i

/-- The tokens below a node, made-up ones left out. -/
def streamedAt (tree : ParseTree) (i : Nat) : List Token := (tree.tokens i).filter (!·.conjured)

variable {tree : ParseTree} {eof : Token} {root part whole : Outline} {index : Int} {i j : Nat}

theorem indicesAt_eq (tree : ParseTree) (i : Nat) :
    tree.indicesAt i = (tree.streamedAt i).map Token.position := by
  rw [indicesAt, streamedAt]
  induction tree.tokens i with
  | nil => rfl
  | cons token rest ih =>
      cases placed : token.index with
      | none => simpa [placed, Token.conjured] using ih
      | some index => simpa [placed, Token.conjured, Token.position] using ih

theorem tokenRange?_eq_some_iff {first last : Token} : tree.tokenRange? i = some (first, last) ↔
    (tree.streamedAt i).head? = some first ∧ (tree.streamedAt i).getLast? = some last := by
  rw [tokenRange?, ← streamedAt]
  cases (tree.streamedAt i).head? <;> cases (tree.streamedAt i).getLast? <;> simp

theorem Straddles.exists_around (straddles : tree.Straddles index i) :
    ∃ low ∈ tree.indicesAt i, ∃ high ∈ tree.indicesAt i, low < index ∧ index < high := by
  obtain ⟨first, last, low, high, range, placed, placed', less⟩ := straddles.range
  obtain ⟨head, tail⟩ := tokenRange?_eq_some_iff.1 range
  have member := (List.mem_filter.1 (List.mem_of_head? head)).1
  have member' := (List.mem_filter.1 (List.mem_of_getLast? tail)).1
  exact ⟨low, List.mem_filterMap.2 ⟨first, member, placed⟩, high,
    List.mem_filterMap.2 ⟨last, member', placed'⟩, less⟩

theorem Straddles.known (straddles : tree.Straddles index i) : i < tree.size := by
  have rule := straddles.rule
  by_contra outside
  have unknown : tree.node? i = none := Array.getElem?_eq_none (Nat.le_of_not_lt outside)
  simp [rule?, unknown] at rule

/-- Of two rows one after the other only one reaches over a position. -/
theorem not_around_apart {front back row : List Int} (ordered : row.Pairwise (· < ·))
    (apart : (front ++ back).Sublist row) {low high : Int} (member : high ∈ front)
    (member' : low ∈ back) (above : index < high) : ¬ low < index := by
  intro below
  have less := (List.pairwise_append.1 (ordered.sublist apart)).2.2 high member low member'
  omega

namespace InOrder

variable (inOrder : tree.InOrder eof)

include inOrder

theorem size_pos : 0 < tree.size := by
  obtain ⟨root, place, depicts, -⟩ := inOrder.wellFormed
  exact place ▸ depicts.lt_size root.place_mem_places

theorem rooted : tree.Rooted := by
  have nesting := inOrder.nesting
  refine ⟨inOrder.wellFormed, ?_, fun i _ child listed => nesting.mem_children.1 listed⟩
  cases held : tree.parent? 0 with
  | none => rfl
  | some p => exact absurd (nesting.older 0 p held) (Nat.not_lt_zero p)

theorem mem_walk_root (known : i < tree.size) : i ∈ tree.walk 0 :=
  (walk_root_perm inOrder.nesting inOrder.size_pos).mem_iff.2 (List.mem_range.2 known)

theorem root_mem_ancestors (known : i < tree.size) : 0 ∈ tree.ancestors i :=
  ((mem_walk_iff_mem_ancestors inOrder.nesting inOrder.size_pos).1 (inOrder.mem_walk_root known)).2

omit inOrder in
theorem indicesAt_place (outlines : tree.Outlines root) (within : part.Within root) :
    tree.indicesAt part.place = part.indices := by
  rw [indicesAt, (within.depicts outlines.depicts).tokens_eq (outlines.nodup_places within)]
  rfl

theorem ordered_root (outlines : tree.Outlines root) : root.indices.Pairwise (· < ·) := by
  rw [← indicesAt_place outlines (.refl root), outlines.place]
  exact inOrder.ordered

/-- The tokens below a node are some of those below a node above it. -/
theorem streamedAt_sublist (known : i < tree.size) (above : j ∈ tree.ancestors i) :
    (tree.streamedAt i).Sublist (tree.streamedAt j) := by
  obtain ⟨root, outlines⟩ := inOrder.rooted.exists_outlines
  obtain ⟨part, within, rfl⟩ := outlines.exists_within (inOrder.mem_walk_root known)
  obtain ⟨whole, within', rfl, inside⟩ := outlines.exists_within_of_mem_ancestors within above
  rw [streamedAt, streamedAt,
    (within.depicts outlines.depicts).tokens_eq (outlines.nodup_places within),
    (within'.depicts outlines.depicts).tokens_eq (outlines.nodup_places within')]
  exact inside.tokens_sublist.filter _

theorem indicesAt_sublist (known : i < tree.size) (above : j ∈ tree.ancestors i) :
    (tree.indicesAt i).Sublist (tree.indicesAt j) := by
  rw [indicesAt_eq, indicesAt_eq]
  exact (inOrder.streamedAt_sublist known above).map _

theorem pairwise_indicesAt (known : i < tree.size) : (tree.indicesAt i).Pairwise (· < ·) :=
  inOrder.ordered.sublist (inOrder.indicesAt_sublist known (inOrder.root_mem_ancestors known))

/-- A rule's node straddles a position where it has tokens on both sides. -/
theorem straddles_of_around (rule : (tree.rule? i).isSome = true) (known : i < tree.size)
    {low high : Int} (member : low ∈ tree.indicesAt i) (member' : high ∈ tree.indicesAt i)
    (below : low < index) (above : index < high) : tree.Straddles index i := by
  have ordered := inOrder.pairwise_indicesAt known
  obtain ⟨least, most, head, tail⟩ := exists_ends member
  have least_le := head_le_of_pairwise ordered head member
  have le_most := le_getLast_of_pairwise ordered tail member'
  rw [indicesAt, Token.head?_filterMap_index, Option.bind_eq_some_iff] at head
  rw [indicesAt, Token.getLast?_filterMap_index, Option.bind_eq_some_iff] at tail
  obtain ⟨first, head, placed⟩ := head
  obtain ⟨last, tail, placed'⟩ := tail
  exact ⟨rule, first, last, least, most, tokenRange?_eq_some_iff.2 ⟨head, tail⟩, placed, placed',
    by omega, by omega⟩

theorem spans_iff_straddles (known : i < tree.size) :
    tree.spans index i = true ↔ tree.Straddles index i := by
  obtain ⟨root, outlines⟩ := inOrder.rooted.exists_outlines
  obtain ⟨part, within, rfl⟩ := outlines.exists_within (inOrder.mem_walk_root known)
  have depicts := within.depicts outlines.depicts
  have distinct := outlines.nodup_places within
  have listed := indicesAt_place outlines within
  rw [depicts.spans_iff distinct, ← depicts.isSome_rule?]
  constructor
  · intro ⟨rule, first, last, head, tail, below, above⟩
    rw [← listed] at head tail
    exact inOrder.straddles_of_around rule known (List.mem_of_head? head)
      (List.mem_of_getLast? tail) below above
  · intro straddles
    obtain ⟨low, member, high, member', below, above⟩ := straddles.exists_around
    have ordered := inOrder.pairwise_indicesAt known
    rw [listed] at member member' ordered
    obtain ⟨first, last, head, tail⟩ := exists_ends member
    have first_le := head_le_of_pairwise ordered head member
    have le_last := le_getLast_of_pairwise ordered tail member'
    exact ⟨straddles.rule, first, last, head, tail, by omega, by omega⟩

/-- Of two nodes that straddle one position one is above the other. -/
theorem related_of_straddles (first : tree.Straddles index i) (second : tree.Straddles index j) :
    j ∈ tree.ancestors i ∨ i ∈ tree.ancestors j := by
  obtain ⟨root, outlines⟩ := inOrder.rooted.exists_outlines
  obtain ⟨part, within, rfl⟩ := outlines.exists_within (inOrder.mem_walk_root first.known)
  obtain ⟨other, within', rfl⟩ := outlines.exists_within (inOrder.mem_walk_root second.known)
  obtain ⟨low, member, high, member', below, above⟩ := first.exists_around
  obtain ⟨low', inside, high', inside', below', above'⟩ := second.exists_around
  rw [indicesAt_place outlines within] at member member'
  rw [indicesAt_place outlines within'] at inside inside'
  have ordered := inOrder.ordered_root outlines
  have climbs : ∀ {inner outer : Outline}, inner.Within outer → outer.Within root →
      outer.place ∈ tree.ancestors inner.place := by
    intro inner outer deeper whole
    obtain ⟨line, climbs⟩ := outlines.exists_ancestors whole deeper
    rw [climbs]
    exact List.mem_append_right _ (outlines.mem_ancestors_self whole)
  rcases within.cases within' with upper | lower | before | behind
  · exact .inl (climbs upper within')
  · exact .inr (climbs lower within)
  · have apart := before.filterMap (·.index)
    rw [List.filterMap_append] at apart
    exact absurd below' (not_around_apart ordered apart member' inside above)
  · have apart := behind.filterMap (·.index)
    rw [List.filterMap_append] at apart
    exact absurd below (not_around_apart ordered apart inside' member above')

/-- The nodes above one that straddles a position do so, too. -/
theorem straddles_of_mem_ancestors (straddles : tree.Straddles index j)
    (above : i ∈ tree.ancestors j) : tree.Straddles index i := by
  obtain ⟨root, outlines⟩ := inOrder.rooted.exists_outlines
  obtain ⟨part, within, rfl⟩ := outlines.exists_within (inOrder.mem_walk_root straddles.known)
  obtain ⟨whole, within', rfl, inside⟩ := outlines.exists_within_of_mem_ancestors within above
  have rule : (tree.rule? whole.place).isSome = true := by
    cases inside with
    | refl => exact straddles.rule
    | part _ _ place name =>
        exact (within'.depicts outlines.depicts).isSome_rule?.2 ⟨place, name, _, rfl⟩
  have wider := (inOrder.indicesAt_sublist straddles.known above).subset
  obtain ⟨low, member, high, member', around⟩ := straddles.exists_around
  exact inOrder.straddles_of_around rule (outlines.depicts.lt_size within'.place_mem)
    (wider member) (wider member') around.1 around.2

end InOrder

/-- The search stops at a node that spans the position, or where it began. -/
theorem deepestSpanning_eq_or_spans (tree : ParseTree) (index : Int) (depth i : Nat) :
    tree.deepestSpanning index depth i = i ∨
      tree.spans index (tree.deepestSpanning index depth i) = true := by
  induction depth generalizing i with
  | zero => exact .inl rfl
  | succ depth ih =>
      rw [deepestSpanning]
      split
      · next child found =>
          rcases ih child with same | spans
          · rw [same]
            exact .inr (List.find?_some found)
          · exact .inr spans
      · exact .inl rfl

/-- It goes on as long as it can. -/
theorem not_spans_of_mem_children (nesting : Nesting tree.size tree.parent? tree.children)
    {depth child : Nat} (enough : tree.size ≤ depth + i)
    (listed : child ∈ tree.children (tree.deepestSpanning index depth i)) :
    ¬ tree.spans index child = true := by
  induction depth generalizing i with
  | zero =>
      have held := nesting.mem_children.1 listed
      have younger := nesting.older _ _ held
      have known := ((nesting.parents child).1 (Option.isSome_of_eq_some held)).2
      rw [deepestSpanning] at younger
      omega
  | succ depth ih =>
      rw [deepestSpanning] at listed
      split at listed
      · next deeper found =>
          have younger := nesting.older _ _
            (nesting.mem_children.1 (List.mem_of_find?_eq_some found))
          exact ih (by omega) listed
      · next missing => exact List.find?_eq_none.1 missing child listed

/-- The search comes to the deepest node that straddles the position. -/
theorem InOrder.deepest_holderFor (inOrder : tree.InOrder eof) (index : Int) :
    tree.Deepest index (tree.holderFor index) := by
  have nesting := inOrder.nesting
  have known : tree.holderFor index < tree.size :=
    deepestSpanning_lt_size nesting index tree.size inOrder.size_pos
  have stuck : ∀ child ∈ tree.children (tree.holderFor index), ¬ tree.spans index child = true :=
    fun child => not_spans_of_mem_children nesting (Nat.le_add_right tree.size 0)
  have straddles : tree.holderFor index = 0 ∨ tree.Straddles index (tree.holderFor index) :=
    (deepestSpanning_eq_or_spans tree index tree.size 0).imp_right
      (inOrder.spans_iff_straddles known).1
  generalize tree.holderFor index = d at *
  refine ⟨known, straddles, ?_⟩
  intro j around
  have related : j ∈ tree.ancestors d ∨ d ∈ tree.ancestors j := by
    rcases straddles with rfl | straddles
    · exact .inr (inOrder.root_mem_ancestors around.known)
    · exact inOrder.related_of_straddles straddles around
  rcases related with above | below
  · exact above
  · rw [mem_ancestors_iff_encloses nesting around.known] at below
    rcases below with rfl | deeper
    · exact (mem_ancestors_iff_encloses nesting known).2 (.inl rfl)
    · -- the search would have gone on to the child on the way down
      obtain ⟨child, held, inside⟩ := Encloses.iff_child.1 deeper
      have childKnown := ((nesting.parents child).1 (Option.isSome_of_eq_some held)).2
      have upper := inOrder.straddles_of_mem_ancestors around
        ((mem_ancestors_iff_encloses nesting around.known).2 inside)
      exact absurd ((inOrder.spans_iff_straddles childKnown).2 upper)
        (stuck child (nesting.mem_children.2 held))

theorem le_of_mem_ancestors (nesting : Nesting tree.size tree.parent? tree.children)
    (above : i ∈ tree.ancestors j) : i ≤ j := by
  rcases encloses_of_mem_ancestors above with rfl | encloses
  · exact Nat.le_refl i
  · exact Nat.le_of_lt (nesting.lt_of_encloses encloses)

namespace Deepest

theorem le (nesting : Nesting tree.size tree.parent? tree.children)
    (upper : tree.Deepest index i) (lower : tree.Deepest index j) : i ≤ j := by
  rcases upper.straddles with rfl | straddles
  · exact Nat.zero_le j
  · exact le_of_mem_ancestors nesting (lower.below i straddles)

/-- There is only one deepest node. -/
theorem unique (nesting : Nesting tree.size tree.parent? tree.children)
    (first : tree.Deepest index i) (second : tree.Deepest index j) : i = j :=
  Nat.le_antisymm (first.le nesting second) (second.le nesting first)

/-- All nodes above the deepest one straddle the position, but maybe the root. -/
theorem straddles_above (deepest : tree.Deepest index j) (inOrder : tree.InOrder eof)
    (above : i ∈ tree.ancestors j) (below : 0 < i) : tree.Straddles index i := by
  rcases deepest.straddles with rfl | straddles
  · have first := le_of_mem_ancestors inOrder.nesting above
    omega
  · exact inOrder.straddles_of_mem_ancestors straddles above

end Deepest

end ParseTree

end Typeahead
