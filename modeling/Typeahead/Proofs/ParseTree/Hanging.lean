import Typeahead.Proofs.ParseTree.Straddling

namespace Typeahead

/-!
What a token that is hung into a tree leaves as it was.  The token stands between tokens of every
node above it but the root, so no other range changes, and the deepest node around a position stays
the same one.
-/

namespace ParseTree

def label? (tree : ParseTree) (i : Nat) : Option NodeLabel := (tree.node? i).map (·.label)

variable {tree other final : ParseTree} {eof token : Token} {tokens : List Token}
  {index : Int} {parent slot i j : Nat}

theorem token?_eq_bind (tree : ParseTree) (i : Nat) : tree.token? i =
    (tree.label? i).bind fun label => match label with
      | .token token => some token
      | .rule _ | .bare => none := by
  rw [token?, label?]
  cases tree.node? i <;> rfl

theorem rule?_eq_bind (tree : ParseTree) (i : Nat) : tree.rule? i =
    (tree.label? i).bind fun label => match label with
      | .rule name => some name
      | .token _ | .bare => none := by
  rw [rule?, label?]
  cases tree.node? i <;> rfl

theorem isSome_label? (tree : ParseTree) (i : Nat) :
    (tree.label? i).isSome = true ↔ i < tree.size := by
  simp [label?, node?, size]

theorem token?_congr {i j : Nat} (same : other.label? i = tree.label? j) :
    other.token? i = tree.token? j := by
  rw [token?_eq_bind, token?_eq_bind, same]

theorem rule?_congr {i j : Nat} (same : other.label? i = tree.label? j) :
    other.rule? i = tree.rule? j := by
  rw [rule?_eq_bind, rule?_eq_bind, same]

section Insert

variable (token) (known : parent < tree.size)

include known

theorem label?_insertToken (i : Nat) : (tree.insertToken parent slot token).label? i =
    if i = tree.size then some (.token token) else tree.label? i := by
  split
  · next new => rw [new, label?, node?_insertToken_size]; rfl
  · next old =>
      by_cases same : i = parent
      · have found : tree.node? parent = some tree.nodes[parent] := Array.getElem?_eq_getElem known
        rw [same, label?, node?_insertToken_parent found, label?, found]
        rfl
      · rw [label?, node?_insertToken_other token same old, label?]

variable (nesting : Nesting tree.size tree.parent? tree.children)

include nesting

theorem encloses_insertToken : Encloses (tree.insertToken parent slot token).parent? i j ↔
    if j = tree.size then i = parent ∨ Encloses tree.parent? i parent
    else Encloses tree.parent? i j := by
  have parents : ∀ k, (tree.insertToken parent slot token).parent? k =
      if k = tree.size then some parent else tree.parent? k := parent?_insertToken token known
  have kept : ∀ k, k < tree.size → (Encloses (tree.insertToken parent slot token).parent? i k ↔
      Encloses tree.parent? i k) := by
    intro k inside
    apply nesting.encloses_congr _ inside
    intro l inside'
    rw [parents, if_neg (Nat.ne_of_lt inside')]
  have here := parents j
  split at here
  · next new => rw [if_pos new, Encloses.iff_of_parent here, kept parent known]
  · next old =>
      rw [if_neg old, Encloses.iff_parent, Encloses.iff_parent, here]
      apply exists_congr
      intro holder
      apply and_congr_right
      intro held
      have inside := ((nesting.parents j).1 (Option.isSome_of_eq_some held)).2
      rw [kept holder (Nat.lt_trans (nesting.older j holder held) inside)]

variable (room : slot ≤ (tree.children parent).length)

include room

/-- The new node is below its parent and the nodes above that. -/
theorem walk_insertToken (inside : i < tree.size) :
    ((tree.insertToken parent slot token).walk i).Perm
      (if parent ∈ tree.walk i then tree.size :: tree.walk i else tree.walk i) := by
  have nesting' := nesting_insertToken token known nesting room
  have inside' : i < (tree.insertToken parent slot token).size := by
    rw [size_insertToken]
    omega
  have fresh : tree.size ∉ tree.walk i := by
    intro member
    exact Nat.lt_irrefl _ ((mem_walk_iff_mem_ancestors nesting inside).1 member).1
  have distinct := nodup_walk_of_nesting nesting i
  have reached : ∀ j, j ∈ (tree.insertToken parent slot token).walk i ↔
      if j = tree.size then parent ∈ tree.walk i else j ∈ tree.walk i := by
    intro j
    rw [mem_walk_iff_encloses nesting' inside', encloses_insertToken token known nesting,
      mem_walk_iff_encloses nesting inside, mem_walk_iff_encloses nesting inside]
    split
    · next new => simp [new, Nat.ne_of_gt inside, eq_comm]
    · rfl
  split
  · next below =>
      rw [List.perm_ext_iff_of_nodup (nodup_walk_of_nesting nesting' i) (distinct.cons fresh)]
      intro j
      rw [reached, List.mem_cons]
      split
      · next new => simp [new, below]
      · next old => simp [old]
  · next apart =>
      rw [List.perm_ext_iff_of_nodup (nodup_walk_of_nesting nesting' i) distinct]
      intro j
      rw [reached]
      split
      · next new => simp [new, apart, fresh]
      · rfl

theorem tokens_insertToken (inside : i < tree.size) :
    ((tree.insertToken parent slot token).tokens i).Perm
      (if parent ∈ tree.walk i then token :: tree.tokens i else tree.tokens i) := by
  have labels : ∀ j, (tree.insertToken parent slot token).label? j =
      if j = tree.size then some (.token token) else tree.label? j := label?_insertToken token known
  have same : (tree.walk i).filterMap (tree.insertToken parent slot token).token? =
      tree.tokens i := by
    apply List.filterMap_congr
    intro j member
    have known' := ((mem_walk_iff_mem_ancestors nesting inside).1 member).1
    apply token?_congr
    rw [labels, if_neg (Nat.ne_of_lt known')]
  have own : (tree.insertToken parent slot token).token? tree.size = some token := by
    rw [token?_eq_bind, labels, if_pos rfl, Option.bind_some]
  refine ((walk_insertToken token known nesting room inside).filterMap _).trans (.of_eq ?_)
  split
  · rw [List.filterMap_cons_some own, same]
  · exact same

end Insert

/-- The tokens are stream tokens in front of `eof`, no two of them the same, and none of them is in
the tree. -/
structure Missing (tree : ParseTree) (eof : Token) (tokens : List Token) : Prop where
  before : ∀ token ∈ tokens, ∃ index bound, token.index = some index ∧ eof.index = some bound ∧
    index < bound
  distinct : (tokens.filterMap (·.index) ++ tree.indicesAt 0).Nodup

/-- What `tree` has become when `tokens` are hung in, the first of them first. -/
structure Hung (tree : ParseTree) (eof : Token) (tokens : List Token) (final : ParseTree) :
    Prop where
  inOrder : final.InOrder eof
  carries : (final.tokens 0).Perm (tokens ++ tree.tokens 0)
  size : final.size = tree.size + tokens.length
  labels : ∀ i, i < tree.size → final.label? i = tree.label? i
  parents : ∀ i, i < tree.size → final.parent? i = tree.parent? i
  children : ∀ i, i < tree.size → (tree.children i).Sublist (final.children i)
  ranges : ∀ i, 0 < i → i < tree.size → final.tokenRange? i = tree.tokenRange? i
  fresh : ∀ k token, tokens[k]? = some token →
    final.label? (tree.size + k) = some (.token token)
  /-- Each token is under the deepest node that straddles its position. -/
  held : ∀ k token index, tokens[k]? = some token → token.index = some index →
    ∃ parent, final.parent? (tree.size + k) = some parent ∧ tree.Deepest index parent

theorem Closed.inOrder {outline : Outline} (closed : Closed eof tree outline)
    (nesting : Nesting tree.size tree.parent? tree.children)
    (ordered : outline.indices.Pairwise (· < ·)) : tree.InOrder eof where
  wellFormed := ⟨outline, closed.place, closed.depicts, closed.distinct⟩
  nesting := nesting
  ordered := by
    rw [indicesAt, closed.tokens_eq]
    exact ordered
  last := closed.getLast?_children

theorem InOrder.exists_closed (inOrder : tree.InOrder eof) :
    ∃ outline, Closed eof tree outline := by
  obtain ⟨root, outlines⟩ := inOrder.rooted.exists_outlines
  have depicts := outlines.depicts
  have last := inOrder.last
  rw [← outlines.place, depicts.children_eq, List.getLast?_map] at last
  cases ends : root.children.getLast? with
  | none => simp [ends] at last
  | some child =>
      have member := List.mem_of_getLast? ends
      rw [ends, Option.map_some, Option.bind_some, (depicts.child member).token?_eq] at last
      refine ⟨root, depicts, outlines.place, ?_, ?_, ?_⟩
      · cases root with
        | terminal place token => cases member
        | rule place name children => exact ⟨name, rfl⟩
      · rw [← outlines.walk_eq]
        exact walk_root_perm inOrder.nesting inOrder.size_pos
      · cases child with
        | terminal place token => exact ⟨place, ends.trans (by rw [Option.some.inj last])⟩
        | rule place name children => cases last

theorem InOrder.pairwise_position (inOrder : tree.InOrder eof) (known : i < tree.size) :
    (tree.streamedAt i).Pairwise fun first second => first.position < second.position := by
  rw [← List.pairwise_map, ← indicesAt_eq]
  exact inOrder.pairwise_indicesAt known

/-- Neither end of a row changes when a token goes inside. -/
theorem ends_eq_of_inside {before after : List Token} {first last : Token}
    (ordered : after.Pairwise fun first second => first.position < second.position)
    (ordered' : before.Pairwise fun first second => first.position < second.position)
    (perm : after.Perm (token :: before)) (member : first ∈ before) (member' : last ∈ before)
    (low : first.position < token.position) (high : token.position < last.position) :
    after.head? = before.head? ∧ after.getLast? = before.getLast? := by
  obtain ⟨front, back, rfl⟩ := List.append_of_mem (perm.mem_iff.2 List.mem_cons_self)
  have rest : front ++ back = before := by
    refine List.Perm.eq_of_pairwise ?_
      (ordered.sublist ((List.sublist_cons_self token back).append_left front)) ordered'
      (List.perm_middle.symm.trans perm).cons_inv
    intro a b _ _ less greater
    omega
  subst rest
  obtain ⟨-, later, earlier⟩ := List.pairwise_append.1 ordered
  have later' := (List.pairwise_cons.1 later).1
  have inFront : first ∈ front := by
    rcases List.mem_append.1 member with here | there
    · exact here
    · have less := later' first there
      omega
  have inBack : last ∈ back := by
    rcases List.mem_append.1 member' with here | there
    · have less := earlier last here token List.mem_cons_self
      omega
    · exact there
  obtain ⟨start, front', rfl⟩ := List.exists_cons_of_ne_nil (List.ne_nil_of_mem inFront)
  refine ⟨rfl, ?_⟩
  cases back with
  | nil => cases inBack
  | cons next back' => simp [List.getLast?_append, List.getLast?_cons]

namespace InOrder

variable (inOrder : tree.InOrder eof)

include inOrder

section Attach

variable {bound : Int} (placed : token.index = some index) (ending : eof.index = some bound)
  (less : index < bound) (absent : index ∉ tree.indicesAt 0)

include placed ending less absent

theorem attach : (tree.attach token).InOrder eof ∧
    ((tree.attach token).tokens 0).Perm (token :: tree.tokens 0) := by
  obtain ⟨outline, closed⟩ := inOrder.exists_closed
  obtain ⟨outline', closed', tokens, ordered, -⟩ := closed.attach placed ending less
  have ordered' := inOrder.ordered
  rw [indicesAt, closed.tokens_eq] at ordered' absent
  rw [closed.tokens_eq, closed'.tokens_eq]
  exact ⟨closed'.inOrder (nesting_attach inOrder.nesting inOrder.size_pos token)
    (ordered ordered' absent), tokens⟩

omit ending less absent in
theorem streamedAt_attach (known : i < tree.size) : ((tree.attach token).streamedAt i).Perm
    (if tree.holderFor index ∈ tree.walk i then token :: tree.streamedAt i
      else tree.streamedAt i) := by
  have inside := (inOrder.deepest_holderFor index).known
  have room := slotFor_le tree index (tree.holderFor index)
  rw [attach_eq_insertToken placed]
  refine ((tokens_insertToken token inside inOrder.nesting room known).filter _).trans (.of_eq ?_)
  split
  · exact List.filter_cons_of_pos (by simp [Token.conjured, placed])
  · rfl

/-- The range of a node around the new one reaches over it. -/
theorem tokenRange?_attach (below : 0 < i) (known : i < tree.size) :
    (tree.attach token).tokenRange? i = tree.tokenRange? i := by
  have perm := inOrder.streamedAt_attach placed known
  have ordered := inOrder.pairwise_position known
  have ordered' := (inOrder.attach placed ending less absent).1.pairwise_position
    (Nat.lt_of_lt_of_le known (le_size_attach tree token))
  split at perm
  · next inside =>
      have above := ((mem_walk_iff_mem_ancestors inOrder.nesting known).1 inside).2
      obtain ⟨first, last, low, high, range, placed', placed'', around⟩ :=
        ((inOrder.deepest_holderFor index).straddles_above inOrder above below).range
      obtain ⟨head, tail⟩ := tokenRange?_eq_some_iff.1 range
      have positions : first.position < token.position ∧ token.position < last.position := by
        simp only [Token.position, placed, placed', placed'']
        exact around
      have ends := ends_eq_of_inside ordered' ordered perm (List.mem_of_head? head)
        (List.mem_of_getLast? tail) positions.1 positions.2
      rw [range, tokenRange?_eq_some_iff, ends.1, ends.2]
      exact ⟨head, tail⟩
  · have same : (tree.attach token).streamedAt i = tree.streamedAt i :=
      List.Perm.eq_of_pairwise (fun a b _ _ less greater => by omega) ordered' ordered perm
    rw [tokenRange?, tokenRange?, ← streamedAt, ← streamedAt, same]

/-- One token is hung in. -/
theorem hung_attach : Hung tree eof [token] (tree.attach token) := by
  have known := (inOrder.deepest_holderFor index).known
  have added : tree.attach token = _ := attach_eq_insertToken placed
  obtain ⟨inOrder', carries⟩ := inOrder.attach placed ending less absent
  constructor
  · exact inOrder'
  · exact carries
  · rw [added, size_insertToken]
    rfl
  · intro i inside
    rw [added, label?_insertToken token known, if_neg (Nat.ne_of_lt inside)]
  · intro i inside
    rw [added, parent?_insertToken token known, if_neg (Nat.ne_of_lt inside)]
  · intro i inside
    rw [added, children_insertToken token known]
    split
    · exact List.sublist_insertIdx _ _ _
    · exact .refl _
  · exact fun i => inOrder.tokenRange?_attach placed ending less absent
  · intro k other at?
    obtain ⟨rfl, rfl⟩ : k = 0 ∧ token = other := by simpa [List.getElem?_singleton] using at?
    rw [added, label?_insertToken token known, Nat.add_zero, if_pos rfl]
  · intro k other index' at? placed'
    obtain ⟨rfl, rfl⟩ : k = 0 ∧ token = other := by simpa [List.getElem?_singleton] using at?
    obtain rfl : index = index' := Option.some.inj (placed.symm.trans placed')
    rw [added, parent?_insertToken token known, Nat.add_zero, if_pos rfl]
    exact ⟨_, rfl, inOrder.deepest_holderFor index⟩

end Attach

end InOrder

namespace Missing

theorem perm {order : List Token} (missing : Missing tree eof tokens)
    (perm : order.Perm tokens) : Missing tree eof order where
  before := fun token member => missing.before token (perm.mem_iff.1 member)
  distinct := (((perm.filterMap _).append_right _).nodup_iff).2 missing.distinct

/-- The first of the tokens is hung in, and the others are still missing. -/
theorem hung_attach (missing : Missing tree eof (token :: tokens)) (inOrder : tree.InOrder eof) :
    Hung tree eof [token] (tree.attach token) ∧ Missing (tree.attach token) eof tokens := by
  obtain ⟨index, bound, placed, ending, less⟩ := missing.before token List.mem_cons_self
  have distinct := missing.distinct
  rw [List.filterMap_cons_some placed, List.cons_append, List.nodup_cons, List.mem_append,
    not_or] at distinct
  have hung := inOrder.hung_attach placed ending less distinct.1.2
  refine ⟨hung, fun other member => missing.before other (List.mem_cons_of_mem token member), ?_⟩
  have added : ((tree.attach token).indicesAt 0).Perm (index :: tree.indicesAt 0) := by
    have carries := hung.carries.filterMap (·.index)
    rwa [List.cons_append, List.nil_append, List.filterMap_cons_some placed] at carries
  refine ((added.append_left _).trans List.perm_middle).nodup_iff.2 ?_
  rw [List.nodup_cons, List.mem_append, not_or]
  exact distinct

end Missing

namespace Hung

theorem refl (inOrder : tree.InOrder eof) : Hung tree eof [] tree where
  inOrder := inOrder
  carries := .refl _
  size := rfl
  labels := fun _ _ => rfl
  parents := fun _ _ => rfl
  children := fun _ _ => .refl _
  ranges := fun _ _ _ => rfl
  fresh := by simp
  held := by simp

section

variable (hung : Hung tree eof tokens final) (inOrder : tree.InOrder eof)

include hung

theorem size_le : tree.size ≤ final.size := by
  rw [hung.size]
  exact Nat.le_add_right _ _

theorem token?_eq {k : Nat} (at? : tokens[k]? = some token) :
    final.token? (tree.size + k) = some token := by
  rw [token?_eq_bind, hung.fresh k token at?, Option.bind_some]

/-- The new nodes are no rule's. -/
theorem lt_size_of_straddles (straddles : final.Straddles index i) : i < tree.size := by
  by_contra new
  obtain ⟨k, rfl⟩ := Nat.exists_eq_add_of_le (Nat.le_of_not_lt new)
  have known := straddles.known
  rw [hung.size] at known
  have rule := straddles.rule
  rw [rule?_eq_bind, hung.fresh k _ (List.getElem?_eq_getElem (by omega))] at rule
  cases rule

theorem straddles_iff (below : 0 < i) : final.Straddles index i ↔ tree.Straddles index i := by
  have kept : i < tree.size → final.rule? i = tree.rule? i :=
    fun inside => rule?_congr (hung.labels i inside)
  constructor
  · intro straddles
    have inside := hung.lt_size_of_straddles straddles
    exact ⟨kept inside ▸ straddles.rule, hung.ranges i below inside ▸ straddles.range⟩
  · intro straddles
    have inside := straddles.known
    exact ⟨(kept inside).symm ▸ straddles.rule,
      (hung.ranges i below inside).symm ▸ straddles.range⟩

include inOrder

theorem mem_ancestors_iff (inside : j < tree.size) :
    i ∈ final.ancestors j ↔ i ∈ tree.ancestors j := by
  rw [mem_ancestors_iff_encloses hung.inOrder.nesting (Nat.lt_of_lt_of_le inside hung.size_le),
    mem_ancestors_iff_encloses inOrder.nesting inside,
    inOrder.nesting.encloses_congr hung.parents inside]

/-- What is hung in changes no position's deepest node. -/
theorem deepest_iff : final.Deepest index i ↔ tree.Deepest index i := by
  have kept : ∀ {i : Nat}, tree.Deepest index i → final.Deepest index i := by
    intro i deepest
    refine ⟨Nat.lt_of_lt_of_le deepest.known hung.size_le, ?_, ?_⟩
    · rcases Nat.eq_zero_or_pos i with root | below
      · exact .inl root
      · exact deepest.straddles.imp_right (hung.straddles_iff below).2
    · intro j straddles
      rcases Nat.eq_zero_or_pos j with rfl | below
      · exact hung.inOrder.root_mem_ancestors (Nat.lt_of_lt_of_le deepest.known hung.size_le)
      · rw [hung.mem_ancestors_iff inOrder deepest.known]
        exact deepest.below j ((hung.straddles_iff below).1 straddles)
  constructor
  · intro deepest
    have first := inOrder.deepest_holderFor index
    rw [deepest.unique hung.inOrder.nesting (kept first)]
    exact first
  · exact kept

theorem holderFor_eq (index : Int) : final.holderFor index = tree.holderFor index :=
  ((hung.deepest_iff inOrder).1 (hung.inOrder.deepest_holderFor index)).unique inOrder.nesting
    (inOrder.deepest_holderFor index)

theorem parent?_eq {k : Nat} (at? : tokens[k]? = some token) (placed : token.index = some index) :
    final.parent? (tree.size + k) = some (tree.holderFor index) := by
  obtain ⟨parent, held, deepest⟩ := hung.held k token index at? placed
  rw [held, deepest.unique inOrder.nesting (inOrder.deepest_holderFor index)]

/-- More tokens are hung in behind others. -/
theorem trans {later : List Token} (hung' : Hung final eof later other) :
    Hung tree eof (tokens ++ later) other := by
  have within : ∀ {i : Nat}, i < tree.size → i < final.size :=
    fun inside => Nat.lt_of_lt_of_le inside hung.size_le
  have split : ∀ {k : Nat} {token : Token}, (tokens ++ later)[k]? = some token →
      tree.size + k < final.size ∧ tokens[k]? = some token ∨
      ∃ l, tree.size + k = final.size + l ∧ later[l]? = some token := by
    intro k token at?
    have size := hung.size
    rcases Nat.lt_or_ge k tokens.length with first | behind
    · rw [List.getElem?_append_left first] at at?
      exact .inl ⟨by omega, at?⟩
    · rw [List.getElem?_append_right behind] at at?
      exact .inr ⟨k - tokens.length, by omega, at?⟩
  constructor
  · exact hung'.inOrder
  · refine (hung'.carries.trans (hung.carries.append_left later)).trans ?_
    rw [← List.append_assoc]
    exact List.perm_append_comm.append_right _
  · rw [hung'.size, hung.size, List.length_append, Nat.add_assoc]
  · intro i inside
    rw [hung'.labels i (within inside), hung.labels i inside]
  · intro i inside
    rw [hung'.parents i (within inside), hung.parents i inside]
  · intro i inside
    exact (hung.children i inside).trans (hung'.children i (within inside))
  · intro i below inside
    rw [hung'.ranges i below (within inside), hung.ranges i below inside]
  · intro k token at?
    rcases split at? with ⟨inside, at?⟩ | ⟨l, same, at?⟩
    · rw [hung'.labels _ inside, hung.fresh k token at?]
    · rw [same, hung'.fresh l token at?]
  · intro k token index at? placed
    rcases split at? with ⟨inside, at?⟩ | ⟨l, same, at?⟩
    · rw [hung'.parents _ inside]
      exact hung.held k token index at? placed
    · obtain ⟨parent, held, deepest⟩ := hung'.held l token index at? placed
      exact ⟨parent, same ▸ held, (hung.deepest_iff inOrder).1 deepest⟩

end

end Hung

/-- Tokens that the tree lacks are hung in one after the other. -/
theorem InOrder.hung_foldl_attach (inOrder : tree.InOrder eof) (missing : Missing tree eof tokens) :
    Hung tree eof tokens (tokens.foldl ParseTree.attach tree) := by
  induction tokens generalizing tree with
  | nil => exact .refl inOrder
  | cons token rest ih =>
      obtain ⟨hung, missing'⟩ := missing.hung_attach inOrder
      exact hung.trans inOrder (ih hung.inOrder missing')

end ParseTree

end Typeahead
