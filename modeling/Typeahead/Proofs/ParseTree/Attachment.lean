import Typeahead.Proofs.ParseTree.Outline

namespace Typeahead

/-!
Tokens hung into a tree.  A token is put in front of the first child whose tokens come later, under
the deepest rule whose tokens stand on both sides of it.  No node is lost, and where the tokens
stood in order they stand in order afterwards.
-/

namespace Token

theorem head?_filterMap_index (tokens : List Token) :
    (tokens.filterMap (·.index)).head? = (tokens.filter (!·.conjured)).head?.bind (·.index) := by
  induction tokens with
  | nil => rfl
  | cons token rest ih =>
      cases placed : token.index with
      | none => simpa [placed, conjured] using ih
      | some index => simp [placed, conjured]

theorem getLast?_filterMap_index (tokens : List Token) :
    (tokens.filterMap (·.index)).getLast? =
      (tokens.filter (!·.conjured)).getLast?.bind (·.index) := by
  rw [List.getLast?_eq_head?_reverse, List.getLast?_eq_head?_reverse, ← List.filterMap_reverse,
    ← List.filter_reverse]
  exact head?_filterMap_index tokens.reverse

end Token

namespace Outline

def indices (outline : Outline) : List Int := outline.tokens.filterMap (·.index)

@[simp]
theorem indices_rule (place : Nat) (name : String) (children : List Outline) :
    (rule place name children).indices = children.flatMap indices := by
  rw [indices, tokens_rule, List.filterMap_flatMap]
  rfl

/-- Whether the tokens come after a stream position. -/
def isLater (index : Int) (outline : Outline) : Bool := outline.indices.head?.any (index < ·)

end Outline

namespace ParseTree

variable {tree : ParseTree} {outline : Outline} {parent slot : Nat} {token : Token} {index : Int}

theorem node?_insertToken_of_ne {other : Nat} (different : other ≠ parent)
    (inside : other < tree.size) :
    (tree.insertToken parent slot token).node? other = tree.node? other := by
  have bound : other < tree.nodes.size := inside
  simp [insertToken, node?, Array.getElem?_push, Array.getElem?_modify, Ne.symm different,
    Nat.ne_of_lt bound]

theorem node?_insertToken_parent {node : ParseNode} (found : tree.node? parent = some node) :
    (tree.insertToken parent slot token).node? parent =
      some { node with children := node.children.insertIdx slot tree.size } := by
  have bound : parent < tree.nodes.size := (Array.getElem?_eq_some_iff.1 found).1
  have here : tree.nodes[parent]? = some node := found
  simp [insertToken, node?, Array.getElem?_push, Array.getElem?_modify, Nat.ne_of_lt bound, here,
    size]

theorem node?_insertToken_size :
    (tree.insertToken parent slot token).node? tree.size =
      some { parent := some parent, label := .token token } := by
  simp only [insertToken, node?, size]
  rw [Array.getElem?_push, Array.size_modify, if_pos rfl]

namespace Depicts

/-- A part of the tree without the node that gets the token stays as it is. -/
theorem insertToken_of_not_mem (depicts : tree.Depicts outline)
    (absent : parent ∉ outline.places) :
    (tree.insertToken parent slot token).Depicts outline := by
  induction depicts with
  | @mk outline node found label children below ih =>
      have inside : outline.place < tree.size := (Array.getElem?_eq_some_iff.1 found).1
      have different : outline.place ≠ parent := fun same => absent (same ▸ outline.place_mem_places)
      refine .mk ((node?_insertToken_of_ne different inside).trans found) label children ?_
      intro child member
      apply ih child member
      intro listed
      cases outline with
      | terminal place token => cases member
      | rule place name children => exact absent (Outline.places_subset member listed)

theorem insertIdx_length_append {α : Type} (before after : List α) (a : α) :
    (before ++ after).insertIdx before.length a = before ++ a :: after := by
  induction before with
  | nil => rfl
  | cons first rest ih => simp [ih]

theorem insertToken_here {place : Nat} {name : String} {before after : List Outline}
    (depicts : tree.Depicts (.rule place name (before ++ after)))
    (distinct : (Outline.rule place name (before ++ after)).places.Nodup) (token : Token) :
    (tree.insertToken place before.length token).Depicts
      (.rule place name (before ++ .terminal tree.size token :: after)) := by
  have absent : place ∉ (before ++ after).flatMap Outline.places := by
    rw [Outline.places_rule] at distinct
    exact (List.nodup_cons.1 distinct).1
  cases depicts with
  | @mk _ node found label children below =>
      refine .mk (node?_insertToken_parent found) label ?_ ?_
      · simp only [Outline.children] at children ⊢
        rw [children, List.map_append, List.map_append, List.map_cons]
        have counted := insertIdx_length_append (before.map Outline.place)
          (after.map Outline.place) tree.size
        rw [List.length_map] at counted
        rw [counted]
        rfl
      · intro child member
        have kept : ∀ child ∈ before ++ after, (tree.insertToken place before.length token).Depicts child := by
          intro child inside
          refine (below child inside).insertToken_of_not_mem ?_
          intro listed
          exact absent (List.mem_flatMap.2 ⟨child, inside, listed⟩)
        simp only [Outline.children, List.mem_append, List.mem_cons] at member
        rcases member with first | rfl | later
        · exact kept child (List.mem_append_left _ first)
        · refine .mk node?_insertToken_size rfl rfl ?_
          intro child member
          cases member
        · exact kept child (List.mem_append_right _ later)

section Ranges

variable (depicts : tree.Depicts outline) (distinct : outline.places.Nodup)

include depicts distinct

theorem indexRange?_eq : tree.indexRange? outline.place =
    outline.indices.head?.bind fun first => outline.indices.getLast?.map fun last => (first, last) := by
  rw [Outline.indices, Token.head?_filterMap_index, Token.getLast?_filterMap_index]
  simp only [indexRange?, tokenRange?, depicts.tokens_eq distinct]
  generalize (outline.tokens.filter (!·.conjured)).head? = first
  generalize (outline.tokens.filter (!·.conjured)).getLast? = last
  cases first with
  | none => rfl
  | some first =>
      cases last with
      | none => cases head : first.index <;> simp [head]
      | some last => cases head : first.index <;> cases tail : last.index <;> simp [head, tail]

theorem firstIndex?_eq : tree.firstIndex? outline.place = outline.indices.head? := by
  rw [firstIndex?, depicts.indexRange?_eq distinct]
  cases outline.indices with
  | nil => rfl
  | cons first rest => simp [List.getLast?_cons]

theorem spans_iff : tree.spans index outline.place = true ↔
    (∃ place name children, outline = .rule place name children) ∧
      ∃ first last, outline.indices.head? = some first ∧ outline.indices.getLast? = some last ∧
        first < index ∧ index < last := by
  rw [spans, depicts.indexRange?_eq distinct, depicts.token?_eq]
  cases outline with
  | terminal place token => simp
  | rule place name children =>
      cases (Outline.rule place name children).indices.head? with
      | none => simp
      | some first => cases (Outline.rule place name children).indices.getLast? <;> simp

end Ranges

end Depicts

/-- The position among the children of `parent` in front of which a token is hung. -/
def slotFor (tree : ParseTree) (index : Int) (parent : Nat) : Nat :=
  ((tree.children parent).findIdx? fun child => (tree.firstIndex? child).any (index < ·)).getD
    (tree.children parent).length

theorem exists_split_findIdx? {α : Type} (test : α → Bool) (as : List α) :
    ∃ before after, as = before ++ after ∧ (as.findIdx? test).getD as.length = before.length ∧
      (∀ a ∈ before, test a = false) ∧ ∀ a rest, after = a :: rest → test a = true := by
  induction as with
  | nil => exact ⟨[], [], rfl, rfl, by simp, by simp⟩
  | cons a as ih =>
      by_cases holds : test a = true
      · refine ⟨[], a :: as, rfl, by simp [List.findIdx?_cons, holds], by simp, ?_⟩
        intro other rest same
        exact (List.cons.inj same).1 ▸ holds
      · obtain ⟨before, after, rfl, counted, failing, first⟩ := ih
        refine ⟨a :: before, after, rfl, ?_, ?_, first⟩
        · rw [List.findIdx?_cons, if_neg holds]
          cases found : (before ++ after).findIdx? test with
          | none => simpa [found] using counted
          | some i => simpa [found] using counted
        · simpa [holds] using failing

theorem slotFor_le (tree : ParseTree) (index : Int) (parent : Nat) :
    tree.slotFor index parent ≤ (tree.children parent).length := by
  obtain ⟨before, after, split, counted, -⟩ := exists_split_findIdx?
    (fun child => (tree.firstIndex? child).any (index < ·)) (tree.children parent)
  rw [slotFor, counted, split, List.length_append]
  exact Nat.le_add_right _ _

/-- The node under which a token goes. -/
def holderFor (tree : ParseTree) (index : Int) : Nat := tree.deepestSpanning index tree.size 0

theorem attach_eq_insertToken (placed : token.index = some index) : tree.attach token =
    tree.insertToken (tree.holderFor index) (tree.slotFor index (tree.holderFor index)) token := by
  simp only [attach, placed, slotFor, holderFor]

section Children

variable {place : Nat} {name : String} {children : List Outline}
  (depicts : tree.Depicts (.rule place name children))
  (distinct : (Outline.rule place name children).places.Nodup)

include distinct

omit depicts in
theorem nodup_places_of_mem {child : Outline} (member : child ∈ children) : child.places.Nodup := by
  rw [Outline.places_rule] at distinct
  exact (List.nodup_flatMap.1 (List.nodup_cons.1 distinct).2).1 child member

include depicts

theorem Depicts.exists_slot (index : Int) :
    ∃ before after, children = before ++ after ∧ tree.slotFor index place = before.length ∧
      (∀ child ∈ before, child.isLater index = false) ∧
      ∀ child rest, after = child :: rest → child.isLater index = true := by
  obtain ⟨before, after, rfl, counted, failing, first⟩ := exists_split_findIdx?
    ((fun child => (tree.firstIndex? child).any (index < ·)) ∘ Outline.place) children
  have same : ∀ child ∈ before ++ after,
      (tree.firstIndex? child.place).any (index < ·) = child.isLater index := by
    intro child member
    rw [(depicts.child member).firstIndex?_eq (nodup_places_of_mem distinct member)]
    rfl
  have listed : tree.children place = (before ++ after).map Outline.place := depicts.children_eq
  refine ⟨before, after, rfl, ?_, ?_, ?_⟩
  · rw [slotFor, listed, List.findIdx?_map, List.length_map, counted]
  · intro child member
    rw [← same child (List.mem_append_left _ member)]
    exact failing child member
  · intro child rest split
    rw [← same child (List.mem_append_right _ (split ▸ List.mem_cons_self))]
    exact first child rest split

omit distinct in
theorem Depicts.find?_spans (index : Int) :
    ((tree.children place).find? (tree.spans index) = none ∧
      ∀ child ∈ children, ¬tree.spans index child.place = true) ∨
    ∃ before child after, children = before ++ child :: after ∧
      tree.spans index child.place = true ∧
      (tree.children place).find? (tree.spans index) = some child.place := by
  have listed : tree.children place = children.map Outline.place := depicts.children_eq
  rw [listed, List.find?_map]
  cases found : children.find? (tree.spans index ∘ Outline.place) with
  | none =>
      refine .inl ⟨rfl, ?_⟩
      intro child member
      exact List.find?_eq_none.1 found child member
  | some child =>
      obtain ⟨before, after, split⟩ := List.append_of_mem (List.mem_of_find?_eq_some found)
      have spanning : (tree.spans index ∘ Outline.place) child = true := List.find?_some found
      exact .inr ⟨before, child, after, split, spanning, rfl⟩

end Children

/-- What hanging in a token does to a part of the tree. -/
structure Attached (size : Nat) (index : Int) (token : Token) (tree : ParseTree)
    (outline outline' : Outline) : Prop where
  depicts : tree.Depicts outline'
  place : outline'.place = outline.place
  label : outline'.label = outline.label
  places : outline'.places.Perm (size :: outline.places)
  tokens : outline'.tokens.Perm (token :: outline.tokens)
  last : ∀ here last, outline.children.getLast? = some (.terminal here last) →
    (Outline.terminal here last).isLater index = true →
    outline'.children.getLast? = some (.terminal here last)
  ordered : outline.indices.Pairwise (· < ·) → index ∉ outline.indices →
    outline'.indices.Pairwise (· < ·)
  head : ∀ first, outline.indices.head? = some first → first ≤ index →
    outline'.indices.head? = some first
  front : (∀ other ∈ outline.indices, index < other) → outline'.indices.head? = some index

/-- No index is less than the first. -/
def Headed (indices : List Int) : Prop :=
  ∀ first, indices.head? = some first → ∀ other ∈ indices, first ≤ other

theorem head_le_of_pairwise {indices : List Int} {first other : Int}
    (ordered : indices.Pairwise (· < ·)) (head : indices.head? = some first)
    (member : other ∈ indices) : first ≤ other := by
  cases indices with
  | nil => cases member
  | cons index rest =>
      obtain rfl : index = first := Option.some.inj head
      rcases List.mem_cons.1 member with rfl | later
      · exact Int.le_refl _
      · exact Int.le_of_lt ((List.pairwise_cons.1 ordered).1 other later)

theorem le_getLast_of_pairwise {indices : List Int} {last other : Int}
    (ordered : indices.Pairwise (· < ·)) (tail : indices.getLast? = some last)
    (member : other ∈ indices) : other ≤ last := by
  obtain ⟨front, rfl⟩ := List.getLast?_eq_some_iff.1 tail
  rcases List.mem_append.1 member with earlier | here
  · exact Int.le_of_lt ((List.pairwise_append.1 ordered).2.2 other earlier last (by simp))
  · exact Int.le_of_eq (List.mem_singleton.1 here)

theorem exists_ends {indices : List Int} {other : Int} (member : other ∈ indices) :
    ∃ first last, indices.head? = some first ∧ indices.getLast? = some last := by
  cases indices with
  | nil => cases member
  | cons first rest => exact ⟨first, _, rfl, List.getLast?_cons⟩

/-- A child that does not come later and does not span the position comes before it. -/
theorem lt_of_not_isLater {child : Outline} {other : Int} (depicts : tree.Depicts child)
    (distinct : child.places.Nodup) (ordered : child.indices.Pairwise (· < ·))
    (absent : index ∉ child.indices) (early : child.isLater index = false)
    (apart : ¬tree.spans index child.place = true) (member : other ∈ child.indices) :
    other < index := by
  obtain ⟨first, last, head, tail⟩ := exists_ends member
  have notLater : first ≤ index := by simpa [Outline.isLater, head] using early
  have firstMember : first ∈ child.indices := List.mem_of_head? head
  have low : first < index := by
    rcases Int.lt_or_eq_of_le notLater with less | same
    · exact less
    · exact absurd (same ▸ firstMember) absent
  have bound := le_getLast_of_pairwise ordered tail member
  cases child with
  | terminal place token =>
      have single : (Outline.terminal place token).indices = token.index.toList := by
        cases placed : token.index <;> simp [Outline.indices, placed]
      rw [single, Option.mem_toList] at member firstMember
      have same : other = first := Option.some.inj (member.symm.trans firstMember)
      exact same ▸ low
  | rule place name children =>
      have high : last ≤ index := by
        by_contra above
        exact apart ((depicts.spans_iff distinct).2
          ⟨⟨place, name, children, rfl⟩, first, last, head, tail, low, by omega⟩)
      have different : other ≠ index := fun same => absent (same ▸ member)
      omega

theorem lt_of_isLater {child : Outline} {other : Int} (ordered : child.indices.Pairwise (· < ·))
    (later : child.isLater index = true) (member : other ∈ child.indices) : index < other := by
  obtain ⟨first, last, head, tail⟩ := exists_ends member
  have less : index < first := by simpa [Outline.isLater, head] using later
  have bound := head_le_of_pairwise ordered head member
  omega

namespace Attached

variable {size place : Nat} {name : String} {before after : List Outline}

theorem indices {outline' : Outline} (attached : Attached size index token tree outline outline')
    (placed : token.index = some index) : outline'.indices.Perm (index :: outline.indices) := by
  have kept := attached.tokens.filterMap (·.index)
  rwa [List.filterMap_cons_some placed] at kept

theorem headed {outline' : Outline} (attached : Attached size index token tree outline outline')
    (placed : token.index = some index) (headed : Headed outline.indices) :
    Headed outline'.indices := by
  have members : ∀ other, other ∈ outline'.indices ↔ other = index ∨ other ∈ outline.indices := by
    intro other
    rw [(attached.indices placed).mem_iff, List.mem_cons]
  intro first head other member
  by_cases before : ∀ other ∈ outline.indices, index < other
  · obtain rfl : index = first := Option.some.inj ((attached.front before).symm.trans head)
    rcases (members other).1 member with rfl | old
    · exact Int.le_refl _
    · exact Int.le_of_lt (before other old)
  · simp only [not_forall, Int.not_lt] at before
    obtain ⟨low, old, bound⟩ := before
    obtain ⟨least, _, start, -⟩ := exists_ends old
    have smaller := Int.le_trans (headed least start low old) bound
    obtain rfl : least = first := Option.some.inj ((attached.head least start smaller).symm.trans head)
    rcases (members other).1 member with rfl | old
    · exact smaller
    · exact headed least start other old

theorem ends {α : Type} {before after : List α} {a b : α}
    (last : (before ++ after).getLast? = some b) (nonempty : after ≠ []) :
    (before ++ a :: after).getLast? = some b := by
  cases after with
  | nil => exact absurd rfl nonempty
  | cons first rest => simpa [List.getLast?_append, List.getLast?_cons] using last

theorem here (placed : token.index = some index)
    (depicts : tree.Depicts (.rule place name (before ++ after)))
    (distinct : (Outline.rule place name (before ++ after)).places.Nodup)
    (apart : ∀ child ∈ before ++ after, ¬tree.spans index child.place = true)
    (early : ∀ child ∈ before, child.isLater index = false)
    (late : ∀ child rest, after = child :: rest → child.isLater index = true) :
    Attached tree.size index token (tree.insertToken place before.length token)
      (.rule place name (before ++ after))
      (.rule place name (before ++ .terminal tree.size token :: after)) where
  depicts := depicts.insertToken_here distinct token
  place := rfl
  label := rfl
  places := by
    simp only [Outline.places_rule, List.flatMap_append, List.flatMap_cons, Outline.places_terminal]
    exact (List.perm_middle.cons place).trans (List.Perm.swap _ _ _)
  tokens := by
    simp only [Outline.tokens_rule, List.flatMap_append, List.flatMap_cons, Outline.tokens_terminal]
    exact List.perm_middle
  last := by
    intro spot last ending later
    refine ends ending ?_
    intro empty
    subst empty
    have member : Outline.terminal spot last ∈ before := by
      simpa [Outline.children] using List.mem_of_getLast? ending
    rw [early _ member] at later
    cases later
  ordered := by
    intro ordered absent
    have single : (Outline.terminal tree.size token).indices = [index] := by
      simp [Outline.indices, placed]
    simp only [Outline.indices_rule, List.flatMap_append, List.flatMap_cons, single] at *
    obtain ⟨left, right, across⟩ := List.pairwise_append.1 ordered
    rw [List.mem_append, not_or] at absent
    have below : ∀ other ∈ before.flatMap Outline.indices, other < index := by
      intro other member
      obtain ⟨child, inside, listed⟩ := List.mem_flatMap.1 member
      have inChildren := List.mem_append_left after inside
      refine lt_of_not_isLater (depicts.child inChildren)
        (nodup_places_of_mem distinct inChildren) ((List.pairwise_flatMap.1 left).1 child inside)
        ?_ (early child inside) (apart child inChildren) listed
      intro found
      exact absent.1 (List.mem_flatMap.2 ⟨child, inside, found⟩)
    have above : ∀ other ∈ after.flatMap Outline.indices, index < other := by
      intro other member
      cases after with
      | nil => cases member
      | cons child rest =>
          have later := late child rest rfl
          rw [List.flatMap_cons] at right member
          obtain ⟨inner, _, between⟩ := List.pairwise_append.1 right
          rcases List.mem_append.1 member with first | further
          · exact lt_of_isLater inner later first
          · obtain ⟨lead, head⟩ : ∃ lead, child.indices.head? = some lead := by
              cases head : child.indices.head? with
              | none => simp [Outline.isLater, head] at later
              | some lead => exact ⟨lead, rfl⟩
            have less := lt_of_isLater inner later (List.mem_of_head? head)
            exact Int.lt_trans less (between lead (List.mem_of_head? head) other further)
    refine List.pairwise_append.2 ⟨left, List.pairwise_cons.2 ⟨above, right⟩, ?_⟩
    intro low lowMember high highMember
    rcases List.mem_cons.1 highMember with rfl | further
    · exact below low lowMember
    · exact across low lowMember high further
  head := by
    intro first head bound
    rw [Outline.indices_rule, List.flatMap_append, List.head?_append] at head ⊢
    cases start : (before.flatMap Outline.indices).head? with
    | some least => simpa [start] using head
    | none =>
        rw [start, Option.none_or] at head
        cases after with
        | nil => cases head
        | cons child rest =>
            have later := late child rest rfl
            cases lead : child.indices.head? with
            | none => simp [Outline.isLater, lead] at later
            | some least =>
                rw [List.flatMap_cons, List.head?_append, lead, Option.some_or] at head
                obtain rfl := Option.some.inj head
                have less : index < least := by simpa [Outline.isLater, lead] using later
                omega
  front := by
    intro least
    have none : before.flatMap Outline.indices = [] := by
      rw [List.flatMap_eq_nil_iff]
      intro child member
      have notLater := early child member
      cases start : child.indices with
      | nil => rfl
      | cons lead rest =>
          have less : index < lead := by
            apply least
            rw [Outline.indices_rule, List.mem_flatMap]
            exact ⟨child, List.mem_append_left _ member, by simp [start]⟩
          simp [Outline.isLater, start, less] at notLater
    rw [Outline.indices_rule, List.flatMap_append, none]
    simp [Outline.indices, placed]

theorem inside {parent slot : Nat} {child child' : Outline} (placed : token.index = some index)
    (depicts : tree.Depicts (.rule place name (before ++ child :: after)))
    (distinct : (Outline.rule place name (before ++ child :: after)).places.Nodup)
    (spanning : tree.spans index child.place = true) (member : parent ∈ child.places)
    (attached : Attached tree.size index token (tree.insertToken parent slot token) child child') :
    Attached tree.size index token (tree.insertToken parent slot token)
      (.rule place name (before ++ child :: after))
      (.rule place name (before ++ child' :: after)) where
  depicts := by
    simp only [Outline.places_rule, List.flatMap_append, List.flatMap_cons] at distinct
    obtain ⟨fresh, distinct⟩ := List.nodup_cons.1 distinct
    cases depicts with
    | @mk _ node found label children below =>
        have bound : place < tree.size := (Array.getElem?_eq_some_iff.1 found).1
        have different : place ≠ parent := by
          intro same
          subst same
          exact fresh (List.mem_append_right _ (List.mem_append_left _ member))
        refine .mk ((node?_insertToken_of_ne different bound).trans found) label ?_ ?_
        · simpa [Outline.children, attached.place] using children
        · intro other listed
          simp only [Outline.children, List.mem_append, List.mem_cons] at listed
          rcases listed with first | rfl | later
          · refine (below other (List.mem_append_left _ first)).insertToken_of_not_mem ?_
            intro inOther
            exact (List.nodup_append.1 distinct).2.2 parent
              (List.mem_flatMap.2 ⟨other, first, inOther⟩) parent
              (List.mem_append_left _ member) rfl
          · exact attached.depicts
          · refine (below other (by simp [Outline.children, later])).insertToken_of_not_mem ?_
            intro inOther
            exact (List.nodup_append.1 (List.nodup_append.1 distinct).2.1).2.2 parent member parent
              (List.mem_flatMap.2 ⟨other, later, inOther⟩) rfl
  place := rfl
  label := rfl
  places := by
    simp only [Outline.places_rule, List.flatMap_append, List.flatMap_cons]
    have moved : (before.flatMap Outline.places ++ (child'.places ++ after.flatMap Outline.places)).Perm
        (tree.size :: (before.flatMap Outline.places ++
          (child.places ++ after.flatMap Outline.places))) := by
      refine ((attached.places.append_right _).append_left _).trans ?_
      exact List.perm_middle
    exact (moved.cons place).trans (List.Perm.swap _ _ _)
  tokens := by
    simp only [Outline.tokens_rule, List.flatMap_append, List.flatMap_cons]
    refine ((attached.tokens.append_right _).append_left _).trans ?_
    exact List.perm_middle
  last := by
    intro spot last ending later
    have kind := ((depicts.child (by simp [Outline.children])).spans_iff
      (nodup_places_of_mem distinct (by simp))).1 spanning
    obtain ⟨⟨_, _, _, rule⟩, _⟩ := kind
    cases after with
    | nil =>
        simp only [Outline.children, List.getLast?_append, List.getLast?_singleton,
          Option.some_or, Option.some.injEq] at ending
        rw [ending] at rule
        cases rule
    | cons next rest =>
        simpa [Outline.children, List.getLast?_append, List.getLast?_cons] using ending
  ordered := by
    intro ordered absent
    obtain ⟨_, first, last, head, tail, low, high⟩ :=
      ((depicts.child (by simp [Outline.children])).spans_iff
        (nodup_places_of_mem distinct (by simp))).1 spanning
    simp only [Outline.indices_rule, List.flatMap_append, List.flatMap_cons] at *
    obtain ⟨left, right, across⟩ := List.pairwise_append.1 ordered
    obtain ⟨inner, later, between⟩ := List.pairwise_append.1 right
    simp only [List.mem_append, not_or] at absent
    have grown := attached.ordered inner absent.2.1
    have members : ∀ other, other ∈ child'.indices ↔ other = index ∨ other ∈ child.indices := by
      intro other
      rw [(attached.indices placed).mem_iff, List.mem_cons]
    refine List.pairwise_append.2 ⟨left, List.pairwise_append.2 ⟨grown, later, ?_⟩, ?_⟩
    · intro low lowMember other further
      rcases (members low).1 lowMember with rfl | old
      · exact Int.lt_trans high (between last (List.mem_of_getLast? tail) other further)
      · exact between low old other further
    · intro other further high highMember
      rcases List.mem_append.1 highMember with own | after
      · rcases (members high).1 own with rfl | old
        · exact Int.lt_trans
            (across other further first (List.mem_append_left _ (List.mem_of_head? head))) low
        · exact across other further high (List.mem_append_left _ old)
      · exact across other further high (List.mem_append_right _ after)
  head := by
    intro first head bound
    obtain ⟨_, least, _, lead, -⟩ :=
      ((depicts.child (by simp [Outline.children])).spans_iff
        (nodup_places_of_mem distinct (by simp))).1 spanning
    simp only [Outline.indices_rule, List.flatMap_append, List.flatMap_cons, List.head?_append,
      lead] at head ⊢
    cases start : (before.flatMap Outline.indices).head? with
    | some other => simpa [start] using head
    | none =>
        rw [start, Option.none_or, Option.some_or] at head
        obtain rfl := Option.some.inj head
        rw [attached.head least lead bound]
        rfl
  front := by
    intro below
    obtain ⟨_, first, _, lead, _, low, -⟩ :=
      ((depicts.child (by simp [Outline.children])).spans_iff
        (nodup_places_of_mem distinct (by simp))).1 spanning
    have high : index < first := by
      apply below
      rw [Outline.indices_rule, List.mem_flatMap]
      exact ⟨child, by simp, List.mem_of_head? lead⟩
    omega

end Attached

theorem Depicts.exists_attached {depth place : Nat} {name : String} {children : List Outline}
    (placed : token.index = some index) (depicts : tree.Depicts (.rule place name children))
    (distinct : (Outline.rule place name children).places.Nodup)
    (enough : (Outline.rule place name children).places.length ≤ depth) :
    ∃ outline', tree.deepestSpanning index depth place ∈ (Outline.rule place name children).places ∧
      Attached tree.size index token
        (tree.insertToken (tree.deepestSpanning index depth place)
          (tree.slotFor index (tree.deepestSpanning index depth place)) token)
        (.rule place name children) outline' := by
  induction depth generalizing place name children with
  | zero => simp at enough
  | succ depth ih =>
      rcases depicts.find?_spans index with ⟨missing, apart⟩ | ⟨before, child, after, rfl, spanning, found⟩
      · have stays : tree.deepestSpanning index (depth + 1) place = place := by
          rw [deepestSpanning, missing]
        obtain ⟨before, after, rfl, counted, early, late⟩ := depicts.exists_slot distinct index
        rw [stays, counted]
        exact ⟨_, by simp, Attached.here placed depicts distinct apart early late⟩
      · have moves : tree.deepestSpanning index (depth + 1) place =
            tree.deepestSpanning index depth child.place := by
          rw [deepestSpanning, found]
        have member : child ∈ before ++ child :: after := by simp
        have distinctChild := nodup_places_of_mem distinct member
        have smaller := Outline.length_places_lt place name member
        obtain ⟨⟨spot, rule, grandchildren, rfl⟩, _⟩ :=
          ((depicts.child member).spans_iff distinctChild).1 spanning
        obtain ⟨child', within, attached⟩ :=
          ih (depicts.child member) distinctChild (by omega)
        rw [moves]
        exact ⟨_, Outline.places_subset member within,
          attached.inside placed depicts distinct spanning within⟩

/-- An arena all of whose nodes are below the root, which has the end token as its last child. -/
structure Closed (eof : Token) (tree : ParseTree) (outline : Outline) : Prop where
  depicts : tree.Depicts outline
  place : outline.place = 0
  rule : ∃ name, outline.label = .rule name
  places : outline.places.Perm (List.range tree.size)
  last : ∃ here, outline.children.getLast? = some (.terminal here eof)

namespace Closed

variable {eof : Token} {bound : Int}

theorem distinct (closed : Closed eof tree outline) : outline.places.Nodup :=
  closed.places.nodup_iff.2 List.nodup_range

theorem attach (closed : Closed eof tree outline) (placed : token.index = some index)
    (ending : eof.index = some bound) (less : index < bound) :
    ∃ outline', Closed eof (tree.attach token) outline' ∧
      outline'.tokens.Perm (token :: outline.tokens) ∧
      (outline.indices.Pairwise (· < ·) → index ∉ outline.indices →
        outline'.indices.Pairwise (· < ·)) ∧
      (Headed outline.indices → Headed outline'.indices) := by
  have distinct := closed.distinct
  obtain ⟨depicts, place, ⟨name, rule⟩, places, ⟨here, last⟩⟩ := closed
  cases outline with
  | terminal spot other => cases rule
  | rule spot name children =>
      obtain rfl : spot = 0 := place
      have enough := depicts.length_places_le distinct
      obtain ⟨outline', within, attached⟩ := depicts.exists_attached placed distinct enough
      have same : tree.attach token = _ := attach_eq_insertToken placed
      have later : (Outline.terminal here eof).isLater index = true := by
        simp [Outline.isLater, Outline.indices, ending, less]
      refine ⟨outline', ⟨same ▸ attached.depicts, attached.place, ⟨name, attached.label⟩, ?_,
        ⟨here, attached.last here eof last later⟩⟩, attached.tokens, attached.ordered,
        attached.headed placed⟩
      rw [same, size_insertToken, List.range_succ]
      exact (attached.places.trans (places.cons _)).trans (List.perm_append_singleton _ _).symm

theorem attach_all (closed : Closed eof tree outline) (ending : eof.index = some bound)
    {skipped : List Token}
    (less : ∀ token ∈ skipped, ∃ index, token.index = some index ∧ index < bound) :
    ∃ outline', Closed eof (skipped.foldl ParseTree.attach tree) outline' ∧
      outline'.tokens.Perm (skipped ++ outline.tokens) ∧
      (outline.indices.Pairwise (· < ·) →
        (skipped.filterMap (·.index) ++ outline.indices).Nodup →
        outline'.indices.Pairwise (· < ·)) ∧
      (Headed outline.indices → Headed outline'.indices) := by
  induction skipped generalizing tree outline with
  | nil => exact ⟨outline, closed, .refl _, fun ordered _ => ordered, id⟩
  | cons token rest ih =>
      obtain ⟨index, placed, below⟩ := less token (by simp)
      obtain ⟨outline', closed', tokens, ordered, headed⟩ := closed.attach placed ending below
      obtain ⟨final, finished, allTokens, allOrdered, allHeaded⟩ :=
        ih closed' (fun token member => less token (by simp [member]))
      have indices : outline'.indices.Perm (index :: outline.indices) := by
        have kept := tokens.filterMap (·.index)
        rwa [List.filterMap_cons_some placed] at kept
      refine ⟨final, finished, ?_, ?_, fun least => allHeaded (headed least)⟩
      · exact (allTokens.trans (tokens.append_left rest)).trans List.perm_middle
      · intro sorted distinct
        rw [List.filterMap_cons_some placed, List.cons_append, List.nodup_cons, List.mem_append,
          not_or] at distinct
        apply allOrdered (ordered sorted distinct.1.2)
        refine ((indices.append_left _).trans List.perm_middle).nodup_iff.2 ?_
        rw [List.nodup_cons, List.mem_append, not_or]
        exact distinct

theorem walk_perm (closed : Closed eof tree outline) :
    (tree.walk 0).Perm (List.range tree.size) := by
  rw [← closed.place, closed.depicts.walk_eq closed.distinct]
  exact closed.places

theorem tokens_eq (closed : Closed eof tree outline) : tree.tokens 0 = outline.tokens := by
  rw [← closed.place]
  exact closed.depicts.tokens_eq closed.distinct

theorem getLast?_tokens (closed : Closed eof tree outline) :
    (tree.tokens 0).getLast? = some eof := by
  rw [closed.tokens_eq]
  obtain ⟨_, _, ⟨name, rule⟩, _, ⟨here, last⟩⟩ := closed
  cases outline with
  | terminal spot other => cases rule
  | rule spot name children =>
      obtain ⟨front, rfl⟩ : ∃ front, children = front ++ [.terminal here eof] :=
        List.getLast?_eq_some_iff.1 last
      simp

theorem getLast?_children (closed : Closed eof tree outline) :
    ((tree.children 0).getLast?.bind tree.token?) = some eof := by
  obtain ⟨depicts, place, _, _, ⟨here, last⟩⟩ := closed
  have member : Outline.terminal here eof ∈ outline.children := List.mem_of_getLast? last
  rw [← place, depicts.children_eq, List.getLast?_map, last]
  exact (depicts.child member).token?_eq

end Closed

/-- The tokens of a tree's leaves and the end token. -/
def streamed (tokenOf : Leaf → Token) (eof : Token) (tree : SyntaxTree) : List Token :=
  tree.leaves.map tokenOf ++ [eof]

section Ended

variable (tokenOf : Leaf → Token) (eof : Token) (rule : String) (children : List SyntaxTree)
  (arena : ParseTree)
  (stored : arena.nodes = ((SyntaxTree.node rule children).nodes tokenOf none 0).toArray)

include stored

theorem places_perm_range : ((SyntaxTree.node rule children).outline tokenOf 0).places.Perm
    (List.range arena.size) := by
  rw [SyntaxTree.places_outline, List.range_eq_range', ParseTree.size, stored, List.size_toArray,
    SyntaxTree.length_nodes]

/-- The arena of a tree with the end token hung in shows the tree and that token. -/
theorem depicts_insertToken :
    (arena.insertToken 0 (arena.children 0).length eof).Depicts
      (.rule 0 rule (SyntaxTree.outlines tokenOf 1 children ++ [.terminal arena.size eof])) := by
  have depicts : arena.Depicts ((SyntaxTree.node rule children).outline tokenOf 0) := by
    refine SyntaxTree.depicts_outline _ none 0 _ [] [] ?_ rfl
    simp [stored]
  have places := places_perm_range tokenOf rule children arena stored
  rw [SyntaxTree.outline] at depicts places
  generalize SyntaxTree.outlines tokenOf (0 + 1) children = kids at *
  have listed : arena.children 0 = kids.map Outline.place := depicts.children_eq
  have whole : kids ++ [] = kids := List.append_nil kids
  have distinct : (Outline.rule 0 rule kids).places.Nodup := places.nodup_iff.2 List.nodup_range
  rw [← whole] at depicts distinct
  have hung := depicts.insertToken_here distinct eof
  rw [listed, List.length_map]
  exact hung

theorem closed_insertToken :
    ∃ outline, Closed eof (arena.insertToken 0 (arena.children 0).length eof) outline ∧
      outline.tokens = streamed tokenOf eof (.node rule children) := by
  have tokens := SyntaxTree.tokens_outline tokenOf 0 (.node rule children)
  have places := places_perm_range tokenOf rule children arena stored
  have hung := depicts_insertToken tokenOf eof rule children arena stored
  rw [SyntaxTree.outline] at tokens places
  generalize SyntaxTree.outlines tokenOf 1 children = kids at *
  refine ⟨.rule 0 rule (kids ++ [.terminal arena.size eof]), ⟨hung, rfl, ⟨rule, rfl⟩, ?_,
    ⟨arena.size, by simp [Outline.children]⟩⟩, ?_⟩
  · have appended : (Outline.rule 0 rule (kids ++ [.terminal arena.size eof])).places =
        (Outline.rule 0 rule kids).places ++ [arena.size] := by
      simp
    rw [appended, size_insertToken, List.range_succ]
    exact places.append_right _
  · rw [streamed, ← tokens]
    simp

end Ended

/-- The arena of a tree with nothing passed over lays it out from place 0 on, with the end token
behind it. -/
theorem depicts_ofLeaves (tokenOf : Leaf → Token) (eof : Token) (rule : String)
    (children : List SyntaxTree) :
    (ofLeaves tokenOf eof [] (.node rule children)).size = SyntaxTree.sizes children + 2 ∧
      (ofLeaves tokenOf eof [] (.node rule children)).Depicts
        (.rule 0 rule (SyntaxTree.outlines tokenOf 1 children ++
          [.terminal (SyntaxTree.sizes children + 1) eof])) := by
  obtain ⟨arena, stored⟩ : ∃ arena : ParseTree, arena = ⟨((SyntaxTree.node rule children).nodes
    tokenOf none 0).toArray⟩ := ⟨_, rfl⟩
  have size : arena.size = SyntaxTree.sizes children + 1 := by
    rw [stored, ParseTree.size, List.size_toArray, SyntaxTree.length_nodes, SyntaxTree.size]
  have depicts := depicts_insertToken tokenOf eof rule children arena (by rw [stored])
  have hung : ofLeaves tokenOf eof [] (.node rule children) =
      arena.insertToken 0 (arena.children 0).length eof := by
    rw [stored]
    rfl
  rw [size] at depicts
  rw [hung, size_insertToken, size]
  exact ⟨rfl, depicts⟩

/-- The arena of a tree has its tokens, those passed over and the end token, which comes last;
the tokens are in order if they were in order in the tree and no token was passed over twice or
taken as well. -/
theorem exists_closed_ofLeaves (tokenOf : Leaf → Token) {eof : Token} {skipped : List Token}
    (rule : String) (children : List SyntaxTree) {bound : Int}
    (ending : eof.index = some bound)
    (less : ∀ token ∈ skipped, ∃ index, token.index = some index ∧ index < bound) :
    ∃ outline, Closed eof (ofLeaves tokenOf eof skipped (.node rule children)) outline ∧
      outline.tokens.Perm (skipped ++ streamed tokenOf eof (.node rule children)) ∧
      (((streamed tokenOf eof (.node rule children)).filterMap (·.index)).Pairwise (· < ·) →
        ((skipped ++ streamed tokenOf eof (.node rule children)).filterMap (·.index)).Nodup →
        outline.indices.Pairwise (· < ·)) ∧
      (Headed ((streamed tokenOf eof (.node rule children)).filterMap (·.index)) →
        Headed outline.indices) := by
  obtain ⟨outline, closed, tokens⟩ := closed_insertToken tokenOf eof rule children
    ⟨((SyntaxTree.node rule children).nodes tokenOf none 0).toArray⟩ rfl
  obtain ⟨final, finished, allTokens, ordered, headed⟩ := closed.attach_all ending less
  refine ⟨final, finished, tokens ▸ allTokens, ?_, tokens ▸ headed⟩
  intro sorted distinct
  rw [List.filterMap_append] at distinct
  exact ordered (by rwa [Outline.indices, tokens]) (by rwa [Outline.indices, tokens])

end ParseTree

end Typeahead
