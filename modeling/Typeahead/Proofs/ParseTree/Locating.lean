import Typeahead.Position
import Typeahead.Proofs.ParseTree.Attachment
import Typeahead.Proofs.Spelling

namespace Typeahead

/-!
The search for a caret in a tree.  Whatever the shape of the tree, the answer is the leftmost
terminal under the caret, or else the leftmost hidden token that the tree spans.  The argument rests
on one fact about texts: two tokens with another one between them are not under the same caret.  So
a rule of which no terminal is under the caret has no token under it when there is one outside it.
-/

namespace TokenStream.Spells

variable {code : List Char} {stream : TokenStream} (spells : stream.Spells code)
  {first second token : Token} {caret : Caret}

include spells

theorem locateInRange_eq_none {context : Nat} (member : first ∈ stream.tokens.toList)
    (member' : second ∈ stream.tokens.toList)
    (missed : ∀ token ∈ stream.tokens.toList, first.position ≤ token.position →
      token.position ≤ second.position → token.covers caret.line caret.column = false) :
    ParseTree.locateInRange stream caret context first second = none := by
  have nothing : (Slice.between stream.tokens first.position (second.position + 1)).toList.find?
      (·.covers caret.line caret.column) = none := by
    rw [List.find?_eq_none]
    intro token inside
    obtain ⟨known, above, below⟩ := (spells.mem_between member member').1 inside
    simp [missed token known above below]
  simp only [Token.position] at nothing
  simp only [ParseTree.locateInRange, nothing]

theorem locateInRange_eq_some {context : Nat} (member : first ∈ stream.tokens.toList)
    (member' : second ∈ stream.tokens.toList) (known : token ∈ stream.tokens.toList)
    (above : first.position ≤ token.position) (below : token.position ≤ second.position)
    (covers : token.covers caret.line caret.column = true)
    (least : ∀ other ∈ stream.tokens.toList, first.position ≤ other.position →
      other.position ≤ second.position → other.covers caret.line caret.column = true →
      token.position ≤ other.position) :
    ParseTree.locateInRange stream caret context first second =
      some (if token.comment then .inComment else token.locatedAt caret context) := by
  have leftmost : (Slice.between stream.tokens first.position (second.position + 1)).toList.find?
      (·.covers caret.line caret.column) = some token := by
    rw [Token.find?_eq_some_iff_least (spells.pairwise_between _ _)]
    refine ⟨(spells.mem_between member member').2 ⟨known, above, below⟩, covers, ?_⟩
    intro other inside
    obtain ⟨known', above', below'⟩ := (spells.mem_between member member').1 inside
    exact least other known' above' below'
  simp only [Token.position] at leftmost
  simp only [ParseTree.locateInRange, leftmost]

theorem exists_locateInRange (member : first ∈ stream.tokens.toList)
    (member' : second ∈ stream.tokens.toList) (known : token ∈ stream.tokens.toList)
    (above : first.position ≤ token.position) (below : token.position ≤ second.position)
    (covers : token.covers caret.line caret.column = true) (context : Nat) :
    ∃ located, ParseTree.locateInRange stream caret context first second = some located := by
  unfold ParseTree.locateInRange
  simp only
  split
  · rename_i missed
    have inside := (spells.mem_between member member').2 ⟨known, above, below⟩
    exact absurd covers (List.find?_eq_none.1 missed token inside)
  · exact ⟨_, rfl⟩

/-- Lines go up along the stream, so no token between two others is on a line outside theirs. -/
theorem not_outside (member : first ∈ stream.tokens.toList)
    (member' : second ∈ stream.tokens.toList) (known : token ∈ stream.tokens.toList)
    (above : first.position ≤ token.position) (below : token.position ≤ second.position)
    (covers : token.covers caret.line caret.column = true) :
    ¬(decide (caret.line < first.line) || decide (second.line < caret.line)) = true := by
  have line := (Token.covers_iff.1 covers).1
  have notBelow := spells.line_le member known above
  have notAbove := spells.line_le known member' below
  rw [Bool.or_eq_true, decide_eq_true_iff, decide_eq_true_iff]
  omega

end TokenStream.Spells

namespace Outline

def streamed (outline : Outline) : List Token := outline.tokens.filter (!·.conjured)

@[simp]
theorem streamed_rule (place : Nat) (name : String) (children : List Outline) :
    (rule place name children).streamed = children.flatMap streamed := by
  rw [streamed, tokens_rule, List.filter_flatMap]
  rfl

theorem streamed_subset {child : Outline} {children : List Outline} (member : child ∈ children)
    (place : Nat) (name : String) : child.streamed ⊆ (rule place name children).streamed := by
  intro token inside
  rw [streamed_rule]
  exact List.mem_flatMap.2 ⟨child, member, inside⟩

/-- The token stands neither in front of the outline's tokens nor behind them. -/
def Spans (outline : Outline) (token : Token) : Prop :=
  ∃ first ∈ outline.streamed, ∃ last ∈ outline.streamed,
    first.position ≤ token.position ∧ token.position ≤ last.position

theorem spans_of_mem {outline : Outline} {token : Token} (member : token ∈ outline.streamed) :
    outline.Spans token :=
  ⟨token, member, token, member, Int.le_refl _, Int.le_refl _⟩

theorem Spans.mono {inner outline : Outline} {token : Token} (spans : inner.Spans token)
    (part : inner.streamed ⊆ outline.streamed) : outline.Spans token := by
  obtain ⟨first, inside, last, inside', bounds⟩ := spans
  exact ⟨first, part inside, last, part inside', bounds⟩

/-- The first outline is the second one or a part of it. -/
inductive Within : Outline → Outline → Prop where
  | refl (outline : Outline) : Within outline outline
  | part {inner child : Outline} {children : List Outline} (member : child ∈ children)
      (within : Within inner child) (place : Nat) (name : String) :
      Within inner (rule place name children)

theorem Within.place_mem {inner outline : Outline} (within : inner.Within outline) :
    inner.place ∈ outline.places := by
  induction within with
  | refl => exact inner.place_mem_places
  | part member _ _ _ ih => exact places_subset member ih

theorem Within.streamed_subset {inner outline : Outline} (within : inner.Within outline) :
    inner.streamed ⊆ outline.streamed := by
  induction within with
  | refl => exact List.Subset.refl _
  | part member _ place name ih =>
      exact List.Subset.trans ih (Outline.streamed_subset member place name)

end Outline

namespace ParseTree

theorem Depicts.tokenRange?_eq {tree : ParseTree} {outline : Outline}
    (depicts : tree.Depicts outline) (distinct : outline.places.Nodup) :
    tree.tokenRange? outline.place = outline.streamed.head?.bind fun first =>
      outline.streamed.getLast?.map fun last => (first, last) := by
  rw [tokenRange?, depicts.tokens_eq distinct, ← Outline.streamed]
  cases outline.streamed.head? <;> cases outline.streamed.getLast? <;> rfl

theorem Depicts.locateBelow_rule {tree : ParseTree} {place : Nat} {name : String}
    {children : List Outline} (depicts : tree.Depicts (.rule place name children))
    (stream : TokenStream) (caret : Caret) (depth : Nat) :
    tree.locateBelow stream caret (depth + 1) place =
      match tree.tokenRange? place with
      | none => children.findSome? fun child => tree.locateBelow stream caret depth child.place
      | some (first, last) =>
          if caret.line < first.line || last.line < caret.line then none
          else
            (children.findSome? fun child => tree.locateBelow stream caret depth child.place).or
              (locateInRange stream caret place first last) := by
  have own : tree.token? place = none := depicts.token?_eq
  have below : tree.children place = children.map Outline.place := depicts.children_eq
  rw [locateBelow, own, below]
  simp only [List.findSome?_map, Function.comp_def]
  cases tree.tokenRange? place with
  | none => rfl
  | some range =>
      simp only
      split
      · rfl
      · generalize (children.findSome? fun child =>
          tree.locateBelow stream caret depth child.place) = below
        cases below <;> rfl

/-- The tree depicts the outline, with tokens of the stream in the stream's order. -/
structure Follows (tree : ParseTree) (stream : TokenStream) (outline : Outline) : Prop where
  depicts : tree.Depicts outline
  distinct : outline.places.Nodup
  members : ∀ token ∈ outline.streamed, token ∈ stream.tokens.toList
  ordered : outline.streamed.Pairwise fun first second => first.position < second.position

namespace Follows

variable {tree : ParseTree} {stream : TokenStream} {outline : Outline} {token : Token}

theorem tokenRange?_cases (follows : tree.Follows stream outline) :
    tree.tokenRange? outline.place = none ∧ outline.streamed = [] ∨
      ∃ first ∈ outline.streamed, ∃ last ∈ outline.streamed,
        tree.tokenRange? outline.place = some (first, last) ∧
        ∀ token, outline.Spans token ↔
          first.position ≤ token.position ∧ token.position ≤ last.position := by
  have range := follows.depicts.tokenRange?_eq follows.distinct
  cases tokens : outline.streamed with
  | nil =>
      rw [tokens] at range
      exact .inl ⟨range, rfl⟩
  | cons first rest =>
      obtain ⟨last, ending⟩ : ∃ last, outline.streamed.getLast? = some last := by
        rw [tokens, List.getLast?_cons]
        exact ⟨_, rfl⟩
      have heading : outline.streamed.head? = some first := by rw [tokens]; rfl
      have sorted : (outline.streamed.map Token.position).Pairwise (· < ·) :=
        List.pairwise_map.2 follows.ordered
      rw [heading, ending] at range
      rw [← tokens]
      have member := List.mem_of_head? heading
      have member' := List.mem_of_getLast? ending
      refine .inr ⟨first, member, last, member', range, ?_⟩
      intro token
      constructor
      · intro spans
        obtain ⟨low, inside, high, inside', above, below⟩ := spans
        have least := head_le_of_pairwise sorted (by rw [List.head?_map, heading]; rfl)
          (List.mem_map_of_mem inside)
        have most := le_getLast_of_pairwise sorted (by rw [List.getLast?_map, ending]; rfl)
          (List.mem_map_of_mem inside')
        omega
      · intro bounds
        exact ⟨first, member, last, member', bounds⟩

section Rule

variable {place : Nat} {name : String} {children : List Outline}
  (follows : tree.Follows stream (.rule place name children))

include follows

theorem child {child : Outline} (member : child ∈ children) : tree.Follows stream child where
  depicts := follows.depicts.child member
  distinct := nodup_places_of_mem follows.distinct member
  members := fun token inside =>
    follows.members token (Outline.streamed_subset member place name inside)
  ordered := by
    have ordered := follows.ordered
    rw [Outline.streamed_rule, List.pairwise_flatMap] at ordered
    exact ordered.1 child member

/-- No token stands among the tokens of two children. -/
theorem pairwise_not_spans (token : Token) :
    children.Pairwise fun left right => left.Spans token → ¬right.Spans token := by
  have ordered := follows.ordered
  rw [Outline.streamed_rule, List.pairwise_flatMap] at ordered
  refine ordered.2.imp ?_
  intro left right less spans spans'
  obtain ⟨-, -, last, inside, -, below⟩ := spans
  obtain ⟨first, inside', -, -, above, -⟩ := spans'
  have apart := less last inside first inside'
  omega

theorem eq_of_spans {left right : Outline} (member : left ∈ children) (member' : right ∈ children)
    (spans : left.Spans token) (spans' : right.Spans token) : left = right := by
  have apart := follows.pairwise_not_spans token
  obtain ⟨before, after, rfl⟩ := List.append_of_mem member
  obtain ⟨-, following, preceding⟩ := List.pairwise_append.1 apart
  rcases List.mem_append.1 member' with earlier | here
  · exact absurd spans (preceding right earlier left List.mem_cons_self spans')
  · rcases List.mem_cons.1 here with same | later
    · exact same.symm
    · exact absurd spans' (List.rel_of_pairwise_cons following later spans)

end Rule

section Search

variable {code : List Char} {caret : Caret} (spells : stream.Spells code)

include spells

/-- Where no token is under the caret none is found. -/
theorem locateBelow_eq_none (follows : tree.Follows stream outline)
    (missed : ∀ token ∈ stream.tokens.toList, outline.Spans token →
      token.covers caret.line caret.column = false) (depth : Nat) :
    tree.locateBelow stream caret depth outline.place = none := by
  induction depth generalizing outline with
  | zero => rfl
  | succ depth ih =>
      cases outline with
      | terminal place token =>
          have own : tree.token? place = some token := follows.depicts.token?_eq
          rw [Outline.place, locateBelow, own]
          refine if_neg ?_
          intro under
          obtain ⟨placed, covers⟩ := Bool.and_eq_true_iff.1 under
          have member : token ∈ (Outline.terminal place token).streamed := by
            simpa [Outline.streamed] using placed
          have clear := missed token (follows.members token member) (Outline.spans_of_mem member)
          simp [covers] at clear
      | rule place name children =>
          have below : (children.findSome? fun child =>
              tree.locateBelow stream caret depth child.place) = none := by
            rw [List.findSome?_eq_none_iff]
            intro child member
            refine ih (follows.child member) ?_
            intro token known spans
            exact missed token known (spans.mono (Outline.streamed_subset member place name))
          rw [Outline.place, follows.depicts.locateBelow_rule, below]
          rcases follows.tokenRange?_cases with
            ⟨nothing, -⟩ | ⟨first, member, last, member', range, spans⟩
          · rw [Outline.place] at nothing
            rw [nothing]
          · rw [Outline.place] at range
            rw [range]
            simp only [Option.none_or]
            split
            · rfl
            · refine spells.locateInRange_eq_none (follows.members _ member)
                (follows.members _ member') ?_
              intro token known above below
              exact missed token known ((spans token).2 ⟨above, below⟩)

variable (known : token ∈ stream.tokens.toList)
  (covers : token.covers caret.line caret.column = true)

include known covers

theorem position_ne (follows : tree.Follows stream outline)
    (clear : ∀ other ∈ outline.streamed, other.covers caret.line caret.column = false)
    {other : Token} (member : other ∈ outline.streamed) : other.position ≠ token.position := by
  intro same
  have none := clear other member
  rw [spells.eq_of_position_eq (follows.members other member) known same, covers] at none
  cases none

theorem exists_eq_rule (follows : tree.Follows stream outline) (spans : outline.Spans token)
    (clear : ∀ other ∈ outline.streamed, other.covers caret.line caret.column = false) :
    ∃ place name children, outline = .rule place name children := by
  cases outline with
  | rule place name children => exact ⟨place, name, children, rfl⟩
  | terminal place own =>
      obtain ⟨first, member, last, member', above, below⟩ := spans
      have different := follows.position_ne spells known covers clear member
      obtain rfl := List.mem_singleton.1 (List.mem_filter.1 member).1
      obtain rfl := List.mem_singleton.1 (List.mem_filter.1 member').1
      omega

/-- If a token is under the caret, then no other one is in a part of the tree that does not span it
and has no terminal under the caret. -/
theorem locateBelow_eq_none_of_not_spans (follows : tree.Follows stream outline)
    (outside : ¬outline.Spans token)
    (clear : ∀ other ∈ outline.streamed, other.covers caret.line caret.column = false)
    (depth : Nat) : tree.locateBelow stream caret depth outline.place = none := by
  refine follows.locateBelow_eq_none spells ?_ depth
  intro other known' spans
  obtain ⟨first, member, last, member', above, below⟩ := spans
  rw [Bool.eq_false_iff]
  intro covers'
  have fromFirst := follows.position_ne spells known' covers' clear member
  have fromLast := follows.position_ne spells known' covers' clear member'
  rcases Int.lt_or_le token.position first.position with before | behind
  · have none := spells.not_covers_of_between known (follows.members first member) known' before
      (by omega) covers
    simp [covers'] at none
  · have beyond : last.position < token.position := by
      by_contra inside
      exact outside ⟨first, member, last, member', behind, by omega⟩
    have none := spells.not_covers_of_between known' (follows.members last member') known
      (by omega) beyond covers'
    simp [covers] at none

theorem exists_locateBelow_eq {place : Nat} {name : String} {children : List Outline}
    (follows : tree.Follows stream (.rule place name children))
    (spans : (Outline.rule place name children).Spans token) (depth : Nat) :
    ∃ first ∈ stream.tokens.toList, ∃ last ∈ stream.tokens.toList,
      (∀ other, (Outline.rule place name children).Spans other ↔
        first.position ≤ other.position ∧ other.position ≤ last.position) ∧
      tree.locateBelow stream caret (depth + 1) place =
        (children.findSome? fun child => tree.locateBelow stream caret depth child.place).or
          (locateInRange stream caret place first last) := by
  rcases follows.tokenRange?_cases with
    ⟨-, nothing⟩ | ⟨first, member, last, member', range, bounds⟩
  · obtain ⟨first, member, -⟩ := spans
    rw [nothing] at member
    cases member
  · have known' := follows.members first member
    have known'' := follows.members last member'
    refine ⟨first, known', last, known'', bounds, ?_⟩
    obtain ⟨above, below⟩ := (bounds token).1 spans
    rw [Outline.place] at range
    rw [follows.depicts.locateBelow_rule, range]
    exact if_neg (spells.not_outside known' known'' known above below covers)

/-- What is found below the child that spans the leftmost token under the caret is found below the
rule. -/
theorem locateBelow_of_child {place : Nat} {name : String} {children : List Outline}
    {child : Outline} {located : Located} {depth : Nat}
    (follows : tree.Follows stream (.rule place name children))
    (least : ∀ other ∈ (Outline.rule place name children).streamed,
      other.covers caret.line caret.column = true → token.position ≤ other.position)
    (inside : child ∈ children) (spans : child.Spans token)
    (found : tree.locateBelow stream caret depth child.place = some located) :
    tree.locateBelow stream caret (depth + 1) place = some located := by
  obtain ⟨first, -, last, -, -, step⟩ := follows.exists_locateBelow_eq spells known covers
    (spans.mono (Outline.streamed_subset inside place name)) depth
  have ordered := follows.ordered
  rw [Outline.streamed_rule, List.pairwise_flatMap] at ordered
  rw [Outline.streamed_rule] at least
  obtain ⟨before, after, rfl⟩ := List.append_of_mem inside
  have earlier : ∀ left ∈ before, tree.locateBelow stream caret depth left.place = none := by
    intro left member
    have inside' : left ∈ before ++ child :: after := List.mem_append_left _ member
    have apart := (List.pairwise_append.1 (follows.pairwise_not_spans token)).2.2 left member child
      List.mem_cons_self
    have less := (List.pairwise_append.1 ordered.2).2.2 left member child List.mem_cons_self
    refine (follows.child inside').locateBelow_eq_none_of_not_spans spells known covers
      (fun spans' => apart spans' spans) ?_ depth
    intro other here
    rw [Bool.eq_false_iff]
    intro covers'
    obtain ⟨low, below, -, -, above, -⟩ := spans
    have bound := least other (List.mem_flatMap.2 ⟨left, inside', here⟩) covers'
    have further := less other here low below
    omega
  have scanned : before.findSome? (fun child =>
      tree.locateBelow stream caret depth child.place) = none :=
    List.findSome?_eq_none_iff.2 earlier
  rw [step, List.findSome?_append, scanned, Option.none_or, List.findSome?_cons, found]
  rfl

theorem exists_locateBelow_terminal (follows : tree.Follows stream outline) {depth : Nat}
    (enough : outline.places.length ≤ depth) (member : token ∈ outline.streamed)
    (least : ∀ other ∈ outline.streamed, other.covers caret.line caret.column = true →
      token.position ≤ other.position) :
    ∃ node ∈ outline.places, tree.token? node = some token ∧
      tree.locateBelow stream caret depth outline.place = some (token.locatedAt caret node) := by
  induction depth generalizing outline with
  | zero =>
      have nonempty := List.length_pos_of_mem outline.place_mem_places
      omega
  | succ depth ih =>
      cases outline with
      | terminal place own =>
          have found : tree.token? place = some own := follows.depicts.token?_eq
          obtain ⟨here, placed⟩ := List.mem_filter.1 member
          obtain rfl : token = own := List.mem_singleton.1 here
          refine ⟨place, by simp, found, ?_⟩
          rw [Outline.place, locateBelow, found]
          exact if_pos (by simp [placed, covers])
      | rule place name children =>
          rw [Outline.streamed_rule] at member
          obtain ⟨child, inside, here⟩ := List.mem_flatMap.1 member
          have smaller := Outline.length_places_lt place name inside
          obtain ⟨node, reached, found, located⟩ := ih (follows.child inside) (by omega) here
            (fun other there => least other (Outline.streamed_subset inside place name there))
          exact ⟨node, Outline.places_subset inside reached, found,
            follows.locateBelow_of_child spells known covers least inside
              (Outline.spans_of_mem here) located⟩

section Hidden

variable (spans : outline.Spans token)
  (clear : ∀ other ∈ outline.streamed, other.covers caret.line caret.column = false)
  (least : ∀ other ∈ stream.tokens.toList, outline.Spans other →
    other.covers caret.line caret.column = true → token.position ≤ other.position)

include spans clear least

/-- Where no child spans the leftmost token under the caret, the rule itself holds it. -/
theorem locateBelow_of_no_child {place : Nat} {name : String} {children : List Outline}
    (same : outline = .rule place name children) (follows : tree.Follows stream outline)
    (apart : ∀ child ∈ children, ¬child.Spans token) (depth : Nat) :
    tree.locateBelow stream caret (depth + 1) place =
      some (if token.comment then .inComment else token.locatedAt caret place) := by
  subst same
  have below : (children.findSome? fun child =>
      tree.locateBelow stream caret depth child.place) = none := by
    rw [List.findSome?_eq_none_iff]
    intro child inside
    exact (follows.child inside).locateBelow_eq_none_of_not_spans spells known covers
      (apart child inside)
      (fun other there => clear other (Outline.streamed_subset inside place name there)) depth
  obtain ⟨first, member, last, member', bounds, step⟩ :=
    follows.exists_locateBelow_eq spells known covers spans depth
  obtain ⟨above, under⟩ := (bounds token).1 spans
  rw [step, below, Option.none_or]
  refine spells.locateInRange_eq_some member member' known above under covers ?_
  intro other known' above' below'
  exact least other known' ((bounds other).2 ⟨above', below'⟩)

/-- With no terminal under the caret the search ends at the deepest rule that spans the leftmost
token under the caret. -/
theorem exists_locateBelow_deepest (follows : tree.Follows stream outline) {depth : Nat}
    (enough : outline.places.length ≤ depth) :
    ∃ inner : Outline, inner.Within outline ∧ inner.Spans token ∧
      (∀ other : Outline, other.Within outline → other.Spans token → inner.Within other) ∧
      tree.locateBelow stream caret depth outline.place =
        some (if token.comment then .inComment else token.locatedAt caret inner.place) := by
  induction depth generalizing outline with
  | zero =>
      have nonempty := List.length_pos_of_mem outline.place_mem_places
      omega
  | succ depth ih =>
      obtain ⟨place, name, children, rfl⟩ := follows.exists_eq_rule spells known covers spans clear
      by_cases deeper : ∃ child ∈ children, child.Spans token
      · obtain ⟨child, inside, spans'⟩ := deeper
        have part := Outline.streamed_subset inside place name
        have smaller := Outline.length_places_lt place name inside
        obtain ⟨inner, within, innerSpans, deepest, located⟩ := ih spans'
          (fun other there => clear other (part there))
          (fun other known' there => least other known' (there.mono part)) (follows.child inside)
          (by omega)
        refine ⟨inner, .part inside within place name, innerSpans, ?_,
          follows.locateBelow_of_child spells known covers ?_ inside spans' located⟩
        · intro other within' there
          cases within' with
          | refl => exact .part inside within place name
          | part inside' within' =>
              obtain rfl := follows.eq_of_spans inside' inside
                (there.mono within'.streamed_subset) spans'
              exact deepest other within' there
        · intro other there covers'
          simp [clear other there] at covers'
      · have apart : ∀ child ∈ children, ¬child.Spans token :=
          fun child inside there => deeper ⟨child, inside, there⟩
        refine ⟨_, .refl _, spans, ?_,
          follows.locateBelow_of_no_child spells known covers spans clear least rfl apart depth⟩
        intro other within' there
        cases within' with
        | refl => exact .refl _
        | part inside within' => exact absurd (there.mono within'.streamed_subset) (apart _ inside)

end Hidden

end Search

end Follows

end ParseTree

end Typeahead
