import Typeahead.Proofs.ParseTree.Attachment
import Typeahead.Proofs.Parsing.Tracing

namespace Typeahead

/-!
The parse of a stream.  Its tree has every visible token: those the parser read as leaves, those it
passed over hung in, and the end token as the root's last child.
-/

namespace TokenStream

variable {stream : TokenStream}

theorem index_leafToken (indexed : stream.Indexed) (vocabulary : Vocabulary) {leaf : Leaf}
    (inside : ∀ index, leaf.index? = some index → index < stream.size) :
    (stream.leafToken vocabulary leaf).index = leaf.index?.map fun index : Nat => (index : Int) := by
  cases leaf with
  | conjured terminal before => rfl
  | token index =>
      have bound := inside index rfl
      have found : stream.tokens[index]? = some (stream.leafToken vocabulary (.token index)) := by
        simp [leafToken, Array.getD, show index < stream.tokens.size from bound]
      exact indexed _ _ found

end TokenStream

namespace Grammar

variable {grammar : Grammar} {stream : TokenStream} {parse : Parse}

/-- How a parse of a stream comes about: the tokens at the positions `gained` are read, the others
are passed over, and `tree` is what the parser makes of those that are read. -/
structure Covers (grammar : Grammar) (stream : TokenStream) (parse : Parse)
    (skipped gained : List Nat) (tree : SyntaxTree) (outline : Outline) : Prop where
  closed : ParseTree.Closed stream.eof parse.tree outline
  tokens : outline.tokens.Perm (skipped.filterMap (stream.tokens[·]?) ++
    ParseTree.streamed (stream.leafToken grammar.vocabulary) stream.eof tree)
  ordered : ((ParseTree.streamed (stream.leafToken grammar.vocabulary) stream.eof tree).filterMap
      (·.index)).Pairwise (· < ·) →
    ((skipped.filterMap (stream.tokens[·]?) ++
      ParseTree.streamed (stream.leafToken grammar.vocabulary) stream.eof tree).filterMap (·.index)).Nodup →
    outline.indices.Pairwise (· < ·)
  headed : ParseTree.Headed
      ((ParseTree.streamed (stream.leafToken grammar.vocabulary) stream.eof tree).filterMap (·.index)) →
    ParseTree.Headed outline.indices
  kept : gained.Sublist tree.indices
  within : ∀ index ∈ tree.indices, index ∈ gained
  head : tree.indices.head? = gained.head?
  sublist : gained.Sublist stream.visiblePositions
  perm : (skipped ++ gained).Perm stream.visiblePositions

theorem skippedTokens_eq (stream : TokenStream) (repairs : List Repair) :
    skippedTokens stream repairs =
      (Repair.skippedIndices repairs).filterMap (stream.tokens[·]?) := by
  rw [skippedTokens, Repair.skippedIndices, List.filterMap_filterMap]
  congr 1
  funext repair
  cases repair <;> rfl

/-- Where the parser stands after the last token, a tree is made. -/
theorem exists_covers (sound : grammar.Sound) (traceable : stream.Traceable) {last : LiveParser}
    {repairs : List Repair} {level : Nat → Nat} {symbols : List String} {gained : List Nat}
    (stepped : grammar.steps stream.visiblePlaced .initial = .ok (last, repairs))
    (passage : grammar.Passage gained (fun _ => 0) [] .initial level symbols last)
    (sublist : gained.Sublist stream.visiblePositions)
    (perm : (Repair.skippedIndices repairs ++ gained).Perm stream.visiblePositions) :
    ∃ parse tree outline, grammar.parse stream = .ok parse ∧ Finishes symbols last tree ∧
      grammar.Covers stream parse (Repair.skippedIndices repairs) gained tree outline := by
  obtain ⟨tree, endRepairs, finished, -, finishes⟩ :=
    exists_finishWithin sound (stream.size - 1) maxRepairs passage.standing
  obtain ⟨rule, children, rfl⟩ := finishes.rooted
  have indexed := traceable.indexed
  have less : ∀ token ∈ skippedTokens stream repairs,
      ∃ index, token.index = some index ∧ index < ((stream.size - 1 : Nat) : Int) := by
    intro token member
    rw [skippedTokens_eq] at member
    obtain ⟨index, skipped, found⟩ := List.mem_filterMap.1 member
    have visible : index ∈ stream.visiblePositions :=
      perm.subset (List.mem_append_left _ skipped)
    exact ⟨index, indexed _ _ found,
      Int.ofNat_lt.2 (TokenStream.lt_of_mem_visiblePositions visible)⟩
  obtain ⟨outline, closed, tokens, ordered, headed⟩ := ParseTree.exists_closed_ofLeaves
    (stream.leafToken grammar.vocabulary) rule children (TokenStream.index_eof indexed) less
  rw [skippedTokens_eq] at tokens ordered
  have within : ∀ index ∈ (SyntaxTree.node rule children).indices, index ∈ gained := by
    apply finishes.within
    exact passage.within (· ∈ gained) (fun _ member => member) (within_initial _)
  refine ⟨⟨.ofLeaves (stream.leafToken grammar.vocabulary) stream.eof (skippedTokens stream repairs)
      (.node rule children), repairs ++ endRepairs⟩, .node rule children, outline, ?_, finishes,
    ⟨closed, tokens, ordered, headed, ?_, within, ?_, sublist, perm⟩⟩
  · have finished' : grammar.finish (stream.size - 1) last =
        .ok (.node rule children, endRepairs) := finished
    rw [parse_eq_parseByPosition sound traceable]
    simp only [parseByPosition, stepped, finished', ok_bind]
    rfl
  · have kept := passage.indices.trans finishes.indices
    exact (List.sublist_append_right _ gained).trans kept
  · cases gained with
    | nil => exact (List.eq_nil_iff_forall_not_mem.2 fun index member =>
        List.not_mem_nil (within index member)) ▸ rfl
    | cons first rest =>
        have distinct := (stream.pairwise_visiblePositions.sublist sublist).imp Nat.ne_of_lt
        exact finishes.front first (passage.begins first rest rfl (List.nodup_cons.1 distinct).1
          (within_initial _))

namespace Covers

variable {skipped gained : List Nat} {tree : SyntaxTree} {outline : Outline} {token : Token}
  (covers : grammar.Covers stream parse skipped gained tree outline)

include covers

theorem mem_tokens_iff : token ∈ parse.tree.tokens 0 ↔
    (∃ index ∈ skipped, stream.tokens[index]? = some token) ∨
      (∃ leaf ∈ tree.leaves, stream.leafToken grammar.vocabulary leaf = token) ∨
      token = stream.eof := by
  rw [covers.closed.tokens_eq, covers.tokens.mem_iff, List.mem_append, ParseTree.streamed,
    List.mem_append, List.mem_filterMap, List.mem_map, List.mem_singleton]

theorem lt_of_mem_indices {index : Nat} (member : index ∈ tree.indices) :
    index < stream.size - 1 :=
  TokenStream.lt_of_mem_visiblePositions (covers.sublist.subset (covers.within index member))

theorem leafToken_cases {leaf : Leaf} (member : leaf ∈ tree.leaves) :
    (∃ index ∈ tree.indices, leaf = .token index ∧
      stream.tokens[index]? = some (stream.leafToken grammar.vocabulary leaf)) ∨
    leaf.index? = none ∧ (stream.leafToken grammar.vocabulary leaf).index = none ∧
      (stream.leafToken grammar.vocabulary leaf).text = "" := by
  cases leaf with
  | conjured terminal before => exact .inr ⟨rfl, rfl, rfl⟩
  | token index =>
      have listed : index ∈ tree.indices := List.mem_filterMap.2 ⟨_, member, rfl⟩
      have inside : index < stream.tokens.size := by
        have less := covers.lt_of_mem_indices listed
        simp only [TokenStream.size] at less
        omega
      refine .inl ⟨index, listed, rfl, ?_⟩
      simp [TokenStream.leafToken, Array.getD, inside]

theorem mem_tokens_of_mem_visible (visible : token ∈ stream.visible) :
    token ∈ parse.tree.tokens 0 := by
  rw [← stream.map_fst_visiblePlaced] at visible
  obtain ⟨⟨token, index⟩, placed, rfl⟩ := List.mem_map.1 visible
  obtain ⟨found, -⟩ := TokenStream.mem_visiblePlaced.1 placed
  have position : index ∈ stream.visiblePositions := List.mem_map.2 ⟨_, placed, rfl⟩
  rw [covers.mem_tokens_iff]
  rcases List.mem_append.1 (covers.perm.symm.subset position) with passed | read
  · exact .inl ⟨index, passed, found⟩
  · obtain ⟨leaf, member, same⟩ := List.mem_filterMap.1 (covers.kept.subset read)
    refine .inr (.inl ⟨leaf, member, ?_⟩)
    cases leaf with
    | conjured terminal before => cases same
    | token other =>
        obtain rfl : other = index := Option.some.inj same
        simp [TokenStream.leafToken, Array.getD_eq_getD_getElem?, found]

theorem mem_tokens_cases (member : token ∈ parse.tree.tokens 0) :
    (∃ index : Nat, stream.tokens[index]? = some token) ∨ token.index = none ∧ token.text = "" := by
  rcases covers.mem_tokens_iff.1 member with ⟨index, -, found⟩ | ⟨leaf, inside, rfl⟩ | rfl
  · exact .inl ⟨index, found⟩
  · rcases covers.leafToken_cases inside with ⟨index, -, -, found⟩ | ⟨-, bare⟩
    · exact .inl ⟨index, found⟩
    · exact .inr bare
  · exact .inl ⟨_, stream.getElem?_eof⟩

theorem filterMap_index_skipped (indexed : stream.Indexed) :
    (skipped.filterMap (stream.tokens[·]?)).filterMap (·.index) =
      skipped.map fun index : Nat => (index : Int) := by
  rw [List.filterMap_filterMap, ← List.filterMap_eq_map]
  apply List.filterMap_congr
  intro index member
  have position : index ∈ stream.visiblePositions :=
    covers.perm.subset (List.mem_append_left _ member)
  obtain ⟨token, found, -⟩ := TokenStream.mem_visiblePositions.1 position
  rw [found, Option.bind_some, indexed _ _ found]
  rfl

theorem filterMap_index_streamed (indexed : stream.Indexed) :
    (ParseTree.streamed (stream.leafToken grammar.vocabulary) stream.eof tree).filterMap (·.index) =
      (tree.indices ++ [stream.size - 1]).map fun index : Nat => (index : Int) := by
  rw [ParseTree.streamed, List.filterMap_append, List.map_append, List.filterMap_map]
  congr 1
  · rw [SyntaxTree.indices, List.map_filterMap]
    apply List.filterMap_congr
    intro leaf member
    apply TokenStream.index_leafToken indexed
    intro index same
    have listed : index ∈ tree.indices := List.mem_filterMap.2 ⟨leaf, member, same⟩
    have less := covers.lt_of_mem_indices listed
    omega
  · rw [List.filterMap_cons_some (TokenStream.index_eof indexed)]
    rfl

theorem indices_perm (indexed : stream.Indexed) :
    ((parse.tree.tokens 0).filterMap (·.index)).Perm
      ((skipped ++ (tree.indices ++ [stream.size - 1])).map fun index : Nat => (index : Int)) := by
  rw [covers.closed.tokens_eq, List.map_append, ← covers.filterMap_index_skipped indexed,
    ← covers.filterMap_index_streamed indexed, ← List.filterMap_append]
  exact covers.tokens.filterMap _

/-- The tree begins with the least of its positions. -/
theorem headed_indices (indexed : stream.Indexed) : ParseTree.Headed outline.indices := by
  apply covers.headed
  rw [covers.filterMap_index_streamed indexed]
  intro first head other member
  obtain ⟨index, listed, rfl⟩ := List.mem_map.1 member
  rw [List.head?_map, List.head?_append, covers.head] at head
  rw [List.mem_append, List.mem_singleton] at listed
  have sorted := stream.pairwise_visiblePositions.sublist covers.sublist
  cases gained with
  | nil =>
      have last : index = stream.size - 1 :=
        listed.resolve_left fun inside => List.not_mem_nil (covers.within index inside)
      rw [← Option.some.inj head, last]
  | cons least rest =>
      rw [← Option.some.inj head]
      apply Int.ofNat_le.2
      rcases listed with inside | rfl
      · rcases List.mem_cons.1 (covers.within index inside) with rfl | later
        · exact Nat.le_refl _
        · exact Nat.le_of_lt ((List.pairwise_cons.1 sorted).1 index later)
      · exact Nat.le_of_lt (TokenStream.lt_of_mem_visiblePositions
          (covers.sublist.subset List.mem_cons_self))

theorem count_eof (indexed : stream.Indexed) :
    (parse.tree.tokens 0).count stream.eof = 1 := by
  rw [covers.closed.tokens_eq, covers.tokens.count_eq, ParseTree.streamed, List.count_append,
    List.count_append]
  have other : ∀ (index : Nat) (token : Token), stream.tokens[index]? = some token →
      index < stream.size - 1 → token ≠ stream.eof := by
    intro index token found less same
    have place := indexed _ _ found
    rw [same, TokenStream.index_eof indexed] at place
    have equal := Option.some.inj place
    omega
  have passed : (skipped.filterMap (stream.tokens[·]?)).count stream.eof = 0 := by
    apply List.count_eq_zero_of_not_mem
    intro member
    obtain ⟨index, listed, found⟩ := List.mem_filterMap.1 member
    exact other index _ found (TokenStream.lt_of_mem_visiblePositions
      (covers.perm.subset (List.mem_append_left _ listed))) rfl
  have read : (tree.leaves.map (stream.leafToken grammar.vocabulary)).count stream.eof = 0 := by
    apply List.count_eq_zero_of_not_mem
    intro member
    obtain ⟨leaf, inside, same⟩ := List.mem_map.1 member
    rcases covers.leafToken_cases inside with ⟨index, listed, -, found⟩ | ⟨-, bare, -⟩
    · exact other index _ found (covers.lt_of_mem_indices listed) same
    · rw [same, TokenStream.index_eof indexed] at bare
      cases bare
  rw [passed, read]
  simp

/-- The positions in the tree are distinct just when the parser's tree has only the tokens that were
read, each once. -/
theorem nodup_indices_iff (indexed : stream.Indexed) :
    ((parse.tree.tokens 0).filterMap (·.index)).Nodup ↔ tree.indices = gained := by
  have injective : Function.Injective fun index : Nat => (index : Int) := fun _ _ same =>
    Int.ofNat.inj same
  have distinct : (skipped ++ gained).Nodup :=
    covers.perm.nodup_iff.2 (stream.pairwise_visiblePositions.imp Nat.ne_of_lt)
  rw [(covers.indices_perm indexed).nodup_iff, List.nodup_map_iff injective]
  constructor
  · intro nodup
    have own : tree.indices.Nodup :=
      (List.nodup_append.1 (List.nodup_append.1 nodup).2.1).1
    have shorter := (List.subperm_of_subset own covers.within).length_le
    exact (covers.kept.eq_of_length_le shorter).symm
  · intro same
    rw [same, ← List.append_assoc]
    refine List.nodup_append.2 ⟨distinct, List.nodup_singleton _, ?_⟩
    intro index member last ending equal
    have less := TokenStream.lt_of_mem_visiblePositions (covers.perm.subset member)
    rw [List.mem_singleton.1 ending] at equal
    omega

theorem pairwise_indices_iff (indexed : stream.Indexed) :
    ((parse.tree.tokens 0).filterMap (·.index)).Pairwise (· < ·) ↔ tree.indices = gained := by
  rw [← covers.nodup_indices_iff indexed]
  constructor
  · intro ordered
    exact ordered.imp Int.ne_of_lt
  · intro nodup
    have same := (covers.nodup_indices_iff indexed).1 nodup
    have reordered := (covers.tokens.filterMap (·.index)).nodup_iff.1
      (covers.closed.tokens_eq ▸ nodup)
    rw [covers.closed.tokens_eq]
    refine covers.ordered ?_ reordered
    rw [covers.filterMap_index_streamed indexed, same, List.pairwise_map]
    have sorted : (gained ++ [stream.size - 1]).Pairwise (· < ·) := by
      refine List.pairwise_append.2 ⟨stream.pairwise_visiblePositions.sublist covers.sublist,
        List.pairwise_singleton _ _, ?_⟩
      intro index member last ending
      rw [List.mem_singleton.1 ending]
      exact TokenStream.lt_of_mem_visiblePositions (covers.sublist.subset member)
    exact sorted.imp fun less => Int.ofNat_lt.2 less

theorem count_le_one_iff (indexed : stream.Indexed) :
    (∀ token ∈ stream.tokens, (parse.tree.tokens 0).count token ≤ 1) ↔ tree.indices = gained := by
  rw [← covers.nodup_indices_iff indexed]
  have placed : ∀ token ∈ parse.tree.tokens 0, ∀ position, token.index = some position →
      ∃ index : Nat, position = index ∧ stream.tokens[index]? = some token := by
    intro token member position same
    rcases covers.mem_tokens_cases member with ⟨index, found⟩ | ⟨bare, -⟩
    · have own := indexed _ _ found
      rw [same] at own
      exact ⟨index, Option.some.inj own, found⟩
    · rw [bare] at same
      cases same
  constructor
  · intro single
    have distinct : ((parse.tree.tokens 0).filter (!·.conjured)).Nodup := by
      rw [List.nodup_iff_count_le_one]
      intro token
      by_cases member : token ∈ (parse.tree.tokens 0).filter (!·.conjured)
      · obtain ⟨inside, streamed⟩ := List.mem_filter.1 member
        obtain ⟨position, same⟩ : ∃ position, token.index = some position := by
          rw [← Option.isSome_iff_exists]
          simpa [Token.conjured] using streamed
        obtain ⟨index, -, found⟩ := placed token inside position same
        exact Nat.le_trans (List.filter_sublist.count_le _) (single token (Array.mem_of_getElem? found))
      · rw [List.count_eq_zero_of_not_mem member]
        exact Nat.zero_le 1
    rw [List.Nodup, List.pairwise_filterMap]
    rw [List.Nodup, List.pairwise_filter] at distinct
    refine distinct.imp_of_mem ?_
    intro first second memberFirst memberSecond different position same other same' equal
    obtain ⟨index, rfl, found⟩ := placed first memberFirst position same
    obtain ⟨index', rfl, found'⟩ := placed second memberSecond other same'
    obtain rfl := Int.ofNat.inj equal
    rw [found] at found'
    exact different (by simp [Token.conjured, same]) (by simp [Token.conjured, same'])
      (Option.some.inj found')
  · intro nodup token member
    obtain ⟨index, found⟩ := Array.mem_iff_getElem?.1 member
    have single := List.nodup_iff_count_le_one.1 nodup (index : Int)
    refine Nat.le_trans ?_ single
    rw [List.count_filterMap]
    apply List.countP_mono_left
    intro other _ same
    obtain rfl := eq_of_beq same
    simp [indexed _ _ found]

end Covers

end Grammar

end Typeahead
