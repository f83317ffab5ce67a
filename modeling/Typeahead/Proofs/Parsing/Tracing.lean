import Typeahead.Proofs.Parsing.Run
import Typeahead.Proofs.Spelling

namespace Typeahead

/-!
Terminals traced back to the stream.  The parser's terminals do not know where in the stream they
come from, so they are looked up by their starts and the names of their types.  In a stream whose
visible tokens start at different places and are not empty, each terminal that the parser took is
found at the position it was taken from, and each that was made up is found nowhere.
-/

namespace SyntaxTree

variable {tokenOf tokenOf' : Leaf → Token}

mutual

theorem nodes_congr (parent : Option Nat) (base : Nat) : (tree : SyntaxTree) →
    (∀ leaf ∈ tree.leaves, tokenOf leaf = tokenOf' leaf) →
    tree.nodes tokenOf parent base = tree.nodes tokenOf' parent base
  | .leaf terminal, same => by rw [nodes, nodes, same terminal (by simp [leaves])]
  | .node rule children, same => by
      rw [leaves] at same
      rw [nodes, nodes, childNodes_congr base (base + 1) children same]

theorem childNodes_congr (parent base : Nat) : (children : List SyntaxTree) →
    (∀ leaf ∈ leavesOf children, tokenOf leaf = tokenOf' leaf) →
    childNodes tokenOf parent base children = childNodes tokenOf' parent base children
  | [], _ => rfl
  | child :: rest, same => by
      rw [leavesOf, List.forall_mem_append] at same
      rw [childNodes, childNodes, nodes_congr (some parent) base child same.1,
        childNodes_congr parent (base + child.size) rest same.2]

end

end SyntaxTree

theorem ParseTree.ofLeaves_congr {tokenOf tokenOf' : Leaf → Token} {tree : SyntaxTree}
    (same : ∀ leaf ∈ tree.leaves, tokenOf leaf = tokenOf' leaf) (eof : Token)
    (skipped : List Token) :
    ofLeaves tokenOf eof skipped tree = ofLeaves tokenOf' eof skipped tree := by
  simp only [ofLeaves, SyntaxTree.nodes_congr none 0 tree same]

namespace TokenStream

variable {stream : TokenStream}

/-- The token at a leaf's own position.  A token made up in front of another has its place and no
text. -/
def leafToken (stream : TokenStream) (vocabulary : Vocabulary) : Leaf → Token
  | .token index => stream.tokens.getD index stream.eof
  | .conjured terminal before =>
      let next := stream.tokens.getD before stream.eof
      { type := (vocabulary.type? terminal).getD 0, text := "", index := none,
        line := next.line, column := next.column, start := next.start }

/-- The terminals of the stream can be told apart by their starts. -/
structure Traceable (stream : TokenStream) : Prop where
  indexed : stream.Indexed
  filled : ∀ token ∈ stream.visible, token.text ≠ ""
  apart : (stream.visible.map (·.start)).Nodup
  placed : ∀ token ∈ stream.tokens.toList, token.line ≠ 0 ∧ token.column + 1 ≠ 0

theorem ne_eof_of_isVisible {token : Token} (visible : token.isVisible = true) :
    token ≠ stream.eof := by
  intro same
  simp [same, Token.isVisible, stream.type_eof] at visible

theorem mem_visible {token : Token} {index : Nat} (found : stream.tokens[index]? = some token)
    (visible : token.isVisible = true) : token ∈ stream.visible :=
  List.mem_filter.2 ⟨Array.mem_toList_iff.2 (Array.mem_of_getElem? found), visible⟩

theorem getD_mem (stream : TokenStream) (index : Nat) :
    stream.tokens.getD index stream.eof ∈ stream.tokens.toList := by
  rw [Array.getD_eq_getD_getElem?, Array.mem_toList_iff]
  cases found : stream.tokens[index]? with
  | none => exact Array.mem_of_getElem? stream.getElem?_eof
  | some token => exact Array.mem_of_getElem? found

/-- The tokens of a text start one behind the other. -/
theorem Spells.traceable {code : List Char} (spells : stream.Spells code) : stream.Traceable where
  indexed := spells.indexed
  filled := by
    intro token visible
    obtain ⟨member, shown⟩ := List.mem_filter.1 visible
    exact spells.filled token member (ne_eof_of_isVisible shown)
  apart := by
    have ordered := spells.ordered.sublist (List.filter_sublist (p := Token.isVisible))
    rw [List.Nodup, List.pairwise_map]
    refine ordered.imp_of_mem ?_
    intro first second member _ behind same
    obtain ⟨member, shown⟩ := List.mem_filter.1 member
    have filled := spells.filled first member (ne_eof_of_isVisible shown)
    have longer : 0 < first.text.toList.length := by
      rw [List.length_pos_iff, ne_eq, String.toList_eq_nil_iff]
      exact filled
    rw [Token.stop] at behind
    omega
  placed := by
    intro token member
    obtain ⟨front, stands⟩ := spells.stands token member
    have line := stands.line
    have column := stands.column
    simp only [Text.Place.line_after, Text.Place.start] at line
    constructor <;> omega

end TokenStream

namespace Grammar

variable {grammar : Grammar} {stream : TokenStream} {repairs : List Repair} {tree : SyntaxTree}

/-- The two halves of a parse: the steps over the visible tokens and the end. -/
theorem exists_halves (sound : grammar.Sound) (stream : TokenStream) :
    ∃ last repairs tree endRepairs,
      grammar.steps stream.visiblePlaced .initial = .ok (last, repairs) ∧
      grammar.finish (stream.size - 1) last = .ok (tree, endRepairs) ∧
      (∀ index ∈ Repair.skippedIndices repairs, index ∈ stream.visiblePositions) ∧
      ∀ index ∈ tree.indices,
        index ∈ stream.visiblePositions ∧ index ∉ Repair.skippedIndices repairs := by
  have standing := standing_initial grammar
  obtain ⟨last, repairs, stepped, advances⟩ := exists_steps sound stream.visiblePlaced standing
  obtain ⟨_, _, gained, passage, sublist, perm⟩ := advances.passage sound standing
  obtain ⟨tree, endRepairs, finished, -, finishes⟩ :=
    exists_finishWithin sound (stream.size - 1) maxRepairs passage.standing
  have distinct : (Repair.skippedIndices repairs ++ gained).Nodup :=
    perm.nodup_iff.2 (stream.pairwise_visiblePositions.imp Nat.ne_of_lt)
  refine ⟨last, repairs, tree, endRepairs, stepped, finished, ?_, ?_⟩
  · intro index skipped
    exact perm.subset (List.mem_append_left _ skipped)
  · intro index inside
    have within := passage.within (· ∈ gained) (fun _ read => read) (within_initial _)
    have read : index ∈ gained := finishes.within (· ∈ gained) within index inside
    exact ⟨sublist.subset read, fun skipped =>
      (List.nodup_append.1 distinct).2.2 index skipped index read rfl⟩

/-- No two tokens that the parser took have the same key, so each keeps its own position. -/
theorem lookup_positions (grammar : Grammar) (traceable : stream.Traceable) {index : Nat}
    {token : Token} (found : stream.tokens[index]? = some token) (visible : token.isVisible = true)
    (taken : index ∉ Repair.skippedIndices repairs) :
    (grammar.positions stream repairs).lookup (token.start, grammar.terminalOf token) =
      some index := by
  obtain ⟨kept, same⟩ : ∃ kept, kept = stream.visiblePlaced.filter fun placed =>
    !repairs.contains (.skipped placed.2) := ⟨_, rfl⟩
  have listed : (token, index) ∈ kept := by
    rw [same]
    refine List.mem_filter.2 ⟨TokenStream.mem_visiblePlaced.2 ⟨found, visible⟩, ?_⟩
    rw [Bool.not_eq_true', ← Bool.not_eq_true, List.contains_iff_mem]
    exact fun skipped => taken (List.mem_filterMap.2 ⟨_, skipped, rfl⟩)
  have starts : (kept.map (·.1.start)).Nodup := by
    have all := traceable.apart
    rw [← stream.map_fst_visiblePlaced, List.map_map] at all
    rw [same]
    exact all.sublist (List.filter_sublist.map _)
  obtain ⟨entries, paired⟩ : ∃ entries, entries = kept.map fun placed =>
    ((placed.1.start, grammar.terminalOf placed.1), placed.2) := ⟨_, rfl⟩
  have keys : (entries.map (·.1)).Nodup := by
    apply List.Nodup.of_map Prod.fst
    rw [paired, List.map_map, List.map_map]
    exact starts
  have assigned : grammar.positions stream repairs = entries := by
    rw [← assignAll_of_nodup keys, paired, same]
    rfl
  rw [assigned]
  exact lookup_of_nodup keys (paired ▸ List.mem_map.2 ⟨_, listed, rfl⟩)

/-- The token that a leaf's terminal is traced back to. -/
def tracedToken (grammar : Grammar) (stream : TokenStream) (repairs : List Repair) (leaf : Leaf) :
    Token :=
  stream.tokenOf grammar.vocabulary (grammar.positions stream repairs)
    (grammar.leafTerminal stream leaf)

/-- A terminal that the parser took is traced back to its own position, and one that was made up is
not traced at all. -/
theorem tracedToken_eq_leafToken (traceable : stream.Traceable) {leaf : Leaf}
    (taken : ∀ index, leaf.index? = some index →
      index ∈ stream.visiblePositions ∧ index ∉ Repair.skippedIndices repairs) :
    grammar.tracedToken stream repairs leaf = stream.leafToken grammar.vocabulary leaf := by
  rw [tracedToken]
  cases leaf with
  | token index =>
      obtain ⟨visible, kept⟩ := taken index rfl
      obtain ⟨token, found, shown⟩ := TokenStream.mem_visiblePositions.1 visible
      have own : stream.tokens.getD index stream.eof = token := by
        rw [Array.getD_eq_getD_getElem?, found, Option.getD_some]
      have filled := traceable.filled token (TokenStream.mem_visible found shown)
      have known := lookup_positions grammar traceable found shown kept
      simp only [TokenStream.tokenOf, leafTerminal, terminal, TokenStream.leafToken, own,
        if_neg filled, known]
  | conjured name before =>
      obtain ⟨line, column⟩ := traceable.placed _ (stream.getD_mem before)
      rw [leafTerminal, TokenStream.leafToken]
      generalize stream.tokens.getD before stream.eof = next at line column
      simp [TokenStream.tokenOf, terminal, line, column]

/-- The parse in which every leaf has the token at its own position. -/
def parseByPosition (grammar : Grammar) (stream : TokenStream) : Except Fault Parse := do
  let (parser, repairs) ← grammar.steps stream.visiblePlaced .initial
  let (tree, endRepairs) ← grammar.finish (stream.size - 1) parser
  return {
    tree := .ofLeaves (stream.leafToken grammar.vocabulary) stream.eof
      (skippedTokens stream repairs) tree
    repairs := repairs ++ endRepairs }

theorem parse_eq_parseByPosition (sound : grammar.Sound) (traceable : stream.Traceable) :
    grammar.parse stream = grammar.parseByPosition stream := by
  obtain ⟨last, repairs, tree, endRepairs, stepped, finished, -, taken⟩ :=
    exists_halves sound stream
  simp only [parse, parseByPosition, stepped, finished, ok_bind]
  rw [ParseTree.ofSyntaxTree, ParseTree.ofLeaves_congr]
  intro leaf member
  apply tracedToken_eq_leafToken traceable
  intro index same
  exact taken index (List.mem_filterMap.2 ⟨leaf, member, same⟩)

end Grammar

end Typeahead
