import Typeahead.Proofs.Language.Locating
import Typeahead.Proofs.ParseTree.Retelling
import Typeahead.Proofs.Parsing.Renaming

namespace Typeahead

/-!
Hidden tokens do not influence the analysis.  A stream can be stripped of them, with the visible
tokens counted from zero, and what the parser makes of the bare stream is what it makes of the whole
one, told of the bare tokens.  So streams with the same visible tokens are parsed alike.
-/

theorem map_rank_filter_zipIdx {α : Type} (test : α → Bool) (as : List α) :
    (as.zipIdx.filter fun placed => test placed.1).map (fun placed =>
      (placed.1, ((as.take placed.2).filter test).length)) = (as.filter test).zipIdx := by
  induction as using List.reverseRecOn with
  | nil => rfl
  | append_singleton as a ih =>
      have front : (as.zipIdx.filter fun placed => test placed.1).map (fun placed =>
          (placed.1, (((as ++ [a]).take placed.2).filter test).length)) =
            (as.filter test).zipIdx := by
        rw [← ih]
        apply List.map_congr_left
        intro placed member
        have inside := (List.mem_zipIdx (List.mem_filter.1 member).1).2.1
        rw [List.take_append_of_le_length (by omega)]
      simp only [List.zipIdx_append, List.filter_append, List.map_append, front]
      congr 1
      cases passes : test a <;> simp [passes]

namespace SyntaxTree

variable (f : Nat → Nat)

mutual

@[simp]
theorem size_rename : (tree : SyntaxTree) → (tree.rename f).size = tree.size
  | .leaf _ => by simp [rename, size]
  | .node rule children => by simp [rename, size, sizes_rename children]

theorem sizes_rename : (children : List SyntaxTree) →
    sizes (children.map (rename f)) = sizes children
  | [] => rfl
  | child :: rest => by simp [sizes, size_rename child, sizes_rename rest]

end

theorem places_rename (base : Nat) (children : List SyntaxTree) :
    places base (children.map (rename f)) = places base children := by
  induction children generalizing base with
  | nil => rfl
  | cons child rest ih => simp [places, ih]

variable {f} {g : Token → Token} {tokenOf tokenOf' : Leaf → Token}

mutual

/-- The arena of a renamed tree, if the tokens of the leaves are told by `g`. -/
theorem nodes_rename (parent : Option Nat) (base : Nat) : (tree : SyntaxTree) →
    (∀ leaf ∈ tree.leaves, tokenOf' (leaf.rename f) = g (tokenOf leaf)) →
    (tree.rename f).nodes tokenOf' parent base =
      (tree.nodes tokenOf parent base).map (ParseNode.mapToken g)
  | .leaf terminal, told => by
      have own := told terminal (by simp [leaves])
      simp [rename, nodes, own, ParseNode.mapToken, NodeLabel.mapToken]
  | .node rule children, told => by
      rw [leaves] at told
      have below := childNodes_rename base (base + 1) children told
      simp [rename, nodes, below, places_rename, ParseNode.mapToken, NodeLabel.mapToken]

theorem childNodes_rename (parent base : Nat) : (children : List SyntaxTree) →
    (∀ leaf ∈ leavesOf children, tokenOf' (leaf.rename f) = g (tokenOf leaf)) →
    childNodes tokenOf' parent base (children.map (rename f)) =
      (childNodes tokenOf parent base children).map (ParseNode.mapToken g)
  | [], _ => rfl
  | child :: rest, told => by
      rw [leavesOf, List.forall_mem_append] at told
      have here := nodes_rename (some parent) base child told.1
      have later := childNodes_rename parent (base + child.size) rest told.2
      simp [childNodes, here, later]

end

mutual

theorem filterMap_token?_nodes (tokenOf : Leaf → Token) (parent : Option Nat) (base : Nat) :
    (tree : SyntaxTree) →
    (tree.nodes tokenOf parent base).filterMap ParseNode.token? = tree.leaves.map tokenOf
  | .leaf terminal => by simp [nodes, leaves, ParseNode.token?]
  | .node rule children => by
      rw [nodes, leaves, List.filterMap_cons_none rfl,
        filterMap_token?_childNodes tokenOf base (base + 1) children]

theorem filterMap_token?_childNodes (tokenOf : Leaf → Token) (parent base : Nat) :
    (children : List SyntaxTree) →
    (childNodes tokenOf parent base children).filterMap ParseNode.token? =
      (leavesOf children).map tokenOf
  | [] => rfl
  | child :: rest => by
      simp [childNodes, leavesOf, filterMap_token?_nodes tokenOf (some parent) base child,
        filterMap_token?_childNodes tokenOf parent (base + child.size) rest]

end

end SyntaxTree

namespace TokenStream

variable {stream : TokenStream} {token : Token} {index : Nat}

/-- The number of visible tokens in front of a position. -/
def rank (stream : TokenStream) (index : Nat) : Nat :=
  ((stream.tokens.toList.take index).filter Token.isVisible).length

/-- What is left of a token without the hidden ones: its type, its text, and how many visible tokens
stand in front of it. -/
def essence (stream : TokenStream) (token : Token) : Token where
  type := token.type
  text := token.text
  index := token.index.map fun index => (stream.rank index.toNat : Int)
  line := 0
  column := 0
  start := 0

theorem text_essence (stream : TokenStream) (token : Token) :
    (stream.essence token).text = token.text := rfl

/-- The stream without its hidden tokens. -/
def bare (stream : TokenStream) : TokenStream where
  tokens := (stream.terminals.map stream.essence).toArray
  ends := by simp [terminals, essence, stream.type_eof]

theorem rank_le {first second : Nat} (ordered : first ≤ second) :
    stream.rank first ≤ stream.rank second :=
  ((List.take_prefix_take_left ordered).sublist.filter _).length_le

theorem rank_lt {first second : Nat} (ordered : first < second)
    (visible : first ∈ stream.visiblePositions) : stream.rank first < stream.rank second := by
  obtain ⟨token, found, shown⟩ := mem_visiblePositions.1 visible
  rw [← Array.getElem?_toList] at found
  have next : stream.rank (first + 1) = stream.rank first + 1 := by
    simp [rank, List.take_add_one, found, shown]
  have further : stream.rank (first + 1) ≤ stream.rank second := rank_le ordered
  omega

theorem map_rank_visiblePlaced (stream : TokenStream) :
    stream.visiblePlaced.map (fun placed => (placed.1, stream.rank placed.2)) =
      stream.visible.zipIdx :=
  map_rank_filter_zipIdx Token.isVisible stream.tokens.toList

theorem visible_eq_filter_dropLast (stream : TokenStream) :
    stream.visible = stream.tokens.toList.dropLast.filter Token.isVisible := by
  obtain ⟨front, tokens⟩ := stream.exists_toList_eq
  simp [visible, tokens, Token.isVisible, stream.type_eof]

theorem rank_eof (stream : TokenStream) : stream.rank (stream.size - 1) = stream.visible.length := by
  simp [rank, visible_eq_filter_dropLast, List.dropLast_eq_take, size]

theorem size_bare (stream : TokenStream) : stream.bare.size = stream.visible.length + 1 := by
  simp [size, bare, terminals]

theorem eof_bare (stream : TokenStream) : stream.bare.eof = stream.essence stream.eof := by
  have last := stream.bare.getElem?_eof
  rw [size_bare] at last
  simpa [bare, terminals] using last.symm

theorem isVisible_essence (shown : token.isVisible = true) :
    (stream.essence token).isVisible = true := by
  simp only [Token.isVisible, Bool.and_eq_true] at shown ⊢
  exact ⟨rfl, shown.2⟩

/-- The bare stream shows the visible tokens, each at its rank. -/
theorem visiblePlaced_bare (stream : TokenStream) :
    stream.bare.visiblePlaced = stream.visiblePlaced.map fun placed =>
      (stream.essence placed.1, stream.rank placed.2) := by
  have shown : ((stream.visible.map stream.essence).zipIdx.filter fun placed =>
      placed.1.isVisible) = (stream.visible.map stream.essence).zipIdx := by
    rw [List.filter_eq_self]
    intro placed member
    obtain ⟨token, inside, same⟩ :=
      List.mem_map.1 (List.fst_eq_of_mem_zipIdx member ▸ List.getElem_mem _)
    rw [← same]
    exact isVisible_essence (List.mem_filter.1 inside).2
  have ending : (stream.essence stream.eof).isVisible = false := by
    simp [Token.isVisible, essence, stream.type_eof]
  have ranked : stream.visiblePlaced.map (fun placed =>
      (stream.essence placed.1, stream.rank placed.2)) =
        stream.visible.zipIdx.map fun placed => (stream.essence placed.1, placed.2) := by
    rw [← map_rank_visiblePlaced, List.map_map]
    rfl
  have tokens : stream.bare.tokens.toList =
      stream.visible.map stream.essence ++ [stream.essence stream.eof] := by
    simp [bare, terminals]
  rw [ranked, visiblePlaced, tokens, List.zipIdx_append, List.filter_append, shown,
    List.zipIdx_map]
  simp [ending, Prod.map]

theorem getElem?_rank (visible : index ∈ stream.visiblePositions) :
    ∃ token, stream.tokens[index]? = some token ∧
      stream.bare.tokens[stream.rank index]? = some (stream.essence token) := by
  obtain ⟨token, found, shown⟩ := mem_visiblePositions.1 visible
  have placed : (token, index) ∈ stream.visiblePlaced := mem_visiblePlaced.2 ⟨found, shown⟩
  have listed : (stream.essence token, stream.rank index) ∈ stream.bare.visiblePlaced := by
    rw [visiblePlaced_bare]
    exact List.mem_map.2 ⟨_, placed, rfl⟩
  exact ⟨token, found, (mem_visiblePlaced.1 listed).1⟩

theorem placeless_bare (index : Nat) :
    (stream.bare.tokens.getD index stream.bare.eof).line = 0 ∧
      (stream.bare.tokens.getD index stream.bare.eof).column = 0 ∧
      (stream.bare.tokens.getD index stream.bare.eof).start = 0 := by
  rw [Array.getD_eq_getD_getElem?, eof_bare]
  cases found : stream.bare.tokens[index]? with
  | none => exact ⟨rfl, rfl, rfl⟩
  | some token =>
      obtain ⟨inside, rfl⟩ := Array.getElem?_eq_some_iff.1 found
      simp [bare, essence]

theorem leafToken_bare (vocabulary : Vocabulary) {leaf : Leaf}
    (visible : ∀ index, leaf.index? = some index → index ∈ stream.visiblePositions) :
    stream.bare.leafToken vocabulary (leaf.rename stream.rank) =
      stream.essence (stream.leafToken vocabulary leaf) := by
  cases leaf with
  | token index =>
      obtain ⟨token, found, found'⟩ := getElem?_rank (visible index rfl)
      simp [Leaf.rename, leafToken, Array.getD_eq_getD_getElem?, found, found']
  | conjured terminal before =>
      obtain ⟨line, column, start⟩ := stream.placeless_bare (stream.rank before)
      simp only [Leaf.rename, leafToken, line, column, start]
      rfl

/-- A token that was made up, or one that the parser sees. -/
def Shown (stream : TokenStream) (token : Token) : Prop :=
  ∀ index, token.index = some index →
    ∃ position : Nat, index = position ∧
      (position ∈ stream.visiblePositions ∨ position = stream.size - 1)

theorem keepsOrder_essence (stream : TokenStream) :
    ParseTree.KeepsOrder stream.essence (fun index => (stream.rank index.toNat : Int))
      stream.Shown where
  index := fun _ => rfl
  less := by
    intro first second i j shown shown' placed placed'
    obtain ⟨i, rfl, visible⟩ := shown i placed
    obtain ⟨j, rfl, visible'⟩ := shown' j placed'
    simp only [Int.toNat_natCast, Int.ofNat_lt]
    constructor
    · intro less
      by_contra ordered
      have backward : stream.rank j ≤ stream.rank i := rank_le (by omega)
      omega
    · intro less
      rcases visible with visible | ending
      · exact rank_lt less visible
      · -- nothing stands behind the end token
        rcases visible' with visible' | ending'
        · have inside := lt_of_mem_visiblePositions visible'
          omega
        · omega

end TokenStream

namespace Grammar

variable {grammar : Grammar} {stream : TokenStream} {parse : Parse}

theorem steps_map_fst {g : Token → Token}
    (same : ∀ token, grammar.terminalOf (g token) = grammar.terminalOf token)
    (placed : List (Token × Nat)) (parser : LiveParser) :
    grammar.steps (placed.map fun token => (g token.1, token.2)) parser =
      grammar.steps placed parser := by
  induction placed generalizing parser with
  | nil => rfl
  | cons token rest ih =>
      obtain ⟨token, index⟩ := token
      simp only [List.map_cons, steps, same, ih]

/-- Tokens that were passed over, told of the bare stream. -/
theorem skippedTokens_bare {repairs : List Repair}
    (visible : ∀ index ∈ Repair.skippedIndices repairs, index ∈ stream.visiblePositions) :
    skippedTokens stream.bare (repairs.map (Repair.rename stream.rank)) =
      (skippedTokens stream repairs).map stream.essence := by
  rw [skippedTokens_eq, skippedTokens_eq, List.map_filterMap]
  have ranks : Repair.skippedIndices (repairs.map (Repair.rename stream.rank)) =
      (Repair.skippedIndices repairs).map stream.rank := by
    rw [Repair.skippedIndices, Repair.skippedIndices, List.filterMap_map, List.map_filterMap]
    congr 1
    funext repair
    cases repair <;> rfl
  rw [ranks, List.filterMap_map]
  apply List.filterMap_congr
  intro index skipped
  obtain ⟨token, found, found'⟩ := TokenStream.getElem?_rank (visible index skipped)
  simp [found, found']

section Arena

variable (indexed : stream.Indexed) {tree : SyntaxTree} {repairs : List Repair}
  (read : ∀ index ∈ tree.indices, index ∈ stream.visiblePositions)
  (skipped : ∀ index ∈ Repair.skippedIndices repairs, index ∈ stream.visiblePositions)

include indexed

theorem shown_of_getElem? {index : Nat} {token : Token}
    (found : stream.tokens[index]? = some token)
    (visible : index ∈ stream.visiblePositions ∨ index = stream.size - 1) : stream.Shown token := by
  intro position placed
  rw [indexed _ _ found] at placed
  exact ⟨index, (Option.some.inj placed).symm, visible⟩

include read

theorem shown_leafToken {leaf : Leaf} (member : leaf ∈ tree.leaves) :
    stream.Shown (stream.leafToken grammar.vocabulary leaf) := by
  cases leaf with
  | conjured terminal before =>
      intro position placed
      cases placed
  | token index =>
      have visible := read index (List.mem_filterMap.2 ⟨_, member, rfl⟩)
      obtain ⟨token, found, -⟩ := TokenStream.mem_visiblePositions.1 visible
      have same : stream.leafToken grammar.vocabulary (.token index) = token := by
        simp [TokenStream.leafToken, Array.getD_eq_getD_getElem?, found]
      rw [same]
      exact shown_of_getElem? indexed found (.inl visible)

/-- The arena with the end token in it. -/
theorem knows_shown : ((⟨(tree.nodes (stream.leafToken grammar.vocabulary) none 0).toArray⟩ :
    ParseTree).insertToken 0 ((⟨(tree.nodes (stream.leafToken grammar.vocabulary) none 0).toArray⟩ :
      ParseTree).children 0).length stream.eof).Knows stream.Shown := by
  refine ParseTree.Knows.insertToken ?_
    (shown_of_getElem? indexed stream.getElem?_eof (.inr rfl)) _ _
  intro i token found
  obtain ⟨node, here, own⟩ := Option.bind_eq_some_iff.1 found
  rw [ParseTree.node?, List.getElem?_toArray] at here
  have listed : token ∈ (tree.nodes (stream.leafToken grammar.vocabulary) none 0).filterMap
      ParseNode.token? := List.mem_filterMap.2 ⟨node, List.mem_of_getElem? here, own⟩
  rw [SyntaxTree.filterMap_token?_nodes] at listed
  obtain ⟨leaf, member, rfl⟩ := List.mem_map.1 listed
  exact shown_leafToken indexed read member

include skipped

theorem ofLeaves_bare :
    ParseTree.ofLeaves (stream.bare.leafToken grammar.vocabulary) stream.bare.eof
        (skippedTokens stream.bare (repairs.map (Repair.rename stream.rank)))
        (tree.rename stream.rank) =
      (ParseTree.ofLeaves (stream.leafToken grammar.vocabulary) stream.eof
        (skippedTokens stream repairs) tree).mapTokens stream.essence := by
  have arena : (⟨((tree.rename stream.rank).nodes (stream.bare.leafToken grammar.vocabulary)
      none 0).toArray⟩ : ParseTree) =
        (⟨(tree.nodes (stream.leafToken grammar.vocabulary) none 0).toArray⟩ :
          ParseTree).mapTokens stream.essence := by
    rw [ParseTree.mapTokens, ParseTree.mk.injEq, List.map_toArray]
    congr 1
    apply SyntaxTree.nodes_rename
    intro leaf member
    apply TokenStream.leafToken_bare
    intro index same
    exact read index (List.mem_filterMap.2 ⟨leaf, member, same⟩)
  have passed : ∀ token ∈ skippedTokens stream repairs,
      stream.Shown token ∧ token.conjured = false := by
    intro token member
    rw [skippedTokens_eq] at member
    obtain ⟨index, listed, found⟩ := List.mem_filterMap.1 member
    refine ⟨shown_of_getElem? indexed found (.inl (skipped index listed)), ?_⟩
    simp [Token.conjured, indexed _ _ found]
  simp only [ParseTree.ofLeaves]
  rw [ParseTree.foldl_attach_mapTokens stream.keepsOrder_essence (knows_shown indexed read) passed,
    ParseTree.insertToken_mapTokens, arena, skippedTokens_bare skipped, TokenStream.eof_bare,
    ParseTree.children_mapTokens]

end Arena

/-- What the parser makes of a bare stream is what it makes of the whole one.  The tokens of a bare
stream have no places by which terminals could be traced back. -/
theorem parseByPosition_bare (sound : grammar.Sound) (indexed : stream.Indexed)
    (parsed : grammar.parseByPosition stream = .ok parse) :
    grammar.parseByPosition stream.bare =
      .ok ⟨parse.tree.mapTokens stream.essence, parse.repairs.map (Repair.rename stream.rank)⟩ := by
  obtain ⟨last, repairs, tree, endRepairs, stepped, finished, skipped, taken⟩ :=
    exists_halves sound stream
  have read : ∀ index ∈ tree.indices, index ∈ stream.visiblePositions :=
    fun index inside => (taken index inside).1
  have steppedBare : grammar.steps stream.bare.visiblePlaced .initial =
      .ok (last.rename stream.rank, repairs.map (Repair.rename stream.rank)) := by
    have renamed := grammar.steps_rename stream.rank stream.visiblePlaced .initial
    rw [stepped, LiveParser.rename_initial,
      ← steps_map_fst (g := stream.essence) (fun _ => rfl), List.map_map] at renamed
    rw [TokenStream.visiblePlaced_bare]
    exact renamed
  have finishedBare : grammar.finish (stream.bare.size - 1) (last.rename stream.rank) =
      .ok (tree.rename stream.rank, endRepairs.map (Repair.rename stream.rank)) := by
    have renamed := grammar.finishWithin_rename stream.rank (stream.size - 1) maxRepairs last
    rw [stream.rank_eof] at renamed
    rw [TokenStream.size_bare, Nat.add_sub_cancel, finish, renamed]
    exact congrArg (Except.map _) finished
  have whole : grammar.parseByPosition stream =
      .ok ⟨ParseTree.ofLeaves (stream.leafToken grammar.vocabulary) stream.eof
        (skippedTokens stream repairs) tree, repairs ++ endRepairs⟩ := by
    simp only [parseByPosition, stepped, finished, ok_bind]
    rfl
  obtain rfl := Except.ok.inj (parsed.symm.trans whole)
  simp only [parseByPosition, steppedBare, finishedBare, ok_bind]
  rw [ofLeaves_bare indexed read skipped, List.map_append]
  rfl

end Grammar

namespace TokenStream

variable {stream stream' : TokenStream}

/-- Tokens are visible from a position on as far as its rank says. -/
theorem visibleBefore_eq (stream : TokenStream) (index : Nat) (inside : index ≤ stream.size) :
    stream.visibleBefore index = stream.visible.take (stream.rank index) := by
  have cut : Slice.cut stream.tokens.size (index : Int) = index := by
    simp only [Slice.cut, size] at *
    split <;> omega
  have front : (stream.tokens.toList.take index).filter Token.isVisible <+: stream.visible :=
    (List.take_prefix _ _).filter _
  rw [visibleBefore, Slice.upTo, cut, rank, ← List.prefix_iff_eq_take.1 front]
  simp

theorem exists_rank_eq (indexed : stream.Indexed) {k : Nat} {token : Token}
    (listed : stream.terminals[k]? = some token) :
    ∃ index : Nat, token.position = index ∧ index ≤ stream.size ∧ stream.rank index = k := by
  rw [terminals, List.getElem?_append] at listed
  split at listed
  · rename_i inside
    have ranked : stream.visible.zipIdx[k]? = some (token, k) := by
      simp [List.getElem?_zipIdx, listed]
    rw [← map_rank_visiblePlaced, List.getElem?_map] at ranked
    obtain ⟨⟨own, index⟩, placed, same⟩ := Option.map_eq_some_iff.1 ranked
    obtain ⟨rfl, rank⟩ := Prod.mk.inj same
    have found := (mem_visiblePlaced.1 (List.mem_of_getElem? placed)).1
    refine ⟨index, ?_, Nat.le_of_lt (Array.getElem?_eq_some_iff.1 found).1, rank⟩
    rw [Token.position, indexed _ _ found, Option.getD_some]
  · rename_i outside
    obtain ⟨behind, rfl⟩ := List.getElem?_eq_some_iff.1 listed
    have last : k = stream.visible.length := by
      simp only [List.length_singleton] at behind
      omega
    refine ⟨stream.size - 1, ?_, Nat.sub_le _ _, ?_⟩
    · rw [List.getElem_singleton, Token.position, index_eof indexed, Option.getD_some]
    · rw [last, rank_eof]

theorem map_essence_visible (indexed : stream.Indexed) :
    stream.visible.map stream.essence = stream.visible.zipIdx.map fun placed =>
      ⟨placed.1.type, placed.1.text, some placed.2, 0, 0, 0, false, false⟩ := by
  rw [← map_rank_visiblePlaced, ← stream.map_fst_visiblePlaced, List.map_map, List.map_map]
  apply List.map_congr_left
  intro placed member
  have found := (mem_visiblePlaced.1 member).1
  simp [essence, indexed _ _ found]

/-- The bare streams are the same if the visible tokens agree in type and text. -/
theorem bare_eq_of_visible (indexed : stream.Indexed) (indexed' : stream'.Indexed)
    (ends : stream.eof.text = stream'.eof.text)
    (same : stream.visible.map (fun token => (token.type, token.text)) =
      stream'.visible.map fun token => (token.type, token.text)) : stream.bare = stream'.bare := by
  have told : ∀ tokens : List Token, (tokens.zipIdx.map fun placed =>
      (⟨placed.1.type, placed.1.text, some placed.2, 0, 0, 0, false, false⟩ : Token)) =
        (tokens.map fun token => (token.type, token.text)).zipIdx.map fun placed =>
          ⟨placed.1.1, placed.1.2, some placed.2, 0, 0, 0, false, false⟩ := by
    intro tokens
    rw [List.zipIdx_map, List.map_map]
    rfl
  have count : stream.visible.length = stream'.visible.length := by
    simpa using congrArg List.length same
  have last : stream.essence stream.eof = stream'.essence stream'.eof := by
    simp [essence, index_eof, indexed, indexed', rank_eof, type_eof, ends, count]
  have tokens : stream.bare.tokens = stream'.bare.tokens := by
    simp only [bare, terminals, List.map_append, map_essence_visible indexed,
      map_essence_visible indexed', told, same, List.map_cons, List.map_nil, last]
  cases bare : stream.bare
  cases bare' : stream'.bare
  simpa [bare, bare'] using tokens

end TokenStream

namespace Language

/-- Streams whose visible tokens agree in type and text are analysed alike, whatever is hidden
between them.  Their trees have the same nodes, and corresponding terminals in them are corresponding
tokens; the trees have the same symbols; and in front of corresponding tokens, and at the end, the
candidates are the same. -/
theorem hidden_tokens_unnoticed (language : Language) {text text' : String}
    {stream stream' : TokenStream}
    (tokenized : language.support.grammar.tokenize text = .ok stream)
    (tokenized' : language.support.grammar.tokenize text' = .ok stream')
    (same : stream.visible.map (fun token => (token.type, token.text)) =
      stream'.visible.map fun token => (token.type, token.text)) :
    (∃ parse parse', language.support.grammar.parse stream = .ok parse ∧
      language.support.grammar.parse stream' = .ok parse' ∧
      parse.tree.mapTokens stream.essence = parse'.tree.mapTokens stream'.essence ∧
      ∀ declarations,
        parse.tree.symbolTable declarations = parse'.tree.symbolTable declarations) ∧
    ∀ (k : Nat) (token token' : Token), stream.terminals[k]? = some token →
      stream'.terminals[k]? = some token' → ∀ filter,
        Candidates.after language.support.grammar.table language.support.grammar.vocabulary filter
            (language.support.grammar.chartBefore stream token.position) =
          Candidates.after language.support.grammar.table language.support.grammar.vocabulary filter
            (language.support.grammar.chartBefore stream' token'.position) := by
  have traceable := (language.spells tokenized).traceable
  have traceable' := (language.spells tokenized').traceable
  have indexed := traceable.indexed
  have indexed' := traceable'.indexed
  constructor
  · obtain ⟨parse, _, _, parsed, -⟩ := Grammar.exists_parse language.sound stream
    obtain ⟨parse', _, _, parsed', -⟩ := Grammar.exists_parse language.sound stream'
    have ends : stream.eof.text = stream'.eof.text := by
      rw [(Grammar.eof_of_tokenize tokenized).1, (Grammar.eof_of_tokenize tokenized').1]
    have bare := Grammar.parseByPosition_bare language.sound indexed
      ((Grammar.parse_eq_parseByPosition language.sound traceable).symm.trans parsed)
    have bare' := Grammar.parseByPosition_bare language.sound indexed'
      ((Grammar.parse_eq_parseByPosition language.sound traceable').symm.trans parsed')
    rw [TokenStream.bare_eq_of_visible indexed indexed' ends same, bare'] at bare
    obtain ⟨trees, -⟩ := Parse.mk.inj (Except.ok.inj bare)
    refine ⟨parse, parse', parsed, parsed', trees.symm, ?_⟩
    intro declarations
    calc parse.tree.symbolTable declarations
      _ = (parse.tree.mapTokens stream.essence).symbolTable declarations :=
        (ParseTree.symbolTable_mapTokens parse.tree stream.text_essence declarations).symm
      _ = (parse'.tree.mapTokens stream'.essence).symbolTable declarations := by rw [trees]
      _ = parse'.tree.symbolTable declarations :=
        ParseTree.symbolTable_mapTokens parse'.tree stream'.text_essence declarations
  · intro k token token' listed listed' filter
    obtain ⟨index, place, inside, rank⟩ := TokenStream.exists_rank_eq indexed listed
    obtain ⟨index', place', inside', rank'⟩ := TokenStream.exists_rank_eq indexed' listed'
    have names : stream.visible.map language.support.grammar.terminalOf =
        stream'.visible.map language.support.grammar.terminalOf := by
      have types := congrArg (List.map Prod.fst) same
      simp only [List.map_map] at types
      have byType := congrArg
        (List.map fun type => (language.support.grammar.vocabulary.symbolicName? type).getD "") types
      simp only [List.map_map] at byType
      exact byType
    simp only [Grammar.chartBefore, place, place', stream.visibleBefore_eq index inside,
      stream'.visibleBefore_eq index' inside', rank, rank', List.map_take, names]

namespace Commented

/-! One line with a comment and with a blank in its place. -/

def plain : TokenStream :=
  ⟨#[⟨19, "model", some 0, 1, 0, 0, false, false⟩, ⟨1, " ", some 1, 1, 5, 5, true, false⟩,
    ⟨6, "\x7b", some 2, 1, 6, 6, false, false⟩,
    ⟨eofType, "", some 3, 1, 7, 7, false, false⟩], rfl⟩

def commented : TokenStream :=
  ⟨#[⟨19, "model", some 0, 1, 0, 0, false, false⟩, ⟨3, "/**/", some 1, 1, 5, 5, true, true⟩,
    ⟨1, " ", some 2, 1, 9, 9, true, false⟩, ⟨6, "\x7b", some 3, 1, 10, 10, false, false⟩,
    ⟨eofType, "", some 4, 1, 11, 11, false, false⟩], rfl⟩

theorem parsed_alike :
    Language.structurizr.support.grammar.tokenize "model \x7b" = .ok plain ∧
      Language.structurizr.support.grammar.tokenize "model/**/ \x7b" = .ok commented ∧
      plain.visible.map (fun token => (token.type, token.text)) =
        commented.visible.map (fun token => (token.type, token.text)) ∧
      ∃ parse parse', Architecture.grammar.parse plain = .ok parse ∧
        Architecture.grammar.parse commented = .ok parse' ∧
        parse.tree.mapTokens plain.essence = parse'.tree.mapTokens commented.essence := by
  have tokenized : Language.structurizr.support.grammar.tokenize "model \x7b" = .ok plain := rfl
  have tokenized' : Language.structurizr.support.grammar.tokenize "model/**/ \x7b" =
      .ok commented := rfl
  have same : plain.visible.map (fun token => (token.type, token.text)) =
      commented.visible.map fun token => (token.type, token.text) := rfl
  obtain ⟨⟨parse, parse', parsed, parsed', trees, -⟩, -⟩ :=
    hidden_tokens_unnoticed .structurizr tokenized tokenized' same
  exact ⟨tokenized, tokenized', same, parse, parse', parsed, parsed', trees⟩

end Commented

end Language

end Typeahead
