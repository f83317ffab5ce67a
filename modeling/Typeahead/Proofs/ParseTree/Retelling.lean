import Typeahead.ParseTree.Arena
import Typeahead.Proofs.Forest.Yield
import Typeahead.Symbol.Declaration

namespace Typeahead

/-!
Trees with other tokens in the place of their own.  The nodes and their rules stay, and so does the
symbol table as long as the texts do.  A token is hung in at the same place if its position and those
in the tree stay in order.
-/

def NodeLabel.mapToken (g : Token → Token) : NodeLabel → NodeLabel
  | .rule name => .rule name
  | .token own => .token (g own)
  | .bare => .bare

def ParseNode.mapToken (g : Token → Token) (node : ParseNode) : ParseNode :=
  { node with label := node.label.mapToken g }

namespace ParseTree

variable (g : Token → Token) (tree : ParseTree)

def mapTokens : ParseTree := ⟨tree.nodes.map (ParseNode.mapToken g)⟩

@[simp]
theorem size_mapTokens : (tree.mapTokens g).size = tree.size := by
  simp [mapTokens, size]

@[simp]
theorem node?_mapTokens (i : Nat) :
    (tree.mapTokens g).node? i = (tree.node? i).map (ParseNode.mapToken g) := by
  simp [mapTokens, node?]

@[simp]
theorem children_mapTokens (i : Nat) : (tree.mapTokens g).children i = tree.children i := by
  rw [children, node?_mapTokens, children]
  cases tree.node? i <;> rfl

@[simp]
theorem rule?_mapTokens (i : Nat) : (tree.mapTokens g).rule? i = tree.rule? i := by
  rw [rule?, node?_mapTokens, rule?]
  rcases tree.node? i with _ | ⟨parent, label, children⟩
  · rfl
  · cases label <;> rfl

@[simp]
theorem token?_mapTokens (i : Nat) : (tree.mapTokens g).token? i = (tree.token? i).map g := by
  rw [token?, node?_mapTokens, token?]
  rcases tree.node? i with _ | ⟨parent, label, children⟩
  · rfl
  · cases label <;> rfl

@[simp]
theorem walk_mapTokens (i : Nat) : (tree.mapTokens g).walk i = tree.walk i := by
  have upTo : ∀ depth i, (tree.mapTokens g).walkUpTo depth i = tree.walkUpTo depth i := by
    intro depth
    induction depth with
    | zero => exact fun _ => rfl
    | succ depth ih =>
        intro i
        simp only [walkUpTo, children_mapTokens, List.cons.injEq, true_and]
        exact List.flatMap_congr fun child _ => ih child
  rw [walk, walk, size_mapTokens, upTo]

@[simp]
theorem tokens_mapTokens (i : Nat) : (tree.mapTokens g).tokens i = (tree.tokens i).map g := by
  simp only [tokens, walk_mapTokens, List.map_filterMap]
  exact List.filterMap_congr fun j _ => token?_mapTokens g tree j

theorem insertToken_mapTokens (parent place : Nat) (token : Token) :
    (tree.insertToken parent place token).mapTokens g =
      (tree.mapTokens g).insertToken parent place (g token) := by
  simp only [insertToken, mapTokens, mk.injEq, Array.map_push, Array.size_map]
  congr 1
  apply Array.ext_getElem?
  intro i
  simp only [Array.getElem?_modify, Array.getElem?_map]
  by_cases same : parent = i
  · simp only [same, if_true]
    cases tree.nodes[i]? <;> rfl
  · simp only [same, if_false]

section Order

variable {g} {tree} {rank : Int → Int} {known : Token → Prop}

/-- The positions of the tokens told by `g` are those told by `rank`, and known tokens stay in
order. -/
structure KeepsOrder (g : Token → Token) (rank : Int → Int) (known : Token → Prop) : Prop where
  index : ∀ token, (g token).index = token.index.map rank
  less : ∀ first second i j, known first → known second → first.index = some i →
    second.index = some j → (rank i < rank j ↔ i < j)

/-- All tokens of the arena are known. -/
def Knows (tree : ParseTree) (known : Token → Prop) : Prop :=
  ∀ i token, tree.token? i = some token → known token

theorem Knows.of_mem_tokens (knows : tree.Knows known) {i : Nat} {token : Token}
    (member : token ∈ tree.tokens i) : known token := by
  obtain ⟨j, -, found⟩ := List.mem_filterMap.1 member
  exact knows j token found

theorem Knows.insertToken (knows : tree.Knows known) {token : Token} (own : known token)
    (parent place : Nat) : (tree.insertToken parent place token).Knows known := by
  intro i other found
  obtain ⟨node, here, label⟩ := Option.bind_eq_some_iff.1 found
  simp only [node?, ParseTree.insertToken, Array.getElem?_push, Array.size_modify] at here
  split at here
  · obtain rfl := Option.some.inj here
    obtain rfl : token = other := Option.some.inj label
    exact own
  · rw [Array.getElem?_modify] at here
    apply knows i other
    split at here
    · obtain ⟨before, stored, rfl⟩ := Option.map_eq_some_iff.1 here
      rw [token?, node?, stored]
      exact label
    · rw [token?, node?, here]
      exact label

variable (keeps : KeepsOrder g rank known)

include keeps

theorem KeepsOrder.conjured (token : Token) : (g token).conjured = token.conjured := by
  rw [Token.conjured, Token.conjured, keeps.index, Option.isNone_map]

theorem tokenRange?_mapTokens (i : Nat) :
    (tree.mapTokens g).tokenRange? i =
      (tree.tokenRange? i).map fun ends => (g ends.1, g ends.2) := by
  have streamed : ((tree.mapTokens g).tokens i).filter (!·.conjured) =
      ((tree.tokens i).filter (!·.conjured)).map g := by
    rw [tokens_mapTokens, List.filter_map]
    congr 1
    apply List.filter_congr
    intro token _
    simp [keeps.conjured]
  rw [tokenRange?, tokenRange?, streamed, List.head?_map, List.getLast?_map]
  cases ((tree.tokens i).filter (!·.conjured)).head? <;>
    cases ((tree.tokens i).filter (!·.conjured)).getLast? <;> rfl

theorem indexRange?_mapTokens (i : Nat) :
    (tree.mapTokens g).indexRange? i =
      (tree.indexRange? i).map fun ends => (rank ends.1, rank ends.2) := by
  rw [indexRange?, indexRange?, tokenRange?_mapTokens keeps]
  rcases tree.tokenRange? i with _ | ⟨first, last⟩
  · rfl
  · simp only [Option.map_some, Option.bind_eq_bind, Option.bind_some, keeps.index]
    cases first.index <;> cases last.index <;> rfl

omit keeps in
theorem Knows.of_indexRange? (knows : tree.Knows known) {i : Nat} {low high : Int}
    (range : tree.indexRange? i = some (low, high)) :
    (∃ first, known first ∧ first.index = some low) ∧
      ∃ last, known last ∧ last.index = some high := by
  obtain ⟨⟨first, last⟩, ends, indices⟩ := Option.bind_eq_some_iff.1 range
  obtain ⟨low', here, indices⟩ := Option.bind_eq_some_iff.1 indices
  obtain ⟨high', there, same⟩ := Option.bind_eq_some_iff.1 indices
  obtain ⟨rfl, rfl⟩ := Prod.mk.inj (Option.some.inj same)
  have members : first ∈ tree.tokens i ∧ last ∈ tree.tokens i := by
    unfold tokenRange? at ends
    simp only at ends
    split at ends
    · rename_i own own' heading ending
      obtain ⟨rfl, rfl⟩ := Prod.mk.inj (Option.some.inj ends)
      exact ⟨(List.mem_filter.1 (List.mem_of_head? heading)).1,
        (List.mem_filter.1 (List.mem_of_getLast? ending)).1⟩
    · cases ends
  exact ⟨⟨first, knows.of_mem_tokens members.1, here⟩, last, knows.of_mem_tokens members.2, there⟩

variable (knows : tree.Knows known) {token : Token} {index : Int} (own : known token)
  (placed : token.index = some index)

include knows own placed

theorem spans_mapTokens (i : Nat) :
    (tree.mapTokens g).spans (rank index) i = tree.spans index i := by
  rw [spans, spans, token?_mapTokens, Option.isNone_map, indexRange?_mapTokens keeps]
  congr 1
  cases range : tree.indexRange? i with
  | none => rfl
  | some ends =>
      obtain ⟨⟨first, firstKnown, low⟩, last, lastKnown, high⟩ := knows.of_indexRange? range
      simp only [Option.map_some, Option.any_some]
      rw [decide_eq_decide.2 (keeps.less first token _ _ firstKnown own low placed),
        decide_eq_decide.2 (keeps.less token last _ _ own lastKnown placed high)]

theorem deepestSpanning_mapTokens (depth i : Nat) :
    (tree.mapTokens g).deepestSpanning (rank index) depth i =
      tree.deepestSpanning index depth i := by
  induction depth generalizing i with
  | zero => rfl
  | succ depth ih =>
      have same : (tree.mapTokens g).spans (rank index) = tree.spans index :=
        funext (spans_mapTokens keeps knows own placed)
      simp only [deepestSpanning, children_mapTokens, same, ih]

/-- The token is hung in at the same place. -/
theorem attach_mapTokens : (tree.attach token).mapTokens g = (tree.mapTokens g).attach (g token) := by
  have later : ∀ child, ((tree.mapTokens g).firstIndex? child).any (rank index < ·) =
      (tree.firstIndex? child).any (index < ·) := by
    intro child
    rw [firstIndex?, firstIndex?, indexRange?_mapTokens keeps]
    cases range : tree.indexRange? child with
    | none => rfl
    | some ends =>
        obtain ⟨⟨first, firstKnown, low⟩, -⟩ := knows.of_indexRange? range
        simp only [Option.map_some, Option.any_some]
        exact decide_eq_decide.2 (keeps.less token first _ _ own firstKnown placed low)
  have placed' : (g token).index = some (rank index) := by rw [keeps.index, placed, Option.map_some]
  simp only [attach, placed, placed', insertToken_mapTokens, size_mapTokens,
    deepestSpanning_mapTokens keeps knows own placed, children_mapTokens, later]

omit own placed in
theorem foldl_attach_mapTokens {tokens : List Token}
    (listed : ∀ token ∈ tokens, known token ∧ token.conjured = false) :
    (tokens.foldl attach tree).mapTokens g = (tokens.map g).foldl attach (tree.mapTokens g) := by
  induction tokens generalizing tree with
  | nil => rfl
  | cons token rest ih =>
      rw [List.forall_mem_cons] at listed
      obtain ⟨⟨own, streamed⟩, others⟩ := listed
      obtain ⟨index, placed⟩ : ∃ index, token.index = some index := by
        rw [← Option.isSome_iff_exists]
        simpa [Token.conjured] using streamed
      have further : (tree.attach token).Knows known := by
        simp only [attach, placed]
        exact knows.insertToken own _ _
      rw [List.foldl_cons, ih further others, attach_mapTokens keeps knows own placed,
        List.map_cons, List.foldl_cons]

end Order

section Symbols

variable {g} (texts : ∀ token, (g token).text = token.text) (declarations : Declarations)

include texts

theorem nameIn_mapTokens (declaration : Declaration) (i : Nat) :
    declaration.nameIn (tree.mapTokens g) i = declaration.nameIn tree i := by
  have text : ∀ j, (tree.mapTokens g).text j = tree.text j := by
    intro j
    simp only [ParseTree.text, tokens_mapTokens, List.map_map]
    congr 3
    funext token
    exact texts token
  simp only [Declaration.nameIn, findChild?, children_mapTokens, rule?_mapTokens, text]

theorem declareBelow_mapTokens (depth : Nat) (state : Declared) (scope i : Nat) :
    Declared.declareBelow declarations (tree.mapTokens g) depth state scope i =
      Declared.declareBelow declarations tree depth state scope i := by
  have declare : ∀ (state : Declared) scope i,
      Declared.declare declarations (tree.mapTokens g) state scope i =
        Declared.declare declarations tree state scope i := by
    intro state scope i
    simp only [Declared.declare, Declarations.ofNode?, rule?_mapTokens, Declaration.isUnnamed,
      nameIn_mapTokens tree texts]
    rfl
  induction depth generalizing state scope i with
  | zero => rfl
  | succ depth ih => simp only [Declared.declareBelow, declare, children_mapTokens, ih]

/-- The symbols of a tree depend on the texts of its tokens and not on their places. -/
theorem symbolTable_mapTokens :
    (tree.mapTokens g).symbolTable declarations = tree.symbolTable declarations := by
  rw [symbolTable, symbolTable, declared, declared, size_mapTokens,
    declareBelow_mapTokens tree texts]

end Symbols

end ParseTree

end Typeahead
