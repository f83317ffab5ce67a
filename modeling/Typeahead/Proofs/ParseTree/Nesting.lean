import Typeahead.Proofs.Nesting
import Typeahead.Proofs.ParseTree.Attachment

namespace Typeahead

/-!
The links of an arena fit together.  Each node but the root is listed once, by its parent, which is
older; a token that is hung in afterwards gets the last number wherever it is put.  So the way up
from every node ends at the root, and the walk from every node comes once to each below it.
-/

namespace ParseTree

/-- A stretch of an arena whose nodes hold each other, but for the `tops`, which `holder` holds. -/
structure Stretch (arena : ParseTree) (holder : Option Nat) (base stop : Nat) (tops : List Nat) :
    Prop where
  older : ∀ i, base ≤ i → i < stop →
    arena.parent? i = holder ∨ ∃ p, arena.parent? i = some p ∧ base ≤ p ∧ p < i
  listed : ∀ i p, base ≤ p → p < stop → (arena.children p).count i =
    if base ≤ i ∧ i < stop ∧ arena.parent? i = some p then 1 else 0
  tops : ∀ i, tops.count i = if base ≤ i ∧ i < stop ∧ arena.parent? i = holder then 1 else 0

namespace Stretch

variable {arena : ParseTree} {holder : Option Nat} {base middle stop : Nat} {tops later : List Nat}

theorem empty : arena.Stretch holder base base [] := by
  constructor
  · intro i low high
    omega
  · intro i p low high
    omega
  · intro i
    rw [if_neg (by omega)]
    rfl

/-- A node of a stretch is held in front of it or in it. -/
theorem held_cases (stretch : arena.Stretch holder base stop tops) {i p : Nat} (low : base ≤ i)
    (high : i < stop) (held : arena.parent? i = some p) : holder = some p ∨ base ≤ p ∧ p < i := by
  rcases stretch.older i low high with top | ⟨parent, held', bounds⟩
  · exact .inl (top.symm.trans held)
  · obtain rfl := Option.some.inj (held'.symm.trans held)
    exact .inr bounds

theorem append (first : arena.Stretch holder base middle tops)
    (second : arena.Stretch holder middle stop later) (outside : ∀ h, holder = some h → h < base)
    (before : base ≤ middle) (behind : middle ≤ stop) :
    arena.Stretch holder base stop (tops ++ later) := by
  constructor
  · intro i low high
    by_cases early : i < middle
    · exact first.older i low early
    · rcases second.older i (by omega) high with top | ⟨p, held, bounds⟩
      · exact .inl top
      · exact .inr ⟨p, held, by omega, bounds.2⟩
  · intro i p low high
    by_cases early : p < middle
    · rw [first.listed i p low early]
      apply if_congr _ rfl rfl
      constructor
      · intro ⟨low', high', held⟩
        exact ⟨low', by omega, held⟩
      · intro ⟨low', high', held⟩
        have early' : i < middle := by
          by_contra late
          rcases second.held_cases (Nat.le_of_not_lt late) high' held with top | bounds
          · have before' := outside p top
            omega
          · omega
        exact ⟨low', early', held⟩
    · rw [second.listed i p (by omega) high]
      apply if_congr _ rfl rfl
      constructor
      · intro ⟨low', high', held⟩
        exact ⟨by omega, high', held⟩
      · intro ⟨low', high', held⟩
        have late : middle ≤ i := by
          by_contra early'
          rcases first.held_cases low' (Nat.lt_of_not_le early') held with top | bounds
          · have before' := outside p top
            omega
          · omega
        exact ⟨late, high', held⟩
  · intro i
    rw [List.count_append, first.tops, second.tops]
    by_cases early : i < middle
    · simp [early, Nat.not_le_of_lt early, Nat.lt_of_lt_of_le early behind]
    · simp [early, Nat.le_of_not_lt early, Nat.le_trans before (Nat.le_of_not_lt early)]

/-- A node with what it holds. -/
theorem node {found : ParseNode} (stored : arena.node? base = some found)
    (parent : found.parent = holder)
    (below : arena.Stretch (some base) (base + 1) stop found.children)
    (outside : ∀ h, holder = some h → h < base) (room : base < stop) :
    arena.Stretch holder base stop [base] := by
  have top : arena.parent? base = holder := by rw [parent?, stored]; exact parent
  have children : arena.children base = found.children := by rw [ParseTree.children, stored]
  have inside : ∀ i, base < i → i < stop → ∃ p, arena.parent? i = some p ∧ base ≤ p ∧ p < i := by
    intro i low high
    rcases below.older i low high with held | ⟨p, held, bounds⟩
    · exact ⟨base, held, Nat.le_refl _, low⟩
    · exact ⟨p, held, by omega, bounds.2⟩
  constructor
  · intro i low high
    rcases Nat.eq_or_lt_of_le low with rfl | later
    · exact .inl top
    · exact .inr (inside i later high)
  · intro i p low high
    have behind : (base ≤ i ∧ i < stop ∧ arena.parent? i = some p) ↔
        (base + 1 ≤ i ∧ i < stop ∧ arena.parent? i = some p) := by
      constructor
      · intro bounds
        obtain ⟨low', high', held⟩ := bounds
        have other : base ≠ i := by
          intro same
          have before := outside p (by rw [← top, same, held])
          omega
        exact ⟨Nat.lt_of_le_of_ne low' other, high', held⟩
      · intro bounds
        obtain ⟨low', rest⟩ := bounds
        exact ⟨by omega, rest⟩
    rw [if_congr behind rfl rfl]
    rcases Nat.eq_or_lt_of_le low with rfl | later
    · rw [children, below.tops]
    · exact below.listed i p later high
  · intro i
    rw [List.count_singleton]
    by_cases same : base = i
    · subst same
      simp [top, room]
    · have other : ¬ (base ≤ i ∧ i < stop ∧ arena.parent? i = holder) := by
        intro bounds
        obtain ⟨low, high, held⟩ := bounds
        obtain ⟨p, held', bounds⟩ := inside i (by omega) high
        have before := outside p (by rw [← held, held'])
        omega
      simp [same, other]

/-- A stretch that no node holds is a whole arena. -/
theorem nesting (stretch : arena.Stretch none 0 arena.size [0]) :
    Nesting arena.size arena.parent? arena.children := by
  have known : ∀ i, arena.parent? i ≠ none → i < arena.size := by
    intro i held
    by_contra outside
    have unknown : arena.node? i = none := Array.getElem?_eq_none (Nat.le_of_not_lt outside)
    rw [parent?, unknown] at held
    exact held rfl
  have older : ∀ i p, arena.parent? i = some p → p < i := by
    intro i p held
    rcases stretch.held_cases (Nat.zero_le i) (known i (by simp [held])) held with top | bounds
    · cases top
    · exact bounds.2
  constructor
  · intro i
    have top := stretch.tops i
    rw [List.count_singleton] at top
    constructor
    · intro held
      rw [Option.isSome_iff_ne_none] at held
      constructor
      · apply Nat.pos_of_ne_zero
        intro first
        subst first
        simp [held] at top
      · exact known i held
    · intro ⟨low, high⟩
      rw [Option.isSome_iff_ne_none]
      intro unheld
      simp [Nat.ne_of_lt low, high, unheld] at top
  · exact older
  · intro i p
    by_cases inside : p < arena.size
    · rw [stretch.listed i p (Nat.zero_le p) inside]
      apply if_congr _ rfl rfl
      constructor
      · exact fun listed => listed.2.2
      · exact fun held => ⟨Nat.zero_le i, known i (by simp [held]), held⟩
    · have unknown : arena.node? p = none := Array.getElem?_eq_none (Nat.le_of_not_lt inside)
      have unheld : arena.parent? i ≠ some p := by
        intro held
        have low := older i p held
        have high := known i (by simp [held])
        omega
      simp [children, unknown, unheld]

end Stretch

end ParseTree

namespace SyntaxTree

variable (tokenOf : Leaf → Token)

section

variable (arena : ParseTree)

mutual

/-- The nodes of a tree are a stretch of an arena that has them from `base` on. -/
theorem stretch_nodes (parent : Option Nat) (base : Nat) : (tree : SyntaxTree) →
    (before after : List ParseNode) →
    arena.nodes.toList = before ++ (tree.nodes tokenOf parent base ++ after) →
    before.length = base → (∀ h, parent = some h → h < base) →
    arena.Stretch parent base (base + tree.size) [base]
  | .leaf terminal, before, after, stored, counted, outside => by
      have found : arena.node? base = some { parent, label := .token (tokenOf terminal) } := by
        rw [ParseTree.node?, ← Array.getElem?_toList, stored, ← counted]
        simp [nodes]
      exact .node found rfl .empty outside (Nat.lt_succ_self base)
  | .node rule children, before, after, stored, counted, outside => by
      have found : arena.node? base =
          some { parent, label := .rule rule, children := places (base + 1) children } := by
        rw [ParseTree.node?, ← Array.getElem?_toList, stored, ← counted]
        simp [nodes]
      have below := stretch_childNodes base (base + 1) children
        (before ++ [{ parent, label := .rule rule, children := places (base + 1) children }])
        after (by simp [stored, nodes]) (by simp [counted]) (Nat.lt_succ_self base)
      rw [Nat.add_right_comm, Nat.add_assoc] at below
      exact .node found rfl below outside (by simp [size])

theorem stretch_childNodes (parent base : Nat) : (children : List SyntaxTree) →
    (before after : List ParseNode) →
    arena.nodes.toList = before ++ (childNodes tokenOf parent base children ++ after) →
    before.length = base → parent < base →
    arena.Stretch (some parent) base (base + sizes children) (places base children)
  | [], _, _, _, _, _ => .empty
  | first :: rest, before, after, stored, counted, outside => by
      rw [childNodes] at stored
      have outside' : ∀ h, some parent = some h → h < base := by
        intro h same
        exact Option.some.inj same ▸ outside
      have front := stretch_nodes (some parent) base first before
        (childNodes tokenOf parent (base + first.size) rest ++ after) (by simp [stored]) counted
        outside'
      have back := stretch_childNodes parent (base + first.size) rest
        (before ++ first.nodes tokenOf (some parent) base) after (by simp [stored])
        (by simp [counted, length_nodes]) (by omega)
      rw [Nat.add_assoc] at back
      rw [← sizes] at back
      exact front.append back outside' (by omega) (by rw [sizes]; omega)

end

end

/-- The arena of a tree alone. -/
def arena (tree : SyntaxTree) : ParseTree := ⟨(tree.nodes tokenOf none 0).toArray⟩

theorem size_arena (tree : SyntaxTree) : (tree.arena tokenOf).size = tree.size := by
  rw [arena, ParseTree.size, List.size_toArray, length_nodes]

theorem size_arena_pos (tree : SyntaxTree) : 0 < (tree.arena tokenOf).size := by
  rw [size_arena]
  cases tree with
  | leaf terminal => exact Nat.one_pos
  | node rule children => exact Nat.succ_pos _

theorem nesting_arena (tree : SyntaxTree) : Nesting (tree.arena tokenOf).size
    (tree.arena tokenOf).parent? (tree.arena tokenOf).children := by
  apply ParseTree.Stretch.nesting
  have stretch := stretch_nodes tokenOf (tree.arena tokenOf) none 0 tree [] []
    (by simp [arena]) rfl (by simp)
  rw [Nat.zero_add, ← size_arena tokenOf] at stretch
  exact stretch

end SyntaxTree

namespace ParseTree

section Insert

variable {tree : ParseTree} {parent slot i : Nat} (token : Token)

/-- Only the node above a new one changes. -/
theorem node?_insertToken_other (other : i ≠ parent) (old : i ≠ tree.size) :
    (tree.insertToken parent slot token).node? i = tree.node? i := by
  have old' : i ≠ tree.nodes.size := old
  simp [insertToken, node?, Array.getElem?_push, Array.getElem?_modify, Ne.symm other, old']

variable (known : parent < tree.size)

include known

theorem parent?_insertToken (i : Nat) : (tree.insertToken parent slot token).parent? i =
    if i = tree.size then some parent else tree.parent? i := by
  split
  · next new => rw [new, parent?, node?_insertToken_size, Option.bind_some]
  · next old =>
      by_cases same : i = parent
      · have found : tree.node? parent = some tree.nodes[parent] := Array.getElem?_eq_getElem known
        rw [same, parent?, node?_insertToken_parent found, parent?, found]
        rfl
      · rw [parent?, node?_insertToken_other token same old, parent?]

theorem children_insertToken (i : Nat) : (tree.insertToken parent slot token).children i =
    if i = parent then (tree.children i).insertIdx slot tree.size else tree.children i := by
  split
  · next same =>
      have found : tree.node? parent = some tree.nodes[parent] := Array.getElem?_eq_getElem known
      simp only [same, children, node?_insertToken_parent found, found]
  · next other =>
      by_cases new : i = tree.size
      · have unknown : tree.node? tree.size = none := Array.getElem?_eq_none (Nat.le_refl _)
        simp only [new, children, node?_insertToken_size, unknown]
      · rw [children, node?_insertToken_other token other new, children]

/-- A token may be hung in anywhere. -/
theorem nesting_insertToken (nesting : Nesting tree.size tree.parent? tree.children)
    (room : slot ≤ (tree.children parent).length) :
    Nesting (tree.insertToken parent slot token).size
      (tree.insertToken parent slot token).parent?
      (tree.insertToken parent slot token).children := by
  rw [size_insertToken]
  apply nesting.extend known (parent?_insertToken token known)
  intro i
  rw [children_insertToken token known]
  split
  · next same => exact List.perm_insertIdx _ _ (same ▸ room)
  · exact .refl _

end Insert

variable {tree : ParseTree}

theorem deepestSpanning_lt_size (nesting : Nesting tree.size tree.parent? tree.children)
    (index : Int) (depth : Nat) {i : Nat} (known : i < tree.size) :
    tree.deepestSpanning index depth i < tree.size := by
  induction depth generalizing i with
  | zero => exact known
  | succ depth ih =>
      rw [deepestSpanning]
      split
      · next child found =>
          have held := nesting.mem_children.1 (List.mem_of_find?_eq_some found)
          exact ih ((nesting.parents child).1 (Option.isSome_of_eq_some held)).2
      · exact known

theorem nesting_attach (nesting : Nesting tree.size tree.parent? tree.children)
    (rooted : 0 < tree.size) (token : Token) :
    Nesting (tree.attach token).size (tree.attach token).parent? (tree.attach token).children := by
  cases placed : token.index with
  | none => simpa only [attach, placed] using nesting
  | some index =>
      rw [attach_eq_insertToken placed]
      exact nesting_insertToken token (deepestSpanning_lt_size nesting index _ rooted) nesting
        (slotFor_le tree index _)

theorem size_insertToken_pos (tree : ParseTree) (parent slot : Nat) (token : Token) :
    0 < (tree.insertToken parent slot token).size := by
  rw [size_insertToken]
  exact Nat.succ_pos _

theorem le_size_attach (tree : ParseTree) (token : Token) :
    tree.size ≤ (tree.attach token).size := by
  rw [attach]
  cases token.index with
  | none => exact Nat.le_refl _
  | some index =>
      rw [size_insertToken]
      exact Nat.le_succ _

theorem nesting_foldl_attach (skipped : List Token) (rooted : 0 < tree.size)
    (nesting : Nesting tree.size tree.parent? tree.children) :
    Nesting (skipped.foldl attach tree).size (skipped.foldl attach tree).parent?
      (skipped.foldl attach tree).children := by
  induction skipped generalizing tree with
  | nil => exact nesting
  | cons token rest ih =>
      exact ih (Nat.lt_of_lt_of_le rooted (le_size_attach tree token))
        (nesting_attach nesting rooted token)

theorem le_size_foldl_attach (skipped : List Token) (tree : ParseTree) :
    tree.size ≤ (skipped.foldl attach tree).size := by
  induction skipped generalizing tree with
  | nil => exact Nat.le_refl _
  | cons token rest ih => exact Nat.le_trans (le_size_attach tree token) (ih _)

/-- The links of an arena, whose nodes are their own numbers, fit together, and so do the ways along
them. -/
structure WellLinked (tree : ParseTree) : Prop where
  rooted : 0 < tree.size
  nesting : Nesting tree.size tree.parent? tree.children
  /-- The way up leads from a node to its parent, from that to the next, and to the root. -/
  upward : ∀ i, i < tree.size → (tree.ancestors i).head? = some i ∧
    (tree.ancestors i).getLast? = some 0 ∧
    (tree.ancestors i).IsChain fun child parent => tree.parent? child = some parent
  /-- The walk comes to the nodes that have its first one above them, or are it. -/
  reaches : ∀ i, i < tree.size → ∀ j, j ∈ tree.walk i ↔ j < tree.size ∧ i ∈ tree.ancestors j
  once : ∀ i, (tree.walk i).Nodup
  downward : ∀ i, (tree.walk i).Pairwise fun first later => later ∉ tree.ancestors first
  complete : (tree.walk 0).Perm (List.range tree.size)
  /-- Neither way goes on when it may go further. -/
  ends : ∀ i, i < tree.size → ∀ more, tree.ancestorsUpTo (tree.size + more) i = tree.ancestors i ∧
    tree.walkUpTo (tree.size + more) i = tree.walk i
  /-- A stack on which each node leaves its children comes to the nodes in the order of the walk. -/
  stacked : ∀ i, i < tree.size → ∀ steps, tree.size ≤ steps →
    unstack tree.children steps [i] = tree.walk i

theorem walkUpTo_succ (tree : ParseTree) (depth i : Nat) :
    tree.walkUpTo (depth + 1) i = i :: nestedUpTo tree.children depth i := by
  induction depth generalizing i with
  | zero => simp [walkUpTo, nestedUpTo]
  | succ depth ih =>
      rw [walkUpTo, nestedUpTo]
      simp only [← ih]

theorem ancestorsUpTo_succ (tree : ParseTree) (fuel i : Nat) :
    tree.ancestorsUpTo (fuel + 1) i = i :: enclosingUpTo tree.parent? fuel i := by
  induction fuel generalizing i with
  | zero => cases held : tree.parent? i <;> simp [ancestorsUpTo, enclosingUpTo, held]
  | succ fuel ih =>
      rw [ancestorsUpTo, enclosingUpTo]
      cases tree.parent? i with
      | none => rfl
      | some parent => simp only [← ih]

theorem encloses_of_mem_ancestors {i j : Nat} (above : i ∈ tree.ancestors j) :
    i = j ∨ Encloses tree.parent? i j := by
  rw [ancestors] at above
  cases counted : tree.size with
  | zero =>
      rw [counted] at above
      cases above
  | succ last =>
      rw [counted, ancestorsUpTo_succ, List.mem_cons] at above
      exact above.imp_right .of_mem_enclosingUpTo

section Ways

variable (nesting : Nesting tree.size tree.parent? tree.children) {i j : Nat}

include nesting

theorem mem_ancestors_iff_encloses (known : j < tree.size) :
    i ∈ tree.ancestors j ↔ i = j ∨ Encloses tree.parent? i j := by
  obtain ⟨last, counted⟩ := Nat.exists_eq_add_of_lt (Nat.zero_lt_of_lt known)
  rw [ancestors, counted, Nat.zero_add, ancestorsUpTo_succ, List.mem_cons,
    nesting.mem_enclosingUpTo_iff (by omega)]

theorem mem_walk_iff_encloses (known : i < tree.size) :
    j ∈ tree.walk i ↔ j = i ∨ Encloses tree.parent? i j := by
  obtain ⟨last, counted⟩ := Nat.exists_eq_add_of_lt (Nat.zero_lt_of_lt known)
  rw [walk, counted, Nat.zero_add, walkUpTo_succ, List.mem_cons,
    nesting.mem_nestedUpTo_iff (by omega)]

theorem pairwise_walk (i : Nat) : (tree.walk i).Pairwise fun first later =>
    first ≠ later ∧ ¬ Encloses tree.parent? later first := by
  rw [walk]
  cases tree.size with
  | zero => exact .nil
  | succ last =>
      rw [walkUpTo_succ]
      exact .cons (fun _ below => nesting.asymm (nesting.encloses_of_mem_nestedUpTo below))
        (nesting.pairwise_nestedUpTo last i)

theorem nodup_walk_of_nesting (i : Nat) : (tree.walk i).Nodup :=
  (pairwise_walk nesting i).imp And.left

theorem mem_walk_iff_mem_ancestors (known : i < tree.size) :
    j ∈ tree.walk i ↔ j < tree.size ∧ i ∈ tree.ancestors j := by
  rw [mem_walk_iff_encloses nesting known]
  constructor
  · intro below
    have inside : j < tree.size := by
      rcases below with rfl | below
      · exact known
      · exact nesting.lt_size_of_encloses below
    rw [mem_ancestors_iff_encloses nesting inside, eq_comm]
    exact ⟨inside, below⟩
  · intro ⟨inside, above⟩
    rw [mem_ancestors_iff_encloses nesting inside, eq_comm] at above
    exact above

theorem walk_root_perm (rooted : 0 < tree.size) : (tree.walk 0).Perm (List.range tree.size) := by
  rw [List.perm_ext_iff_of_nodup (nodup_walk_of_nesting nesting 0) List.nodup_range]
  intro j
  rw [mem_walk_iff_mem_ancestors nesting rooted, List.mem_range]
  constructor
  · exact And.left
  · intro inside
    rw [mem_ancestors_iff_encloses nesting inside]
    by_cases first : j = 0
    · exact ⟨inside, .inl first.symm⟩
    · exact ⟨inside, .inr (nesting.encloses_first inside first)⟩

theorem walkUpTo_eq_walk (known : i < tree.size) (more : Nat) :
    tree.walkUpTo (tree.size + more) i = tree.walk i := by
  obtain ⟨last, counted⟩ := Nat.exists_eq_add_of_lt (Nat.zero_lt_of_lt known)
  rw [walk, counted, Nat.zero_add, Nat.add_right_comm, walkUpTo_succ, walkUpTo_succ,
    nesting.nestedUpTo_add (by omega)]

theorem length_walk_le (known : i < tree.size) : (tree.walk i).length ≤ tree.size := by
  have inside : tree.walk i ⊆ List.range tree.size := by
    intro j reached
    exact List.mem_range.2 ((mem_walk_iff_mem_ancestors nesting known).1 reached).1
  simpa using (List.subperm_of_subset (nodup_walk_of_nesting nesting i) inside).length_le

/-- The walk comes to the nodes in the order in which a stack gives them up. -/
theorem unstack_children_eq_walk (known : i < tree.size) {steps : Nat}
    (enough : tree.size ≤ steps) : unstack tree.children steps [i] = tree.walk i := by
  have whole := walkUpTo_eq_walk nesting known 1
  rw [walkUpTo_succ] at whole
  rw [nesting.unstack_eq_take, List.flatMap_singleton, whole]
  exact List.take_of_length_le (Nat.le_trans (length_walk_le nesting known) enough)

theorem wellLinked (rooted : 0 < tree.size) : tree.WellLinked := by
  obtain ⟨last, counted⟩ := Nat.exists_eq_add_of_lt rooted
  rw [Nat.zero_add] at counted
  constructor
  · exact rooted
  · exact nesting
  · intro i known
    rw [ancestors, counted, ancestorsUpTo_succ]
    constructor
    · rfl
    constructor
    · exact nesting.getLast?_enclosingUpTo known (by omega)
    · exact isChain_enclosingUpTo tree.parent? last i
  · exact fun i known j => mem_walk_iff_mem_ancestors nesting known
  · exact nodup_walk_of_nesting nesting
  · intro i
    apply (pairwise_walk nesting i).imp
    intro first later apart above
    rcases encloses_of_mem_ancestors above with same | around
    · exact apart.1 same.symm
    · exact apart.2 around
  · exact walk_root_perm nesting rooted
  · intro i known more
    refine ⟨?_, walkUpTo_eq_walk nesting known more⟩
    rw [ancestors, counted, Nat.add_right_comm, ancestorsUpTo_succ, ancestorsUpTo_succ,
      nesting.enclosingUpTo_add (by omega)]
  · exact fun i known steps => unstack_children_eq_walk nesting known

end Ways

theorem wellLinked_ofLeaves (tokenOf : Leaf → Token) (eof : Token) (skipped : List Token)
    (syntaxTree : SyntaxTree) : (ofLeaves tokenOf eof skipped syntaxTree).WellLinked := by
  have rooted := syntaxTree.size_arena_pos tokenOf
  have closed := nesting_insertToken eof rooted (syntaxTree.nesting_arena _) (Nat.le_refl _)
  have ended := size_insertToken_pos (syntaxTree.arena tokenOf) 0
    ((syntaxTree.arena tokenOf).children 0).length eof
  exact wellLinked (nesting_foldl_attach skipped ended closed)
    (Nat.lt_of_lt_of_le ended (le_size_foldl_attach skipped _))

/-- Whatever the parser built, took and passed over, the arena of it is one tree. -/
theorem wellLinked_ofSyntaxTree (stream : TokenStream) (vocabulary : Vocabulary)
    (terminalOf : Leaf → Terminal) (positions : List ((Int × String) × Nat))
    (skipped : List Token) (syntaxTree : SyntaxTree) :
    (ofSyntaxTree stream vocabulary terminalOf positions skipped syntaxTree).WellLinked :=
  wellLinked_ofLeaves _ stream.eof skipped syntaxTree

end ParseTree

end Typeahead
