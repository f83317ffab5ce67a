import Mathlib.Logic.Equiv.Basic
import Typeahead.Proofs.ParseTree.Hanging

namespace Typeahead

/-!
Tokens hung in in another order.  The place of a token does not depend on tokens hung in before it,
so two neighbours may change places, and only the numbers of the new nodes differ.
-/

namespace ParseTree

/-- `other` has the nodes of `tree` under the numbers that `number` gives them. -/
structure Renumbers (number : Equiv.Perm Nat) (tree other : ParseTree) : Prop where
  size : other.size = tree.size
  labels : ∀ i, other.label? (number i) = tree.label? i
  parents : ∀ i, other.parent? (number i) = (tree.parent? i).map number
  children : ∀ i, other.children (number i) = (tree.children i).map number

variable {tree other : ParseTree} {number : Equiv.Perm Nat} {token : Token} {index : Int}
  {parent slot i : Nat}

namespace Renumbers

theorem refl (tree : ParseTree) : Renumbers (.refl Nat) tree tree := by
  refine ⟨rfl, fun _ => rfl, fun i => ?_, fun i => ?_⟩
  · simp
  · simp

theorem trans {last : ParseTree} {number' : Equiv.Perm Nat} (first : Renumbers number tree other)
    (second : Renumbers number' other last) : Renumbers (number.trans number') tree last where
  size := second.size.trans first.size
  labels := fun i => (second.labels (number i)).trans (first.labels i)
  parents := by
    intro i
    rw [Equiv.trans_apply, second.parents, first.parents, Option.map_map]
    rfl
  children := by
    intro i
    rw [Equiv.trans_apply, second.children, first.children, List.map_map]
    rfl

section

variable (renumbers : Renumbers number tree other)

include renumbers

theorem walkUpTo_eq (depth i : Nat) :
    other.walkUpTo depth (number i) = (tree.walkUpTo depth i).map number := by
  induction depth generalizing i with
  | zero => rfl
  | succ depth ih =>
      rw [walkUpTo, walkUpTo, renumbers.children, List.flatMap_map, List.map_cons,
        List.map_flatMap]
      simp only [ih]

theorem tokens_eq (i : Nat) : other.tokens (number i) = tree.tokens i := by
  rw [tokens, walk, renumbers.size, renumbers.walkUpTo_eq, List.filterMap_map, tokens, walk]
  apply List.filterMap_congr
  intro j _
  exact token?_congr (renumbers.labels j)

theorem indexRange?_eq (i : Nat) : other.indexRange? (number i) = tree.indexRange? i := by
  rw [indexRange?, indexRange?, tokenRange?, tokenRange?, renumbers.tokens_eq]

theorem firstIndex?_eq (i : Nat) : other.firstIndex? (number i) = tree.firstIndex? i := by
  rw [firstIndex?, firstIndex?, renumbers.indexRange?_eq]

theorem spans_eq (index : Int) (i : Nat) : other.spans index (number i) = tree.spans index i := by
  rw [spans, spans, renumbers.indexRange?_eq, token?_congr (renumbers.labels i)]

theorem deepestSpanning_eq (index : Int) (depth i : Nat) :
    other.deepestSpanning index depth (number i) = number (tree.deepestSpanning index depth i) := by
  induction depth generalizing i with
  | zero => rfl
  | succ depth ih =>
      have same : other.spans index ∘ number = tree.spans index :=
        funext (renumbers.spans_eq index)
      rw [deepestSpanning, deepestSpanning, renumbers.children, List.find?_map, same]
      cases (tree.children i).find? (tree.spans index) with
      | none => rfl
      | some child => exact ih child

theorem slotFor_eq (index : Int) (i : Nat) :
    other.slotFor index (number i) = tree.slotFor index i := by
  rw [slotFor, slotFor, renumbers.children, List.findIdx?_map, List.length_map]
  have same : (fun child => (other.firstIndex? child).any (index < ·)) ∘ number =
      fun child => (tree.firstIndex? child).any (index < ·) :=
    funext fun child => congrArg (Option.any _) (renumbers.firstIndex?_eq child)
  rw [same]

theorem lt_size_iff (i : Nat) : number i < other.size ↔ i < tree.size := by
  rw [← isSome_label?, ← isSome_label?, renumbers.labels]

theorem insertToken (known : parent < tree.size) (fixed : number tree.size = tree.size) :
    Renumbers number (tree.insertToken parent slot token)
      (other.insertToken (number parent) slot token) := by
  have known' := (renumbers.lt_size_iff parent).2 known
  have new : ∀ i, number i = tree.size ↔ i = tree.size :=
    fun i => ⟨fun same => number.injective (same.trans fixed.symm), fun same => same ▸ fixed⟩
  constructor
  · rw [size_insertToken, size_insertToken, renumbers.size]
  · intro i
    rw [label?_insertToken token known, label?_insertToken token known', renumbers.labels,
      renumbers.size, if_congr (new i) rfl rfl]
  · intro i
    rw [parent?_insertToken token known, parent?_insertToken token known', renumbers.parents,
      renumbers.size, if_congr (new i) rfl rfl]
    split <;> rfl
  · intro i
    rw [children_insertToken token known, children_insertToken token known', renumbers.children,
      renumbers.size, if_congr number.injective.eq_iff rfl rfl]
    split
    · rw [List.map_insertIdx, fixed]
    · rfl

variable (root : number 0 = 0)

include root

theorem attach (nesting : Nesting tree.size tree.parent? tree.children) (rooted : 0 < tree.size)
    (fixed : number tree.size = tree.size) :
    Renumbers number (tree.attach token) (other.attach token) := by
  cases placed : token.index with
  | none => simpa only [ParseTree.attach, placed] using renumbers
  | some index =>
      have holder : other.holderFor index = number (tree.holderFor index) := by
        rw [holderFor, renumbers.size]
        exact root ▸ renumbers.deepestSpanning_eq index tree.size 0
      rw [attach_eq_insertToken placed, attach_eq_insertToken placed, holder,
        renumbers.slotFor_eq]
      exact renumbers.insertToken (deepestSpanning_lt_size nesting index tree.size rooted) fixed

theorem foldl_attach (tokens : List Token) (nesting : Nesting tree.size tree.parent? tree.children)
    (rooted : 0 < tree.size) (fixed : ∀ i, tree.size ≤ i → number i = i) :
    Renumbers number (tokens.foldl ParseTree.attach tree)
      (tokens.foldl ParseTree.attach other) := by
  induction tokens generalizing tree other with
  | nil => exact renumbers
  | cons token rest ih =>
      have larger := le_size_attach tree token
      apply ih (renumbers.attach root nesting rooted (fixed _ (Nat.le_refl _)))
        (nesting_attach nesting rooted token) (Nat.lt_of_lt_of_le rooted larger)
      exact fun i known => fixed i (Nat.le_trans larger known)

end

end Renumbers

/-- A row with `new` in front of the first that comes later. -/
def hangIn (later : Nat → Bool) (new : Nat) : List Nat → List Nat
  | [] => [new]
  | child :: rest => if later child then new :: child :: rest else child :: hangIn later new rest

section Row

variable {later later' : Nat → Bool} {new new' : Nat} {row : List Nat}

theorem insertIdx_findIdx? (later : Nat → Bool) (new : Nat) (row : List Nat) :
    row.insertIdx ((row.findIdx? later).getD row.length) new = hangIn later new row := by
  induction row with
  | nil => rfl
  | cons child rest ih =>
      rw [hangIn, List.findIdx?_cons]
      by_cases behind : later child = true
      · simp [behind]
      · rw [if_neg behind, if_neg behind, ← ih]
        cases rest.findIdx? later <;> simp

theorem hangIn_congr (same : ∀ child ∈ row, later child = later' child) :
    hangIn later new row = hangIn later' new row := by
  induction row with
  | nil => rfl
  | cons child rest ih =>
      rw [hangIn, hangIn, same child List.mem_cons_self,
        ih fun other member => same other (List.mem_cons_of_mem child member)]

theorem map_hangIn (number : Nat → Nat) (same : ∀ child, later (number child) = later child) :
    (hangIn later new row).map number = hangIn later (number new) (row.map number) := by
  induction row with
  | nil => rfl
  | cons child rest ih =>
      rw [List.map_cons, hangIn, hangIn, same]
      split
      · rfl
      · rw [List.map_cons, ih]

theorem hangIn_comm (front : later new' = true) (back : later' new = false)
    (wider : ∀ child, later' child = true → later child = true) :
    hangIn later new (hangIn later' new' row) = hangIn later' new' (hangIn later new row) := by
  induction row with
  | nil => simp [hangIn, front, back]
  | cons child rest ih =>
      by_cases behind : later' child = true
      · simp [hangIn, front, back, behind, wider child behind]
      · by_cases behind' : later child = true
        · simp [hangIn, back, behind, behind']
        · simp [hangIn, behind, behind', ih]

end Row

/-- Whether a child comes later than `index`, where a child that is new to the tree has a token at
`other`. -/
def comesLater (tree : ParseTree) (index other : Int) (child : Nat) : Bool :=
  if child < tree.size then (tree.firstIndex? child).any (index < ·) else index < other

/-- The children of node `i`, with `new` among them where it is the one that a token goes under. -/
def rowWith (tree : ParseTree) (index other : Int) (new i : Nat) (row : List Nat) : List Nat :=
  if i = tree.holderFor index then hangIn (tree.comesLater index other) new row else row

theorem tokens_of_childless (found : tree.token? i = some token)
    (childless : tree.children i = []) : tree.tokens i = [token] := by
  have known : i < tree.size := by
    by_contra outside
    have unknown : tree.node? i = none := Array.getElem?_eq_none (Nat.le_of_not_lt outside)
    simp [token?, unknown] at found
  obtain ⟨last, counted⟩ := Nat.exists_eq_add_of_lt (Nat.zero_lt_of_lt known)
  simp [tokens, walk, counted, walkUpTo, childless, found]

theorem firstIndex?_of_childless (found : tree.token? i = some token)
    (childless : tree.children i = []) (placed : token.index = some index) :
    tree.firstIndex? i = some index := by
  simp [firstIndex?, indexRange?, tokenRange?, tokens_of_childless found childless,
    Token.conjured, placed]

theorem label?_of_size_le (outside : tree.size ≤ i) : tree.label? i = none := by
  have unknown : tree.node? i = none := Array.getElem?_eq_none outside
  rw [label?, unknown, Option.map_none]

theorem parent?_of_size_le (outside : tree.size ≤ i) : tree.parent? i = none := by
  have unknown : tree.node? i = none := Array.getElem?_eq_none outside
  rw [parent?, unknown, Option.bind_none]

theorem children_of_size_le (outside : tree.size ≤ i) : tree.children i = [] := by
  have unknown : tree.node? i = none := Array.getElem?_eq_none outside
  rw [children, unknown]

section Two

variable {eof first second : Token} {index' : Int} (inOrder : tree.InOrder eof)
  (missing : Missing tree eof [first, second]) (placed : first.index = some index)
  (placed' : second.index = some index')

include inOrder

theorem rowWith_of_size_le {other : Int} {new : Nat} {row : List Nat} (outside : tree.size ≤ i) :
    tree.rowWith index other new i row = row := by
  have known := (inOrder.deepest_holderFor index).known
  rw [rowWith, if_neg (by omega)]

include placed in
theorem children_attach (other : Int) (i : Nat) : (tree.attach first).children i =
    tree.rowWith index other tree.size i (tree.children i) := by
  have known := (inOrder.deepest_holderFor index).known
  rw [attach_eq_insertToken placed, children_insertToken first known, rowWith]
  split
  · next same =>
      rw [← same, slotFor, insertIdx_findIdx?]
      apply hangIn_congr
      intro child listed
      rw [comesLater, if_pos (inOrder.nesting.bounds_of_mem_children listed).2]
  · rfl

include missing placed in
/-- A second token meets the first one among the children. -/
theorem comesLater_attach {child : Nat} (listed : child ∈ (tree.attach first).children i) :
    (tree.attach first).comesLater index' index child = tree.comesLater index' index child := by
  obtain ⟨hung, -⟩ := missing.hung_attach inOrder
  have size : (tree.attach first).size = tree.size + 1 := hung.size
  obtain ⟨low, high⟩ := hung.inOrder.nesting.bounds_of_mem_children listed
  rw [comesLater, if_pos high, comesLater]
  split
  · next old => rw [firstIndex?, firstIndex?, indexRange?, indexRange?, hung.ranges child low old]
  · next new =>
      obtain rfl : child = tree.size := by omega
      have childless : (tree.attach first).children tree.size = [] := by
        rw [children_attach inOrder placed index, rowWith_of_size_le inOrder (Nat.le_refl _),
          children_of_size_le (Nat.le_refl _)]
      have found : (tree.attach first).token? tree.size = some first := hung.token?_eq (k := 0) rfl
      rw [firstIndex?_of_childless found childless placed, Option.any_some]

include missing placed placed'

theorem children_attach_attach (i : Nat) : ((tree.attach first).attach second).children i =
    tree.rowWith index' index (tree.size + 1) i
      (tree.rowWith index index' tree.size i (tree.children i)) := by
  obtain ⟨hung, -⟩ := missing.hung_attach inOrder
  have size : (tree.attach first).size = tree.size + 1 := hung.size
  rw [children_attach hung.inOrder placed' index, ← children_attach inOrder placed index', rowWith,
    rowWith, hung.holderFor_eq inOrder, size]
  split
  · exact hangIn_congr fun child listed => comesLater_attach inOrder missing placed listed
  · rfl

end Two

section Rows

variable {other new new' : Nat} {index' : Int} {row : List Nat}

theorem hangIn_comesLater_comm (less : index < index') (fresh : tree.size ≤ new)
    (fresh' : tree.size ≤ new') :
    hangIn (tree.comesLater index index') new (hangIn (tree.comesLater index' index) new' row) =
      hangIn (tree.comesLater index' index) new'
        (hangIn (tree.comesLater index index') new row) := by
  have front : ∀ child, tree.size ≤ child → tree.comesLater index index' child = true ∧
      tree.comesLater index' index child = false := by
    intro child outside
    rw [comesLater, comesLater, if_neg (by omega), if_neg (by omega)]
    exact ⟨decide_eq_true less, decide_eq_false (by omega)⟩
  apply hangIn_comm (front new' fresh').1 (front new fresh).2
  intro child behind
  rcases Nat.lt_or_ge child tree.size with old | outside
  · rw [comesLater, if_pos old] at behind ⊢
    cases found : tree.firstIndex? child with
    | none => simp [found] at behind
    | some least =>
        simp only [found, Option.any_some, decide_eq_true_eq] at behind ⊢
        omega
  · exact (front child outside).1

/-- It makes no difference which of two tokens is hung in first. -/
theorem rowWith_comm (different : index ≠ index') (fresh : tree.size ≤ new)
    (fresh' : tree.size ≤ new') :
    tree.rowWith index index' new i (tree.rowWith index' index new' i row) =
      tree.rowWith index' index new' i (tree.rowWith index index' new i row) := by
  simp only [rowWith]
  split
  · split
    · rcases Int.lt_or_gt_of_ne different with less | greater
      · exact hangIn_comesLater_comm less fresh fresh'
      · exact (hangIn_comesLater_comm greater fresh' fresh).symm
    · rfl
  · rfl

theorem map_rowWith (index index' : Int) (fixed : ∀ child, child < tree.size → number child = child)
    (outside : ∀ child, tree.size ≤ child → tree.size ≤ number child) :
    (tree.rowWith index index' new i row).map number =
      tree.rowWith index index' (number new) i (row.map number) := by
  rw [rowWith, rowWith]
  split
  · apply map_hangIn
    intro child
    rcases Nat.lt_or_ge child tree.size with old | behind
    · rw [fixed child old]
    · have behind' := outside child behind
      rw [comesLater, comesLater, if_neg (by omega), if_neg (by omega)]
  · rfl

end Rows

/-- Two neighbouring numbers are exchanged. -/
theorem swap_cases {P : Nat → Nat → Prop} {size : Nat} (old : ∀ i, i < size → P i i)
    (first : P size (size + 1)) (second : P (size + 1) size)
    (beyond : ∀ i, size + 2 ≤ i → P i i) (i : Nat) : P i (Equiv.swap size (size + 1) i) := by
  by_cases here : i = size
  · rw [here, Equiv.swap_apply_left]
    exact first
  · by_cases beside : i = size + 1
    · rw [beside, Equiv.swap_apply_right]
      exact second
    · rw [Equiv.swap_apply_of_ne_of_ne here beside]
      rcases Nat.lt_or_ge i size with inside | outside
      · exact old i inside
      · exact beyond i (by omega)

theorem swap_of_lt {size : Nat} (known : i < size) : Equiv.swap size (size + 1) i = i :=
  Equiv.swap_apply_of_ne_of_ne (by omega) (by omega)

theorem le_swap {size : Nat} (i : Nat) : size ≤ i → size ≤ Equiv.swap size (size + 1) i := by
  apply swap_cases (P := fun i j => size ≤ i → size ≤ j)
  all_goals omega

section Swap

variable {eof first second : Token} {index' : Int} (inOrder : tree.InOrder eof)
  (missing : Missing tree eof [first, second]) (placed : first.index = some index)
  (placed' : second.index = some index')

include inOrder missing placed placed'

theorem parent?_swap (i : Nat) :
    ((tree.attach second).attach first).parent? (Equiv.swap tree.size (tree.size + 1) i) =
      (((tree.attach first).attach second).parent? i).map
        (Equiv.swap tree.size (tree.size + 1)) := by
  have hung : Hung tree eof [first, second] ((tree.attach first).attach second) :=
    inOrder.hung_foldl_attach missing
  have hung' : Hung tree eof [second, first] ((tree.attach second).attach first) :=
    inOrder.hung_foldl_attach (missing.perm (.swap first second []))
  have fixed : ∀ index, Equiv.swap tree.size (tree.size + 1) (tree.holderFor index) =
      tree.holderFor index := fun index => swap_of_lt (inOrder.deepest_holderFor index).known
  apply swap_cases (P := fun i j => ((tree.attach second).attach first).parent? j =
    (((tree.attach first).attach second).parent? i).map (Equiv.swap tree.size (tree.size + 1)))
  · intro i known
    rw [hung'.parents i known, hung.parents i known]
    cases held : tree.parent? i with
    | none => rfl
    | some holder =>
        have older := inOrder.nesting.older i holder held
        rw [Option.map_some, swap_of_lt (Nat.lt_trans older known)]
  · have new := hung.parent?_eq inOrder (k := 0) rfl placed
    rw [Nat.add_zero] at new
    rw [new, hung'.parent?_eq inOrder rfl placed, Option.map_some, fixed]
  · have new := hung'.parent?_eq inOrder (k := 0) rfl placed'
    rw [Nat.add_zero] at new
    rw [new, hung.parent?_eq inOrder rfl placed', Option.map_some, fixed]
  · intro i beyond
    rw [parent?_of_size_le (Nat.le_trans (Nat.le_of_eq hung.size) beyond),
      parent?_of_size_le (Nat.le_trans (Nat.le_of_eq hung'.size) beyond)]
    rfl

theorem children_swap (different : index' ≠ index) (i : Nat) :
    ((tree.attach second).attach first).children (Equiv.swap tree.size (tree.size + 1) i) =
      (((tree.attach first).attach second).children i).map
        (Equiv.swap tree.size (tree.size + 1)) := by
  rw [children_attach_attach inOrder missing placed placed',
    children_attach_attach inOrder (missing.perm (.swap first second [])) placed' placed]
  rcases Nat.lt_or_ge i tree.size with known | outside
  · have same : (tree.children i).map (Equiv.swap tree.size (tree.size + 1)) = tree.children i := by
      refine (List.map_congr_left ?_).trans (List.map_id _)
      intro child listed
      exact swap_of_lt (inOrder.nesting.bounds_of_mem_children listed).2
    rw [swap_of_lt known, map_rowWith index' index (fun _ => swap_of_lt) le_swap,
      map_rowWith index index' (fun _ => swap_of_lt) le_swap, Equiv.swap_apply_left,
      Equiv.swap_apply_right, same, rowWith_comm different (Nat.le_refl _) (Nat.le_succ _)]
  · have outside' := le_swap i outside
    rw [rowWith_of_size_le inOrder outside, rowWith_of_size_le inOrder outside,
      rowWith_of_size_le inOrder outside', rowWith_of_size_le inOrder outside',
      children_of_size_le outside, children_of_size_le outside']
    rfl

end Swap

/-- Two tokens that are hung in change places. -/
theorem InOrder.renumbers_swap {eof first second : Token} (inOrder : tree.InOrder eof)
    (missing : Missing tree eof [first, second]) :
    Renumbers (Equiv.swap tree.size (tree.size + 1)) ((tree.attach first).attach second)
      ((tree.attach second).attach first) := by
  obtain ⟨index, -, placed, -⟩ := missing.before first (by simp)
  obtain ⟨index', -, placed', -⟩ := missing.before second (by simp)
  have different : index' ≠ index := by
    simpa [placed, placed', eq_comm] using missing.distinct.of_append_left
  have hung : Hung tree eof [first, second] ((tree.attach first).attach second) :=
    inOrder.hung_foldl_attach missing
  have hung' : Hung tree eof [second, first] ((tree.attach second).attach first) :=
    inOrder.hung_foldl_attach (missing.perm (.swap first second []))
  constructor
  · exact hung'.size.trans hung.size.symm
  · apply swap_cases (P := fun i j => ((tree.attach second).attach first).label? j =
      ((tree.attach first).attach second).label? i)
    · intro i known
      rw [hung'.labels i known, hung.labels i known]
    · exact (hung'.fresh 1 first rfl).trans (hung.fresh 0 first rfl).symm
    · exact (hung'.fresh 0 second rfl).trans (hung.fresh 1 second rfl).symm
    · intro i beyond
      rw [label?_of_size_le (Nat.le_trans (Nat.le_of_eq hung.size) beyond),
        label?_of_size_le (Nat.le_trans (Nat.le_of_eq hung'.size) beyond)]
  · exact parent?_swap inOrder missing placed placed'
  · exact children_swap inOrder missing placed placed' different

theorem Missing.head_swap {eof first second : Token} {rest : List Token}
    (missing : Missing tree eof (first :: second :: rest)) : Missing tree eof [first, second] where
  before := by
    intro token member
    apply missing.before token
    simp only [List.mem_cons, List.not_mem_nil, or_false] at member ⊢
    exact member.imp_right .inl
  distinct := by
    refine missing.distinct.sublist (List.Sublist.append_right ?_ _)
    exact List.Sublist.filterMap _ (.cons_cons _ (.cons_cons _ (List.nil_sublist rest)))

/-- Only the numbers of the new nodes tell in which order the tokens were hung in. -/
theorem InOrder.exists_renumbers {eof : Token} {order tokens : List Token}
    (inOrder : tree.InOrder eof) (missing : Missing tree eof order) (perm : order.Perm tokens) :
    ∃ number : Equiv.Perm Nat, (∀ i, i < tree.size → number i = i) ∧
      Renumbers number (order.foldl ParseTree.attach tree)
        (tokens.foldl ParseTree.attach tree) := by
  induction perm generalizing tree with
  | nil => exact ⟨.refl Nat, fun _ _ => rfl, .refl tree⟩
  | cons token _ ih =>
      obtain ⟨hung, missing'⟩ := missing.hung_attach inOrder
      obtain ⟨number, fixed, renumbers⟩ := ih hung.inOrder missing'
      exact ⟨number, fun i known => fixed i (Nat.lt_of_lt_of_le known hung.size_le), renumbers⟩
  | swap first second rest =>
      have swapped := inOrder.renumbers_swap missing.head_swap
      have hung := inOrder.hung_foldl_attach missing.head_swap
      refine ⟨Equiv.swap tree.size (tree.size + 1), fun i => swap_of_lt, ?_⟩
      apply swapped.foldl_attach (swap_of_lt inOrder.size_pos) rest hung.inOrder.nesting
        hung.inOrder.size_pos
      intro i beyond
      have counted : tree.size + 2 ≤ i := Nat.le_trans (Nat.le_of_eq hung.size.symm) beyond
      exact Equiv.swap_apply_of_ne_of_ne (by omega) (by omega)
  | trans perm _ ih ih' =>
      obtain ⟨number, fixed, renumbers⟩ := ih inOrder missing
      obtain ⟨number', fixed', renumbers'⟩ := ih' inOrder (missing.perm perm.symm)
      refine ⟨number.trans number', ?_, renumbers.trans renumbers'⟩
      intro i known
      rw [Equiv.trans_apply, fixed i known, fixed' i known]

/-- The arena of a tree whose tokens are in order, with nothing hung in. -/
theorem inOrder_ofLeaves (tokenOf : Leaf → Token) (eof : Token) (rule : String)
    (children : List SyntaxTree)
    (ordered : ((streamed tokenOf eof (.node rule children)).filterMap
      (·.index)).Pairwise (· < ·)) :
    (ofLeaves tokenOf eof [] (.node rule children)).InOrder eof := by
  obtain ⟨outline, closed, tokens⟩ := closed_insertToken tokenOf eof rule children
    ⟨((SyntaxTree.node rule children).nodes tokenOf none 0).toArray⟩ rfl
  have nesting := nesting_insertToken eof (SyntaxTree.size_arena_pos _ _)
    (SyntaxTree.nesting_arena tokenOf (.node rule children)) (Nat.le_refl _)
  exact closed.inOrder nesting (by rwa [Outline.indices, tokens])

/-- Tokens that a tree in order lacks go to the same places in it whichever is hung in first. -/
theorem hung_in_any_order {eof : Token} {order tokens : List Token} (inOrder : tree.InOrder eof)
    (missing : Missing tree eof tokens) (perm : order.Perm tokens) :
    Hung tree eof order (order.foldl attach tree) ∧
      (∀ index i, (order.foldl attach tree).Deepest index i ↔ tree.Deepest index i) ∧
      ∃ number : Equiv.Perm Nat, (∀ i, i < tree.size → number i = i) ∧
        Renumbers number (tokens.foldl attach tree) (order.foldl attach tree) := by
  have hung := inOrder.hung_foldl_attach (missing.perm perm)
  exact ⟨hung, fun index i => hung.deepest_iff inOrder,
    inOrder.exists_renumbers missing perm.symm⟩

namespace Assignments

/-! Two assignments, with two tokens too many in the first, one between them and a value made up in
the second. -/

def word (text : String) (index : Int) : Token :=
  { type := 1, text, index := some index, line := 1, column := index, start := index }

def stream : TokenStream :=
  .close #[word "a" 0, word "=" 1, word "1" 2, word "2" 3, word "3" 4, word ";" 5, word "=" 6,
    word "b" 7, word "=" 8, word ";" 9] ⟨10, 1, 10⟩

def taken : SyntaxTree :=
  .node "start"
    [.node "item" [.leaf (.token 0), .leaf (.token 1), .node "value" [.leaf (.token 2)],
      .leaf (.token 5)],
    .node "item" [.leaf (.token 7), .leaf (.token 8),
      .node "value" [.leaf (.conjured "NUMBER" 9)], .leaf (.token 9)]]

def terminal (index : Nat) : Terminal :=
  { name := "NUMBER", text := (stream.tokens.getD index stream.eof).text, start := index, line := 1,
    column := index + 1 }

def terminalOf : Leaf → Terminal
  | .token index => terminal index
  | .conjured name before => { terminal before with name, text := "" }

def positions : List ((Int × String) × Nat) :=
  [0, 1, 2, 5, 7, 8, 9].map fun index : Nat => ((index, "NUMBER"), index)

def arena : ParseTree := ofSyntaxTree stream ⟨[some "NUMBER"]⟩ terminalOf positions [] taken

def skipped : List Token := [word "2" 3, word "3" 4, word "=" 6]

theorem hung_backwards : arena.InOrder stream.eof ∧ Missing arena stream.eof skipped ∧
    Hung arena stream.eof skipped.reverse (skipped.reverse.foldl attach arena) ∧
    (skipped.reverse.foldl attach arena).children 1 = [2, 3, 4, 16, 15, 6] ∧
    ∃ number : Equiv.Perm Nat, (∀ i, i < arena.size → number i = i) ∧
      Renumbers number (skipped.foldl attach arena) (skipped.reverse.foldl attach arena) := by
  have inOrder : arena.InOrder stream.eof := inOrder_ofLeaves _ stream.eof "start" _ (by decide)
  have missing : Missing arena stream.eof skipped := by
    refine ⟨?_, by decide⟩
    simp only [skipped, List.forall_mem_cons]
    exact ⟨⟨3, 10, rfl, rfl, by decide⟩, ⟨4, 10, rfl, rfl, by decide⟩,
      ⟨6, 10, rfl, rfl, by decide⟩, by simp⟩
  obtain ⟨hung, -, renumbers⟩ := hung_in_any_order inOrder missing (List.reverse_perm skipped)
  exact ⟨inOrder, missing, hung, by decide, renumbers⟩

end Assignments

end ParseTree

end Typeahead
