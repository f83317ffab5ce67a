import Typeahead.Symbol.Declaration
import Typeahead.Proofs.ParseTree.Ancestry

namespace Typeahead

/-!
The symbol table of a tree.  The nodes that declare symbols stand in it in the order of the walk
through the tree, behind the global scope, and the scope of each is the nearest node above it that
opens one.
-/

namespace SymbolTable

variable (table : SymbolTable) (symbol : Symbol) {scope j : Nat}

theorem symbol?_add_size (known : scope < table.symbols.size) :
    (table.add symbol scope).symbol? table.symbols.size =
      some { symbol with parent := some scope } := by
  have other : scope ≠ table.symbols.size := Nat.ne_of_lt known
  rw [symbol?, add, Array.getElem?_modify, if_neg other, append, Array.getElem?_push_size]

theorem symbol?_add_scope (known : scope < table.symbols.size) :
    (table.add symbol scope).symbol? scope = (table.symbol? scope).map fun holder =>
      { holder with children := holder.children ++ [table.symbols.size] } := by
  simp [add, append, symbol?, Array.getElem?_modify, Array.getElem?_push_lt, known]

theorem symbol?_add_of_ne (older : j < table.symbols.size) (other : scope ≠ j) :
    (table.add symbol scope).symbol? j = table.symbol? j := by
  simp [add, append, symbol?, Array.getElem?_modify, Array.getElem?_push_lt, older, other]

end SymbolTable

namespace Declarations

variable (declarations : Declarations) (tree : ParseTree)

/-- Whether a node opens a scope. -/
def opens (i : Nat) : Bool := (declarations.ofNode? tree i).any (·.kind.isScoped)

/-- Whether a node declares a symbol. -/
def declares (i : Nat) : Bool := (declarations.ofNode? tree i).any (!·.isUnnamed tree i)

/-- The nearest node that opens a scope, among a node and those above it. -/
def owner? (i : Nat) : Option Nat := (tree.ancestors i).find? (declarations.opens tree)

/-- The node whose scope a node stands in. -/
def home? (i : Nat) : Option Nat := (tree.parent? i).bind (declarations.owner? tree)

/-- The nodes that declare symbols, in the order of the walk. -/
def declaring : List Nat := (tree.walk 0).filter (declarations.declares tree)

/-- The position of a node's symbol in the table. -/
def rank (i : Nat) : Nat := (declarations.declaring tree).idxOf i + 1

/-- The position of the scope that a node opens; that of the global scope without one. -/
def rankOf : Option Nat → Nat
  | none => 0
  | some i => declarations.rank tree i

/-- The symbols declared among some nodes in the scope of one. -/
def held (seen : List Nat) (home : Option Nat) : List Nat :=
  seen.filter fun i => declarations.declares tree i && declarations.home? tree i == home

variable {declarations} {tree}

theorem declares_of_opens {i : Nat} (opens : declarations.opens tree i = true) :
    declarations.declares tree i = true := by
  unfold Declarations.opens at opens
  unfold declares
  cases found : declarations.ofNode? tree i with
  | none => simp [found] at opens
  | some declaration =>
      rw [found, Option.any_some] at opens
      simp [Declaration.isUnnamed, opens]

theorem held_concat (seen : List Nat) (i : Nat) (home : Option Nat) :
    declarations.held tree (seen ++ [i]) home = declarations.held tree seen home ++
      if declarations.declares tree i && declarations.home? tree i == home then [i] else [] := by
  rw [held, List.filter_append, List.filter_singleton, Bool.cond_eq_ite]
  rfl

theorem rank_inj {i j : Nat} (reached : i ∈ tree.walk 0)
    (speaks : declarations.declares tree i = true)
    (same : declarations.rank tree i = declarations.rank tree j) : i = j := by
  have member : i ∈ declarations.declaring tree := List.mem_filter.2 ⟨reached, speaks⟩
  exact (List.idxOf_inj member).1 (Nat.succ.inj same)

variable (declarations) (tree)

/-- The symbol of a node when the declarations of some nodes have been entered. -/
def entry (seen : List Nat) (i : Nat) (declaration : Declaration) : Symbol where
  kind := declaration.kind
  name := declaration.nameIn tree i
  context := some i
  parent := some (declarations.rankOf tree (declarations.home? tree i))
  children := (declarations.held tree seen (some i)).map (declarations.rank tree)

/-- The table has the symbols that some nodes declare. -/
structure Records (seen : List Nat) (table : SymbolTable) : Prop where
  size : table.symbols.size = (seen.filter (declarations.declares tree)).length + 1
  global : table.symbol? 0 = some
    { kind := .global, name := ""
      children := (declarations.held tree seen none).map (declarations.rank tree) }
  entries : ∀ i ∈ seen, ∀ declaration : Declaration,
    declarations.ofNode? tree i = some declaration → declarations.declares tree i = true →
    table.symbol? (declarations.rank tree i) = some (declarations.entry tree seen i declaration)
  opened : table.opened =
    ((seen.filter (declarations.opens tree)).map fun i : Nat =>
      ((i : Int), declarations.rank tree i)).reverse

variable {declarations} {tree}

theorem Records.skip {seen : List Nat} {table : SymbolTable} {i : Nat}
    (records : declarations.Records tree seen table)
    (silent : declarations.declares tree i = false) (closed : declarations.opens tree i = false) :
    declarations.Records tree (seen ++ [i]) table := by
  have held : ∀ home, declarations.held tree (seen ++ [i]) home =
      declarations.held tree seen home := by
    intro home
    rw [held_concat, silent]
    exact List.append_nil _
  have declared : (seen ++ [i]).filter (declarations.declares tree) =
      seen.filter (declarations.declares tree) := by
    simp [silent]
  have opened : (seen ++ [i]).filter (declarations.opens tree) =
      seen.filter (declarations.opens tree) := by
    simp [closed]
  refine ⟨declared ▸ records.size, held none ▸ records.global, ?_, opened ▸ records.opened⟩
  intro j known declaration found speaks
  rw [entry, held]
  rcases List.mem_append.1 known with before | same
  · exact records.entries j before declaration found speaks
  · rw [List.mem_singleton.1 same, silent] at speaks
    cases speaks

end Declarations

namespace Declared

open Declarations

variable (declarations : Declarations) (tree : ParseTree)

/-- Declares what a node does in the scope that it stands in. -/
def enter (state : Declared) (i : Nat) : Declared :=
  (declare declarations tree state (declarations.rankOf tree (declarations.home? tree i)) i).1

/-- All that the declaration of a node does. -/
theorem declare_cases (state : Declared) (scope i : Nat) :
    (declarations.declares tree i = false ∧ declarations.opens tree i = false ∧
        (declare declarations tree state scope i).1.table = state.table ∧
        (declare declarations tree state scope i).2 = scope) ∨
      ∃ declaration, declarations.ofNode? tree i = some declaration ∧
        declarations.declares tree i = true ∧
        declarations.opens tree i = declaration.kind.isScoped ∧
        (declare declarations tree state scope i).1.table = state.table.add
          { kind := declaration.kind, name := declaration.nameIn tree i, context := some i } scope ∧
        (declare declarations tree state scope i).2 =
          if declaration.kind.isScoped then state.table.symbols.size else scope := by
  unfold declares opens declare
  cases declarations.ofNode? tree i with
  | none => exact .inl ⟨rfl, rfl, rfl, rfl⟩
  | some declaration =>
      simp only [Option.any_some]
      cases unnamed : declaration.isUnnamed tree i with
      | false => exact .inr ⟨declaration, rfl, by simp, rfl, rfl, rfl⟩
      | true =>
          have plain : declaration.kind.isScoped = false := by
            simp only [Declaration.isUnnamed, Bool.and_eq_true, Bool.not_eq_true'] at unnamed
            exact unnamed.1.2
          exact .inl ⟨by simp, plain, rfl, rfl⟩

theorem size_declare (state : Declared) (scope i : Nat) :
    (declare declarations tree state scope i).1.table.symbols.size =
      state.table.symbols.size + ([i].filter (declarations.declares tree)).length := by
  rcases declare_cases declarations tree state scope i with
    ⟨silent, -, table, -⟩ | ⟨declaration, -, speaks, -, table, -⟩
  · rw [table, List.filter_singleton, silent]
    rfl
  · rw [table, SymbolTable.size_add, List.filter_singleton, speaks]
    rfl

theorem size_foldl_enter (seen : List Nat) (state : Declared) :
    (seen.foldl (enter declarations tree) state).table.symbols.size =
      state.table.symbols.size + (seen.filter (declarations.declares tree)).length := by
  induction seen generalizing state with
  | nil => rfl
  | cons i rest ih =>
      have split := List.filter_append (p := declarations.declares tree) [i] rest
      rw [List.singleton_append] at split
      rw [List.foldl_cons, ih, enter, size_declare, split, List.length_append, Nat.add_assoc]

end Declared

namespace ParseTree

open Declarations Declared

variable {declarations : Declarations} {tree : ParseTree} {root outline : Outline}
  {seen rest : List Nat} {i : Nat}

namespace Rooted

variable (rooted : tree.Rooted)

include rooted

theorem owner?_eq (reached : i ∈ tree.walk 0) : declarations.owner? tree i =
    if declarations.opens tree i then some i else declarations.home? tree i := by
  rw [owner?, (rooted.ancestors_eq reached).1, List.find?_cons, home?]
  cases declarations.opens tree i with
  | true => rfl
  | false =>
      cases tree.parent? i with
      | none => rfl
      | some parent => rfl

theorem rank_eq (split : tree.walk 0 = seen ++ i :: rest)
    (speaks : declarations.declares tree i = true) :
    declarations.rank tree i = (seen.filter (declarations.declares tree)).length + 1 := by
  have distinct := rooted.nodup_walk
  rw [split] at distinct
  have fresh : i ∉ seen.filter (declarations.declares tree) := by
    intro twice
    exact (List.disjoint_of_nodup_append distinct) (List.mem_of_mem_filter twice)
      List.mem_cons_self
  rw [rank, declaring, split, List.filter_append, List.filter_cons_of_pos speaks,
    List.idxOf_append_of_notMem fresh, List.idxOf_cons_self, Nat.add_zero]

theorem mem_of_home? (split : tree.walk 0 = seen ++ i :: rest) {home : Nat}
    (found : declarations.home? tree i = some home) :
    home ∈ seen ∧ declarations.opens tree home = true := by
  have reached : i ∈ tree.walk 0 := by simp [split]
  obtain ⟨parent, held, owner⟩ := Option.bind_eq_some_iff.1 found
  have above : home ∈ tree.ancestors parent := List.mem_of_find?_eq_some owner
  have climbs := (rooted.ancestors_eq reached).1
  rw [held] at climbs
  have distinct := rooted.nodup_ancestors reached
  rw [climbs, List.nodup_cons] at distinct
  refine ⟨rooted.mem_of_mem_ancestors split ?_ ?_, List.find?_some owner⟩
  · rw [climbs]
    exact List.mem_cons_of_mem _ above
  · intro same
    exact distinct.1 (same ▸ above)

theorem rank_lt (split : tree.walk 0 = seen ++ i :: rest) {j : Nat} (before : j ∈ seen)
    (speaks : declarations.declares tree j = true) :
    declarations.rank tree j < (seen.filter (declarations.declares tree)).length + 1 := by
  obtain ⟨front, back, rfl⟩ := List.append_of_mem before
  have split' : tree.walk 0 = front ++ j :: (back ++ i :: rest) := by simp [split]
  rw [rooted.rank_eq split' speaks, List.filter_append, List.filter_cons_of_pos speaks,
    List.length_append, List.length_cons]
  omega

end Rooted

/-- Where each child's part of the walk is entered in order, that of all of them is. -/
theorem foldl_declareBelow {children : List Outline} {depth inner : Nat}
    (each : ∀ child ∈ children, ∀ seen rest, root.places = seen ++ child.places ++ rest →
      declareBelow declarations tree depth (seen.foldl (enter declarations tree) .empty) inner
          child.place =
        (seen ++ child.places).foldl (enter declarations tree) .empty)
    (split : root.places = seen ++ children.flatMap Outline.places ++ rest) :
    (children.map Outline.place).foldl
        (fun state child => declareBelow declarations tree depth state inner child)
        (seen.foldl (enter declarations tree) .empty) =
      (seen ++ children.flatMap Outline.places).foldl (enter declarations tree) .empty := by
  induction children generalizing seen with
  | nil => simp
  | cons child others ih =>
      rw [List.flatMap_cons] at split ⊢
      have here : root.places =
          seen ++ child.places ++ (others.flatMap Outline.places ++ rest) := by
        simp [split]
      have there : root.places =
          (seen ++ child.places) ++ others.flatMap Outline.places ++ rest := by
        simp [split]
      rw [List.map_cons, List.foldl_cons, each child List.mem_cons_self seen _ here,
        ih (fun other member => each other (List.mem_cons_of_mem _ member)) there,
        List.append_assoc]

namespace Outlines

variable (outlines : tree.Outlines root)

include outlines

theorem rooted : tree.Rooted := by
  refine ⟨⟨root, outlines.place, outlines.depicts, outlines.distinct⟩, outlines.top, ?_⟩
  intro i reached child member
  obtain ⟨outline, within, rfl⟩ := outlines.exists_within reached
  rw [(within.depicts outlines.depicts).children_eq] at member
  obtain ⟨part, inside, rfl⟩ := List.mem_map.1 member
  exact outlines.parents outline within part inside

/-- The children of a node stand in the scope that it opens, or else in its own. -/
theorem rankOf_home?_child (within : outline.Within root)
    (split : root.places = seen ++ outline.places ++ rest) {child : Outline}
    (member : child ∈ outline.children) :
    (declare declarations tree (seen.foldl (enter declarations tree) .empty)
      (declarations.rankOf tree (declarations.home? tree outline.place)) outline.place).2 =
      declarations.rankOf tree (declarations.home? tree child.place) := by
  have reached := outlines.mem_walk within
  have home : declarations.home? tree child.place = if declarations.opens tree outline.place then
      some outline.place else declarations.home? tree outline.place := by
    rw [home?, outlines.parents outline within child member, Option.bind_some,
      outlines.rooted.owner?_eq reached]
  rw [home]
  rcases declare_cases declarations tree (seen.foldl (enter declarations tree) .empty)
      (declarations.rankOf tree (declarations.home? tree outline.place)) outline.place with
    ⟨-, closed, -, inner⟩ | ⟨declaration, -, speaks, kind, -, inner⟩
  · rw [inner, closed]
    rfl
  · rw [inner, kind]
    cases declaration.kind.isScoped with
    | false => rfl
    | true =>
        have walk : tree.walk 0 =
            seen ++ outline.place :: (outline.children.flatMap Outline.places ++ rest) := by
          rw [outlines.walk_eq, split, outline.places_eq]
          simp
        simp only [if_true, rankOf]
        rw [size_foldl_enter, outlines.rooted.rank_eq walk speaks, Nat.add_comm]
        rfl

/-- A node's declarations are entered in the order of the walk, each in the scope that it stands
in. -/
theorem declareBelow_eq (declarations : Declarations) (within : outline.Within root)
    (split : root.places = seen ++ outline.places ++ rest) {depth : Nat}
    (enough : outline.places.length ≤ depth) :
    declareBelow declarations tree depth (seen.foldl (enter declarations tree) .empty)
        (declarations.rankOf tree (declarations.home? tree outline.place)) outline.place =
      (seen ++ outline.places).foldl (enter declarations tree) .empty := by
  induction depth generalizing outline seen rest with
  | zero =>
      have nonempty := List.length_pos_of_mem outline.place_mem_places
      omega
  | succ depth ih =>
      have below := (within.depicts outlines.depicts).children_eq
      have first : (declare declarations tree (seen.foldl (enter declarations tree) .empty)
          (declarations.rankOf tree (declarations.home? tree outline.place)) outline.place).1 =
          (seen ++ [outline.place]).foldl (enter declarations tree) .empty := by
        rw [List.foldl_concat]
        rfl
      have inner : ∀ child ∈ outline.children,
          (declare declarations tree (seen.foldl (enter declarations tree) .empty)
            (declarations.rankOf tree (declarations.home? tree outline.place)) outline.place).2 =
          declarations.rankOf tree (declarations.home? tree child.place) :=
        fun child member => outlines.rankOf_home?_child within split member
      rw [declareBelow]
      simp only [first, below]
      cases outline with
      | terminal place token => rfl
      | rule place name children =>
          have behind : root.places =
              (seen ++ [place]) ++ children.flatMap Outline.places ++ rest := by
            simp [split]
          rw [Outline.children, Outline.place, foldl_declareBelow ?_ behind, Outline.places_rule]
          · simp
          · intro child member seen' rest' split'
            have smaller := Outline.length_places_lt place name member
            have scope := inner child member
            rw [Outline.place] at scope
            rw [scope]
            exact ih (Outline.within_of_mem_children member |>.trans within) split' (by omega)

end Outlines

namespace Rooted

variable (rooted : tree.Rooted) {table : SymbolTable}

include rooted

/-- Nothing that the walk has come to before a node, nor the node itself, stands in its scope. -/
theorem held_self (split : tree.walk 0 = seen ++ i :: rest) :
    declarations.held tree (seen ++ [i]) (some i) = [] := by
  have distinct := rooted.nodup_walk
  rw [split] at distinct
  have fresh : i ∉ seen := by
    intro twice
    exact (List.disjoint_of_nodup_append distinct) twice List.mem_cons_self
  rw [held, List.filter_eq_nil_iff]
  intro j known
  simp only [Bool.and_eq_true, beq_iff_eq, not_and]
  intro _ home
  rcases List.mem_append.1 known with before | same
  · obtain ⟨front, back, rfl⟩ := List.append_of_mem before
    have split' : tree.walk 0 = front ++ j :: (back ++ i :: rest) := by simp [split]
    exact fresh (List.mem_append_left _ (rooted.mem_of_home? split' home).1)
  · obtain rfl := List.mem_singleton.1 same
    exact fresh (rooted.mem_of_home? split home).1

section Adding

variable (split : tree.walk 0 = seen ++ i :: rest) (records : declarations.Records tree seen table)
  (speaks : declarations.declares tree i = true)

include split records

theorem rank_lt_size {j : Nat} (before : j ∈ seen) (speaks : declarations.declares tree j = true) :
    declarations.rank tree j < table.symbols.size := by
  rw [records.size]
  exact rooted.rank_lt split before speaks

theorem rankOf_home?_lt_size :
    declarations.rankOf tree (declarations.home? tree i) < table.symbols.size := by
  cases inside : declarations.home? tree i with
  | none =>
      rw [rankOf, records.size]
      exact Nat.succ_pos _
  | some home =>
      obtain ⟨before, opens⟩ := rooted.mem_of_home? split inside
      exact rooted.rank_lt_size split records before (declares_of_opens opens)

omit records in
theorem rankOf_home?_eq_iff (home : Option Nat) :
    declarations.rankOf tree (declarations.home? tree i) = declarations.rankOf tree home ↔
      declarations.home? tree i = home := by
  refine ⟨?_, fun same => same ▸ rfl⟩
  intro same
  cases inside : declarations.home? tree i with
  | none =>
      cases home with
      | none => rfl
      | some other =>
          rw [inside] at same
          cases same
  | some holder =>
      rw [inside] at same
      cases home with
      | none => cases same
      | some other =>
          obtain ⟨before, opens⟩ := rooted.mem_of_home? split inside
          have reached : holder ∈ tree.walk 0 := by simp [split, before]
          rw [rank_inj reached (declares_of_opens opens) same]

include speaks

/-- What is added to the scope of a node is listed there, and nowhere else. -/
theorem symbol?_add (added holder : Symbol) (home : Option Nat)
    (older : declarations.rankOf tree home < table.symbols.size)
    (found : table.symbol? (declarations.rankOf tree home) = some holder)
    (children : holder.children =
      (declarations.held tree seen home).map (declarations.rank tree)) :
    (table.add added (declarations.rankOf tree (declarations.home? tree i))).symbol?
        (declarations.rankOf tree home) =
      some { holder with
        children := (declarations.held tree (seen ++ [i]) home).map (declarations.rank tree) } := by
  have rank : declarations.rank tree i = table.symbols.size := by
    rw [rooted.rank_eq split speaks, records.size]
  rw [held_concat, speaks, Bool.true_and]
  by_cases same : declarations.home? tree i = home
  · rw [same, SymbolTable.symbol?_add_scope _ _ older, found, beq_self_eq_true]
    simp [children, rank]
  · have other := mt (rooted.rankOf_home?_eq_iff split home).1 same
    rw [SymbolTable.symbol?_add_of_ne _ _ older other, found]
    simp [← children, same]

theorem records_add {declaration : Declaration}
    (found : declarations.ofNode? tree i = some declaration)
    (kind : declarations.opens tree i = declaration.kind.isScoped) :
    declarations.Records tree (seen ++ [i]) (table.add
      { kind := declaration.kind, name := declaration.nameIn tree i, context := some i }
      (declarations.rankOf tree (declarations.home? tree i))) := by
  have rank : declarations.rank tree i = table.symbols.size := by
    rw [rooted.rank_eq split speaks, records.size]
  have scope := rooted.rankOf_home?_lt_size split records
  refine ⟨?_, ?_, ?_, ?_⟩
  · rw [SymbolTable.size_add, records.size, List.filter_append, List.filter_singleton, speaks]
    simp
  · have older : 0 < table.symbols.size := by
      rw [records.size]
      exact Nat.succ_pos _
    exact rooted.symbol?_add split records speaks _ _ none older records.global rfl
  · intro j known declaration' found' speaks'
    rcases List.mem_append.1 known with before | same
    · have older := rooted.rank_lt_size split records before speaks'
      exact rooted.symbol?_add split records speaks _ _ (some j) older
        (records.entries j before declaration' found' speaks') rfl
    · obtain rfl := List.mem_singleton.1 same
      obtain rfl := Option.some.inj (found.symm.trans found')
      rw [entry, rooted.held_self split, rank, SymbolTable.symbol?_add_size _ _ scope]
      rfl
  · rw [SymbolTable.add, List.filter_append, List.filter_singleton, kind]
    cases declaration.kind.isScoped with
    | false => simp [records.opened]
    | true => simp [records.opened, rank]

end Adding

theorem records_foldl_enter (split : tree.walk 0 = seen ++ rest) :
    declarations.Records tree seen (seen.foldl (enter declarations tree) .empty).table := by
  induction seen using List.reverseRecOn generalizing rest with
  | nil => exact ⟨rfl, rfl, by simp, rfl⟩
  | append_singleton seen i ih =>
      have split' : tree.walk 0 = seen ++ i :: rest := by simp [split]
      have records := ih split'
      rw [List.foldl_concat, enter]
      rcases declare_cases declarations tree (seen.foldl (enter declarations tree) .empty)
          (declarations.rankOf tree (declarations.home? tree i)) i with
        ⟨silent, closed, table, -⟩ | ⟨declaration, found, speaks, kind, table, -⟩
      · rw [table]
        exact records.skip silent closed
      · rw [table]
        exact rooted.records_add split' records speaks found kind

/-- The symbol table has what all nodes of the tree declare. -/
theorem records_symbolTable :
    declarations.Records tree (tree.walk 0) (tree.symbolTable declarations) := by
  obtain ⟨root, outlines⟩ := rooted.exists_outlines
  have enough := outlines.depicts.length_places_le outlines.distinct
  have split : root.places = [] ++ root.places ++ [] := by simp
  have whole := outlines.declareBelow_eq declarations (.refl root) split enough
  have home : declarations.home? tree 0 = none := by rw [home?, outlines.top, Option.bind_none]
  rw [outlines.place, home, ← outlines.walk_eq, List.nil_append] at whole
  rw [symbolTable, declared]
  exact whole ▸ rooted.records_foldl_enter (List.append_nil _).symm

end Rooted

end ParseTree

end Typeahead
