import Typeahead.Proofs.Symbol.Nesting

namespace Typeahead

/-!
Symbol tables that are filled by a row of additions, each to a scope that the table has by then.
The symbols stand in the order of the additions, and each scope lists its own in that order, in
whatever order the scopes take turns.  The symbols nested in a scope are those that have it around
them, and a stack of pending symbols comes to them in the order of the descent.
-/

/-- A symbol that is to be declared, and the scope to hold it. -/
structure Addition where
  kind : SymbolKind
  name : String
  context : Option Int := none
  scope : Nat
deriving DecidableEq, Repr

def Addition.symbol (addition : Addition) : Symbol where
  kind := addition.kind
  name := addition.name
  context := addition.context

namespace SymbolTable

def addAll (table : SymbolTable) (additions : List Addition) : SymbolTable :=
  additions.foldl (fun table addition => table.add addition.symbol addition.scope) table

/-- Each addition names a scope of the table as it is by then. -/
def Admits : SymbolTable → List Addition → Prop
  | _, [] => True
  | table, addition :: rest =>
      table.isScope addition.scope = true ∧
        Admits (table.add addition.symbol addition.scope) rest

/-- A symbol without what it holds. -/
def alone? (table : SymbolTable) (i : Nat) : Option Symbol :=
  (table.symbol? i).map fun symbol => { symbol with children := [] }

/-- The table has the symbols of the additions in their order, nested in their scopes. -/
structure Arranges (additions : List Addition) (table : SymbolTable) : Prop where
  size : table.symbols.size = additions.length + 1
  global : table.alone? 0 = some { kind := .global, name := "" }
  stored : ∀ i addition, additions[i]? = some addition →
    table.alone? (i + 1) = some { addition.symbol with parent := some addition.scope }
  /-- A symbol is listed once, by an older scope. -/
  held : ∀ i, 0 < i → i < table.symbols.size → ∃ scope, table.parent? i = some scope ∧
    scope < i ∧ table.isScope scope = true ∧ (table.children scope).count i = 1 ∧
    ∀ other, other ≠ scope → i ∉ table.children other
  /-- A scope lists its symbols in the order of their addition. -/
  ordered : ∀ scope, (table.children scope).Pairwise (· < ·)
  nested : ∀ scope i, i ∈ table.descendants scope ↔ Encloses table.parent? scope i
  once : ∀ scope, (table.descendants scope).Nodup
  depthFirst : ∀ scope, table.descendants scope =
    (table.children scope).flatMap fun child => child :: table.descendants child
  /-- A stack of what the scope holds is worked off in as many steps as there are symbols. -/
  ends : ∀ scope steps, table.symbols.size ≤ steps →
    unstack table.children steps (table.children scope) = table.descendants scope

variable {table : SymbolTable} {symbol : Symbol} {scope i p : Nat}

/-- An addition leaves the symbols before it as they are, but for what they hold. -/
theorem alone?_add (fresh : symbol.children = []) (known : scope < table.symbols.size) (i : Nat) :
    (table.add symbol scope).alone? i =
      if i = table.symbols.size then some { symbol with parent := some scope }
      else table.alone? i := by
  split
  · next new =>
      rw [new, alone?, symbol?_add_size table symbol known, Option.map_some]
      simp only [fresh]
  · next old =>
      by_cases same : scope = i
      · rw [← same, alone?, symbol?_add_scope table symbol known, Option.map_map, alone?]
        rfl
      · rw [alone?, symbol?_add_other symbol old same, alone?]

theorem Admits.built {additions : List Addition} (admits : table.Admits additions)
    (built : table.Built) : (table.addAll additions).Built := by
  induction additions generalizing table with
  | nil => exact built
  | cons addition rest ih => exact ih admits.2 (built.add addition.scope admits.1 ..)

@[simp]
theorem size_addAll (table : SymbolTable) (additions : List Addition) :
    (table.addAll additions).symbols.size = table.symbols.size + additions.length := by
  induction additions generalizing table with
  | nil => rfl
  | cons addition rest ih =>
      have unfolded : table.addAll (addition :: rest) =
          (table.add addition.symbol addition.scope).addAll rest := rfl
      rw [unfolded, ih, size_add, List.length_cons]
      omega

/-- The symbols that are added stand behind those of the table, which keep their places. -/
theorem Admits.alone?_addAll {additions : List Addition} (admits : table.Admits additions) :
    (∀ i, i < table.symbols.size → (table.addAll additions).alone? i = table.alone? i) ∧
    ∀ i addition, additions[i]? = some addition →
      (table.addAll additions).alone? (table.symbols.size + i) =
        some { addition.symbol with parent := some addition.scope } := by
  induction additions generalizing table with
  | nil =>
      refine ⟨fun _ _ => rfl, ?_⟩
      intro i addition found
      cases found
  | cons first rest ih =>
      have known := lt_size_of_isScope admits.1
      obtain ⟨kept, placed⟩ := ih admits.2
      rw [size_add] at kept placed
      have entry : ∀ i, (table.add first.symbol first.scope).alone? i = _ := alone?_add rfl known
      refine ⟨?_, ?_⟩
      · intro i older
        have same := entry i
        rw [if_neg (Nat.ne_of_lt older)] at same
        exact (kept i (by omega)).trans same
      · intro i addition found
        cases i with
        | zero =>
            obtain rfl := Option.some.inj found
            have new := entry table.symbols.size
            rw [if_pos rfl] at new
            exact (kept _ (Nat.lt_succ_self _)).trans new
        | succ i =>
            rw [← Nat.add_assoc, Nat.add_right_comm]
            exact placed i addition found

namespace Built

variable (built : table.Built)

include built

/-- Only scopes hold symbols. -/
theorem isScope_of_parent (held : table.parent? i = some p) : table.isScope p = true := by
  induction built generalizing i p with
  | empty =>
      rw [parent?_empty] at held
      cases held
  | add _ scope holds kind name context ih =>
      have known := lt_size_of_isScope holds
      apply isScope_add _ known
      rw [parent?_add _ known] at held
      split at held
      · exact Option.some.inj held ▸ holds
      · exact ih held

theorem pairwise_children (scope : Nat) : (table.children scope).Pairwise (· < ·) := by
  induction built generalizing scope with
  | empty =>
      rw [children_empty]
      exact .nil
  | @add table built holder holds kind name context ih =>
      rw [children_add rfl (lt_size_of_isScope holds)]
      split
      · apply List.pairwise_append.2
        use ih scope, List.pairwise_singleton ..
        intro i listed j last
        rw [List.mem_singleton.1 last]
        have held := built.nesting.mem_children.1 listed
        exact ((built.nesting.parents i).1 (Option.isSome_of_eq_some held)).2
      · exact ih scope

theorem exists_holder (later : 0 < i) (known : i < table.symbols.size) :
    ∃ scope, table.parent? i = some scope ∧ scope < i ∧ table.isScope scope = true ∧
      (table.children scope).count i = 1 ∧ ∀ other, other ≠ scope → i ∉ table.children other := by
  obtain ⟨scope, held⟩ := Option.isSome_iff_exists.1 ((built.nesting.parents i).2 ⟨later, known⟩)
  refine ⟨scope, held, built.nesting.older i scope held, built.isScope_of_parent held, ?_, ?_⟩
  · rw [built.nesting.listed, if_pos held]
  · intro other different listed
    have held' := built.nesting.mem_children.1 listed
    exact different (Option.some.inj (held'.symm.trans held))

theorem length_descendants_le (scope : Nat) :
    (table.descendants scope).length ≤ table.symbols.size := by
  have subset : table.descendants scope ⊆ List.range table.symbols.size := by
    intro i member
    exact List.mem_range.2 (built.nesting.lt_size_of_encloses (built.mem_descendants_iff.1 member))
  simpa using (List.subperm_of_subset (built.nodup_descendants scope) subset).length_le

theorem descendants_eq_flatMap (scope : Nat) : table.descendants scope =
    (table.children scope).flatMap fun child => child :: table.descendants child := by
  simp only [descendants, descendantsUpTo_eq]
  exact built.nesting.nestedUpTo_eq_flatMap (by omega)

theorem unstack_children (scope : Nat) {steps : Nat} (enough : table.symbols.size ≤ steps) :
    unstack table.children steps (table.children scope) = table.descendants scope := by
  have bound := built.length_descendants_le scope
  rw [built.nesting.unstack_eq_take]
  have whole := built.descendants_eq_flatMap scope
  simp only [descendants, descendantsUpTo_eq] at whole bound ⊢
  rw [← whole]
  exact List.take_of_length_le (by omega)

end Built

/-- Whichever scopes of the table the symbols are added to, in whatever turns, the table arranges
them. -/
theorem arranges_addAll {additions : List Addition} (admits : empty.Admits additions) :
    Arranges additions (empty.addAll additions) := by
  have built := admits.built .empty
  obtain ⟨kept, placed⟩ := admits.alone?_addAll
  refine ⟨?_, kept 0 Nat.one_pos, ?_, fun i => built.exists_holder, built.pairwise_children,
    fun scope i => built.mem_descendants_iff, ?_, built.descendants_eq_flatMap,
    fun scope steps => built.unstack_children scope⟩
  · rw [size_addAll, Nat.add_comm]
    rfl
  · intro i addition found
    rw [Nat.add_comm]
    exact placed i addition found
  · exact built.nodup_descendants

namespace Interleaved

/-- A class that goes on being filled after its method and another class were begun. -/
def turns : List Addition :=
  [⟨.classLike, "first", none, 0⟩, ⟨.function, "method", some 4, 1⟩,
    ⟨.classLike, "second", none, 0⟩, ⟨.variable, "own", none, 1⟩, ⟨.parameter, "argument", none, 2⟩, ⟨.variable, "other", none, 3⟩,
    ⟨.block, "", some 9, 2⟩, ⟨.variable, "last", none, 1⟩]

theorem arranges_turns : empty.Admits turns ∧ Arranges turns (empty.addAll turns) ∧
    (empty.addAll turns).descendants 1 = [2, 5, 7, 4, 8] := by
  have admits : empty.Admits turns := ⟨rfl, rfl, rfl, rfl, rfl, rfl, rfl, rfl, trivial⟩
  exact ⟨admits, arranges_addAll admits, by decide⟩

end Interleaved

end SymbolTable

end Typeahead
