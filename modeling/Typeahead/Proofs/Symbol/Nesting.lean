import Typeahead.Proofs.Nesting
import Typeahead.Proofs.Symbol.Declaring

namespace Typeahead

/-!
The scopes of a symbol table nest, in whatever order they are filled.  So what is visible from a
scope is what it encloses and what those around it hold themselves, and nothing comes twice.
-/

namespace SymbolTable

/-- The tables that come from declaring new symbols, each in a scope of the table. -/
inductive Built : SymbolTable → Prop where
  | empty : Built .empty
  | add {table : SymbolTable} (built : Built table) (scope : Nat)
      (holds : table.isScope scope = true) (kind : SymbolKind) (name : String)
      (context : Option Int) : Built (table.add { kind, name, context } scope)

/-- A list has what is visible from a scope of a table. -/
structure Shows (table : SymbolTable) (scope : Nat) (kind : SymbolKind) (found : List Nat) :
    Prop where
  mem_iff : ∀ i, i ∈ found ↔ table.isA kind i = true ∧ (Encloses table.parent? scope i ∨
    ∃ holder, table.parent? i = some holder ∧ Encloses table.parent? holder scope)
  once : found.Nodup
  /-- What the scope encloses comes first, the scopes around it follow from the inside outwards. -/
  ordered : ∃ inside around, found = inside ++ around ∧
    (∀ i ∈ inside, Encloses table.parent? scope i) ∧
    (∀ i ∈ around, ∃ holder, table.parent? i = some holder ∧
      Encloses table.parent? holder scope) ∧
    around.Pairwise fun i j => ∀ inner outer, table.parent? i = some inner →
      table.parent? j = some outer → inner = outer ∨ Encloses table.parent? outer inner
  apart : ∀ holder sibling, table.parent? scope = some holder →
    table.parent? sibling = some holder → sibling ≠ scope →
    ∀ i, Encloses table.parent? sibling i → i ∉ found

variable {table : SymbolTable} {symbol : Symbol} {scope i p : Nat}

theorem lt_size_of_isScope (holds : table.isScope scope = true) : scope < table.symbols.size := by
  by_contra outside
  have unknown : table.symbol? scope = none := Array.getElem?_eq_none (Nat.le_of_not_lt outside)
  simp [isScope, kind?, unknown] at holds

/-- Only the scope of a new symbol changes. -/
theorem symbol?_add_other (symbol : Symbol) (old : i ≠ table.symbols.size) (other : scope ≠ i) :
    (table.add symbol scope).symbol? i = table.symbol? i := by
  simp [add, append, symbol?, Array.getElem?_modify, Array.getElem?_push, old, other]

theorem parent?_add (symbol : Symbol) (known : scope < table.symbols.size) (i : Nat) :
    (table.add symbol scope).parent? i =
      if i = table.symbols.size then some scope else table.parent? i := by
  split
  · next new => rw [new, parent?, symbol?_add_size table symbol known, Option.bind_some]
  · next old =>
      by_cases same : scope = i
      · rw [← same, parent?, symbol?_add_scope table symbol known, Option.bind_map]
        rfl
      · rw [parent?, symbol?_add_other symbol old same, parent?]

theorem children_add (fresh : symbol.children = []) (known : scope < table.symbols.size) (i : Nat) :
    (table.add symbol scope).children i =
      if i = scope then table.children i ++ [table.symbols.size] else table.children i := by
  split
  · next same =>
      obtain ⟨holder, found⟩ : ∃ holder, table.symbol? scope = some holder :=
        ⟨_, Array.getElem?_eq_getElem known⟩
      simp only [same, children, symbol?_add_scope table symbol known, found, Option.map_some]
  · next other =>
      by_cases new : i = table.symbols.size
      · have unknown : table.symbol? table.symbols.size = none :=
          Array.getElem?_eq_none (Nat.le_refl _)
        simp only [new, children, symbol?_add_size table symbol known, unknown, fresh]
      · rw [children, symbol?_add_other symbol new (Ne.symm other), children]

/-- A scope stays one when symbols are declared. -/
theorem isScope_add (symbol : Symbol) (known : scope < table.symbols.size)
    (holds : table.isScope i = true) : (table.add symbol scope).isScope i = true := by
  rw [← holds, isScope, isScope, kind?, kind?]
  by_cases same : scope = i
  · rw [← same, symbol?_add_scope table symbol known, Option.map_map]
    rfl
  · rw [symbol?_add_of_ne table symbol (lt_size_of_isScope holds) same]

theorem parent?_empty (i : Nat) : empty.parent? i = none := by
  rcases i with - | i <;> rfl

theorem children_empty (i : Nat) : empty.children i = [] := by
  rcases i with - | i <;> rfl

/-- A new symbol is held by the scope that it is declared in. -/
theorem nesting_add (nesting : Nesting table.symbols.size table.parent? table.children)
    (fresh : symbol.children = []) (known : scope < table.symbols.size) :
    Nesting (table.add symbol scope).symbols.size (table.add symbol scope).parent?
      (table.add symbol scope).children := by
  rw [size_add]
  apply nesting.extend known (parent?_add symbol known)
  intro i
  rw [children_add fresh known]
  split
  · exact List.perm_append_singleton ..
  · exact .refl _

theorem Built.nesting (built : table.Built) :
    Nesting table.symbols.size table.parent? table.children := by
  induction built with
  | empty =>
      constructor
      · intro i
        have lone : SymbolTable.empty.symbols.size = 1 := rfl
        rw [parent?_empty, lone]
        simp only [Option.isSome_none, Bool.false_eq_true, false_iff]
        omega
      · intro i p held
        rw [parent?_empty] at held
        cases held
      · intro i p
        simp [parent?_empty, children_empty]
  | add built scope holds kind name context nesting =>
      exact nesting_add nesting rfl (lt_size_of_isScope holds)

theorem descendantsUpTo_eq (table : SymbolTable) (depth scope : Nat) :
    table.descendantsUpTo depth scope = nestedUpTo table.children depth scope := by
  induction depth generalizing scope with
  | zero => rfl
  | succ depth ih => simp only [descendantsUpTo, nestedUpTo, ih]

theorem enclosingUpTo_eq (table : SymbolTable) (fuel i : Nat) :
    table.enclosingUpTo fuel i = Typeahead.enclosingUpTo table.parent? fuel i := by
  induction fuel generalizing i with
  | zero => rfl
  | succ fuel ih =>
      rw [enclosingUpTo, Typeahead.enclosingUpTo]
      cases table.parent? i with
      | none => rfl
      | some holder => exact congrArg (holder :: ·) (ih holder)

namespace Built

variable (built : table.Built)

include built

theorem mem_descendants_iff : i ∈ table.descendants scope ↔ Encloses table.parent? scope i := by
  rw [descendants, descendantsUpTo_eq]
  exact built.nesting.mem_nestedUpTo_iff (by omega)

theorem mem_enclosing_iff : p ∈ table.enclosing i ↔ Encloses table.parent? p i := by
  rw [enclosing, enclosingUpTo_eq]
  exact built.nesting.mem_enclosingUpTo_iff Nat.le_of_lt

/-- What the scopes around a scope hold themselves. -/
theorem mem_around_iff : i ∈ (table.enclosing scope).flatMap table.children ↔
    ∃ holder, table.parent? i = some holder ∧ Encloses table.parent? holder scope := by
  simp only [List.mem_flatMap, built.mem_enclosing_iff, built.nesting.mem_children, and_comm]

theorem pairwise_around : ((table.enclosing scope).flatMap table.children).Pairwise fun i j =>
    i ≠ j ∧ ∀ inner outer, table.parent? i = some inner → table.parent? j = some outer →
      inner = outer ∨ Encloses table.parent? outer inner := by
  rw [List.pairwise_flatMap]
  constructor
  · intro holder _
    apply (built.nesting.nodup_children holder).imp_of_mem
    intro i j here there different
    rw [built.nesting.mem_children] at here there
    constructor
    · exact different
    · intro inner outer held held'
      rw [here] at held
      rw [there] at held'
      exact .inl (Option.some.inj (held.symm.trans held'))
  · rw [enclosing, enclosingUpTo_eq]
    apply (pairwise_enclosingUpTo table.parent? _ scope).imp
    intro nearer farther encloses i here j there
    rw [built.nesting.mem_children] at here there
    constructor
    · intro same
      rw [same, there] at here
      have lower := built.nesting.lt_of_encloses encloses
      exact Nat.ne_of_lt lower (Option.some.inj here)
    · intro inner outer held held'
      obtain rfl := Option.some.inj (here.symm.trans held)
      obtain rfl := Option.some.inj (there.symm.trans held')
      exact .inr encloses

/-- What the scopes around a scope hold, it does not enclose. -/
theorem not_encloses_of_around {holder : Nat} (held : table.parent? i = some holder)
    (around : Encloses table.parent? holder scope) : ¬ Encloses table.parent? scope i := by
  intro inside
  have lower := built.nesting.lt_of_encloses around
  rcases (Encloses.iff_of_parent held).1 inside with same | further
  · omega
  · have higher := built.nesting.lt_of_encloses further
    omega

/-- The parts of a scope next to one do not reach into what is held around that one. -/
theorem not_encloses_of_sibling {holder sibling outer : Nat}
    (here : table.parent? scope = some holder) (there : table.parent? sibling = some holder)
    (held : table.parent? i = some outer) (around : Encloses table.parent? outer scope) :
    ¬ Encloses table.parent? sibling i := by
  intro inside
  apply built.nesting.not_encloses_sibling there here
  rcases (Encloses.iff_of_parent held).1 inside with rfl | further
  · exact around
  · exact further.trans around

theorem nodup_descendants (scope : Nat) : (table.descendants scope).Nodup := by
  rw [descendants, descendantsUpTo_eq]
  exact built.nesting.nodup_nestedUpTo _ scope

theorem nodup_visibleFrom (scope : Nat) (kind : SymbolKind) :
    (table.visibleFrom scope kind).Nodup := by
  apply List.Nodup.filter
  apply List.nodup_append.2
  use built.nodup_descendants scope, built.pairwise_around.imp And.left
  intro i within j around same
  rw [same, built.mem_descendants_iff] at within
  obtain ⟨holder, held, encloses⟩ := built.mem_around_iff.1 around
  exact built.not_encloses_of_around held encloses within

/-- From each scope of a table one sees what it encloses and what the scopes around it hold. -/
theorem shows_visibleFrom (scope : Nat) (kind : SymbolKind) :
    table.Shows scope kind (table.visibleFrom scope kind) := by
  have visible : ∀ i, i ∈ table.visibleFrom scope kind ↔ table.isA kind i = true ∧
      (Encloses table.parent? scope i ∨
        ∃ holder, table.parent? i = some holder ∧ Encloses table.parent? holder scope) := by
    intro i
    rw [visibleFrom, List.mem_filter, List.mem_append, built.mem_descendants_iff,
      built.mem_around_iff, and_comm]
  constructor
  · exact visible
  · exact built.nodup_visibleFrom scope kind
  · use (table.descendants scope).filter (table.isA kind),
      ((table.enclosing scope).flatMap table.children).filter (table.isA kind)
    constructor
    · exact List.filter_append ..
    constructor
    · intro i member
      exact built.mem_descendants_iff.1 (List.mem_of_mem_filter member)
    constructor
    · intro i member
      exact built.mem_around_iff.1 (List.mem_of_mem_filter member)
    · exact (built.pairwise_around.imp And.right).filter _
  · intro holder sibling here there different i within member
    rcases ((visible i).1 member).2 with inside | ⟨outer, held, around⟩
    · exact different (built.nesting.eq_of_siblings there here (.inr within) (.inr inside))
    · exact built.not_encloses_of_sibling here there held around within

end Built

namespace Interleaved

/-! Two classes that are filled by turns, with a function in the first. -/

def classes : SymbolTable :=
  ((((((SymbolTable.empty.add { kind := .classLike, name := "first" } 0).add
    { kind := .classLike, name := "second" } 0).add
    { kind := .function, name := "method" } 1).add
    { kind := .variable, name := "other" } 2).add
    { kind := .variable, name := "own" } 1).add
    { kind := .parameter, name := "argument" } 3).add
    { kind := .variable, name := "outermost" } 0

theorem visible_from_method : classes.visibleFrom 3 .variable = [6, 5, 7] ∧
    classes.Built ∧ classes.Shows 3 .variable [6, 5, 7] := by
  have built : classes.Built := by
    have first := Built.empty.add 0 (by decide) .classLike "first" none
    have both := first.add 0 (by decide) .classLike "second" none
    have method := both.add 1 (by decide) .function "method" none
    have other := method.add 2 (by decide) .variable "other" none
    have own := other.add 1 (by decide) .variable "own" none
    have argument := own.add 3 (by decide) .parameter "argument" none
    exact argument.add 0 (by decide) .variable "outermost" none
  have found : classes.visibleFrom 3 .variable = [6, 5, 7] := by decide
  have shows := built.shows_visibleFrom 3 .variable
  rw [found] at shows
  exact ⟨found, built, shows⟩

end Interleaved

end SymbolTable

namespace Declared

open SymbolTable

/-- Declarations enter symbols into scopes of a table, which remain scopes. -/
structure Grows (state later : Declared) : Prop where
  built : later.table.Built
  scopes : ∀ i, state.table.isScope i = true → later.table.isScope i = true

variable (declarations : Declarations) (tree : ParseTree) {state later : Declared} {scope : Nat}

theorem Grows.trans {last : Declared} (first : Grows state later) (second : Grows later last) :
    Grows state last where
  built := second.built
  scopes i holds := second.scopes i (first.scopes i holds)

theorem grows_declare (i : Nat) (built : state.table.Built) (holds : state.table.isScope scope = true) :
    Grows state (declare declarations tree state scope i).1 ∧
      (declare declarations tree state scope i).1.table.isScope
        (declare declarations tree state scope i).2 = true := by
  have known := lt_size_of_isScope holds
  rcases declare_cases declarations tree state scope i with
    ⟨-, -, table, inner⟩ | ⟨declaration, -, -, -, table, inner⟩
  · constructor
    · constructor
      · exact table ▸ built
      · exact fun j => table ▸ id
    · rw [table, inner]
      exact holds
  · constructor
    · constructor
      · rw [table]
        exact built.add scope holds ..
      · rw [table]
        exact fun j => isScope_add _ known
    · rw [table, inner]
      split
      · next opens =>
          rw [isScope, kind?, symbol?_add_size _ _ known]
          exact opens
      · exact isScope_add _ known holds

theorem grows_declareBelow (depth i : Nat) (built : state.table.Built)
    (holds : state.table.isScope scope = true) :
    Grows state (declareBelow declarations tree depth state scope i) := by
  induction depth generalizing state scope i with
  | zero => exact ⟨built, fun _ => id⟩
  | succ depth ih =>
      obtain ⟨declared, opens⟩ := grows_declare declarations tree i built holds
      have below : ∀ (children : List Nat) (state : Declared) (scope : Nat), state.table.Built →
          state.table.isScope scope = true → Grows state (children.foldl
            (fun state child => declareBelow declarations tree depth state scope child) state) := by
        intro children
        induction children with
        | nil => exact fun _ _ built _ => ⟨built, fun _ => id⟩
        | cons child rest ih' =>
            intro state scope built holds
            have first := ih child built holds
            exact first.trans (ih' _ scope first.built (first.scopes scope holds))
      exact declared.trans (below _ _ _ declared.built opens)

end Declared

/-- So what is visible from the scopes of a text is what `Shows` says. -/
theorem ParseTree.built_symbolTable (declarations : Declarations) (tree : ParseTree) :
    (tree.symbolTable declarations).Built :=
  (Declared.grows_declareBelow declarations tree tree.size 0 .empty (by decide)).built

end Typeahead
