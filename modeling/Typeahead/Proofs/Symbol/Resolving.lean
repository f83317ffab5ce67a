import Typeahead.Proofs.Symbol.Scopes
import Typeahead.Proofs.Symbol.Stacked

namespace Typeahead

/-!
The scopes that the builder of a symbol table hands down from a node to its children are those that
the way up from a node finds again.
-/

namespace ParseTree

open Declarations

/-- The name that a node gives by the rule for names: the text of the first child of that rule.  A
missing child gives an empty name, and so does a declaration without such a rule. -/
inductive Names (tree : ParseTree) (i : Nat) : Option String → String → Prop where
  | anonymous : Names tree i none ""
  | child {rule : String} {child : Nat} (found : tree.findChild? i (some rule) = some child) :
      Names tree i (some rule) (tree.text child)
  | missing {rule : String} (absent : tree.findChild? i (some rule) = none) :
      Names tree i (some rule) ""

/-- Whether a node creates a symbol.  One that opens no scope needs a name where its declaration has
a rule for names. -/
def Creates (declarations : Declarations) (tree : ParseTree) (i : Nat) : Prop :=
  ∃ declaration, declarations.ofNode? tree i = some declaration ∧
    ¬(declaration.kind.isScoped = false ∧
      ∃ rule, declaration.nameRule = some rule ∧ tree.Names i (some rule) "")

/-- A table says of each node of a tree what its declaration does. -/
structure Resolves (declarations : Declarations) (tree : ParseTree) (table : SymbolTable) :
    Prop where
  /-- It is what a stack of nodes builds, on which each has the scope that it stands in. -/
  stacked : ∀ steps, tree.size ≤ steps →
    (Declared.declareStacked declarations tree steps .empty [(0, 0)]).table = table
  global : ∃ children, table.symbol? 0 = some { kind := .global, name := "", children }
  contexts : ∃ nodes : List Nat, nodes.Sublist (tree.walk 0) ∧
    (∀ i, i ∈ nodes ↔ i ∈ tree.walk 0 ∧ tree.Creates declarations i) ∧
    table.symbols.toList.map (·.context) = none :: nodes.map fun i : Nat => some (i : Int)
  once : (table.symbols.toList.map (·.context)).Nodup
  declared : ∀ s symbol (i : Nat), table.symbol? s = some symbol → symbol.context = some i →
    ∃ declaration, declarations.ofNode? tree i = some declaration ∧
      symbol.kind = declaration.kind ∧ tree.Names i declaration.nameRule symbol.name
  scopes : ∀ (n : Int) s, table.scopeFor? n = some s ↔
    (∃ i ∈ tree.walk 0, n = i ∧ declarations.opens tree i = true) ∧
      ∃ symbol, table.symbol? s = some symbol ∧ symbol.context = some n
  parents : ∀ s symbol (i : Nat), table.symbol? s = some symbol → symbol.context = some i →
    symbol.parent = some (((tree.parent? i).bind (tree.resolveScope? table)).getD 0)
  resolved : ∀ i ∈ tree.walk 0, tree.resolveScope? table i =
    ((tree.ancestors i).find? (declarations.opens tree)).bind fun j : Nat => table.scopeFor? j

theorem names_nameIn (declaration : Declaration) (tree : ParseTree) (i : Nat) :
    tree.Names i declaration.nameRule (declaration.nameIn tree i) := by
  unfold Declaration.nameIn
  cases declaration.nameRule with
  | none => exact .anonymous
  | some rule =>
      simp only
      split
      · next child found => exact .child found
      · next absent => exact .missing absent

/-- A node gives one name. -/
theorem Names.unique {tree : ParseTree} {i : Nat} {nameRule : Option String} {name other : String}
    (names : tree.Names i nameRule name) (names' : tree.Names i nameRule other) : name = other := by
  cases names with
  | anonymous =>
      cases names'
      rfl
  | child found =>
      cases names' with
      | child found' => rw [Option.some.inj (found.symm.trans found')]
      | missing absent => simp [found] at absent
  | missing absent =>
      cases names' with
      | child found => simp [found] at absent
      | missing _ => rfl

/-- A declaration is left out just where it needs a name and the node gives an empty one. -/
theorem isUnnamed_iff (declaration : Declaration) (tree : ParseTree) (i : Nat) :
    declaration.isUnnamed tree i = true ↔ declaration.kind.isScoped = false ∧
      ∃ rule, declaration.nameRule = some rule ∧ tree.Names i (some rule) "" := by
  have names := names_nameIn declaration tree i
  simp only [Declaration.isUnnamed, Bool.and_eq_true, Bool.not_eq_true', beq_iff_eq]
  constructor
  · intro ⟨⟨asked, plain⟩, empty⟩
    obtain ⟨rule, same⟩ := Option.isSome_iff_exists.1 asked
    rw [same, empty] at names
    exact ⟨plain, rule, same, names⟩
  · intro ⟨plain, rule, same, given⟩
    rw [same] at names
    exact ⟨⟨Option.isSome_of_eq_some same, plain⟩, names.unique given⟩

theorem declares_iff_creates {declarations : Declarations} {tree : ParseTree} {i : Nat} :
    declarations.declares tree i = true ↔ tree.Creates declarations i := by
  unfold declares Creates
  cases declarations.ofNode? tree i with
  | none => simp
  | some declaration => simp [← isUnnamed_iff]

namespace Rooted

variable {declarations : Declarations} {tree : ParseTree} (rooted : tree.Rooted) {i s : Nat}

include rooted

theorem nodup_declaring : (declarations.declaring tree).Nodup := rooted.nodup_walk.filter _

theorem rank_getElem {k : Nat} (there : (declarations.declaring tree)[k]? = some i) :
    declarations.rank tree i = k + 1 := by
  obtain ⟨inside, rfl⟩ := List.getElem?_eq_some_iff.1 there
  rw [rank, rooted.nodup_declaring.idxOf_getElem k inside]

/-- Behind the global scope the symbols stand in the order of the nodes that declare them. -/
theorem symbol?_succ (k : Nat) : (tree.symbolTable declarations).symbol? (k + 1) =
    (declarations.declaring tree)[k]?.bind fun i =>
      (declarations.ofNode? tree i).map (declarations.entry tree (tree.walk 0) i) := by
  cases there : (declarations.declaring tree)[k]? with
  | none =>
      have late : (declarations.declaring tree).length ≤ k := List.getElem?_eq_none_iff.1 there
      have size : (tree.symbolTable declarations).symbols.size =
          (declarations.declaring tree).length + 1 := rooted.records_symbolTable.size
      rw [SymbolTable.symbol?, Array.getElem?_eq_none (by rw [size]; exact Nat.succ_le_succ late)]
      rfl
  | some i =>
      have listed : i ∈ declarations.declaring tree := List.mem_of_getElem? there
      obtain ⟨reached, speaks⟩ := List.mem_filter.1 listed
      obtain ⟨declaration, found, entry⟩ := rooted.exists_entry reached speaks
      rw [← rooted.rank_getElem there, entry, Option.bind_some, found]
      rfl

/-- A symbol with a context stands at the position of its node. -/
theorem exists_of_context {symbol : Symbol}
    (there : (tree.symbolTable declarations).symbol? s = some symbol)
    (context : symbol.context = some (i : Int)) :
    i ∈ declarations.declaring tree ∧ s = declarations.rank tree i ∧
      ∃ declaration, declarations.ofNode? tree i = some declaration ∧
        symbol = declarations.entry tree (tree.walk 0) i declaration := by
  cases s with
  | zero =>
      rw [rooted.records_symbolTable.global] at there
      obtain rfl := Option.some.inj there
      cases context
  | succ k =>
      rw [rooted.symbol?_succ] at there
      obtain ⟨node, listed, made⟩ := Option.bind_eq_some_iff.1 there
      obtain ⟨declaration, found, rfl⟩ := Option.map_eq_some_iff.1 made
      have same : node = i := Int.ofNat.inj (Option.some.inj context)
      subst same
      exact ⟨List.mem_of_getElem? listed, (rooted.rank_getElem listed).symm, declaration, found, rfl⟩

theorem contexts_symbolTable : (tree.symbolTable declarations).symbols.toList.map (·.context) =
    none :: (declarations.declaring tree).map fun i : Nat => some (i : Int) := by
  have look : ∀ k, (tree.symbolTable declarations).symbols.toList[k]? =
      (tree.symbolTable declarations).symbol? k := fun k => Array.getElem?_toList
  apply List.ext_getElem?
  intro k
  rw [List.getElem?_map, look]
  cases k with
  | zero =>
      rw [rooted.records_symbolTable.global]
      rfl
  | succ k =>
      rw [rooted.symbol?_succ, List.getElem?_cons_succ, List.getElem?_map]
      cases there : (declarations.declaring tree)[k]? with
      | none => rfl
      | some i =>
          obtain ⟨reached, speaks⟩ := List.mem_filter.1 (List.mem_of_getElem? there)
          obtain ⟨declaration, found, -⟩ := rooted.exists_entry reached speaks
          rw [Option.bind_some, found]
          rfl

/-- Only nodes of the tree open scopes. -/
theorem exists_of_scopeFor? {n : Int}
    (found : (tree.symbolTable declarations).scopeFor? n = some s) :
    ∃ i ∈ tree.walk 0, n = i ∧ declarations.opens tree i = true := by
  rw [SymbolTable.scopeFor?, rooted.records_symbolTable.opened] at found
  obtain ⟨pair, held, -⟩ := Option.map_eq_some_iff.1 found
  have member := List.mem_of_find?_eq_some held
  rw [List.mem_reverse] at member
  obtain ⟨i, listed, rfl⟩ := List.mem_map.1 member
  obtain ⟨reached, opens⟩ := List.mem_filter.1 listed
  have same : (i : Int) = n := by simpa using List.find?_some held
  exact ⟨i, reached, same.symm, opens⟩

/-- Builder and resolver agree: each node that declares a symbol has its own, in the order of the
walk, in the scope that is found from its parent upwards. -/
theorem resolves (declarations : Declarations) :
    Resolves declarations tree (tree.symbolTable declarations) where
  stacked := by
    intro steps enough
    rw [Declared.declareStacked_root rooted.wellFormed enough]
    rfl
  global := ⟨_, rooted.records_symbolTable.global⟩
  contexts := by
    refine ⟨declarations.declaring tree, List.filter_sublist, ?_, rooted.contexts_symbolTable⟩
    intro i
    rw [declaring, List.mem_filter, declares_iff_creates]
  once := by
    rw [rooted.contexts_symbolTable, List.nodup_cons]
    constructor
    · simp
    · refine rooted.nodup_declaring.map fun i j same => ?_
      exact Int.ofNat.inj (Option.some.inj same)
  declared := by
    intro s symbol i there context
    obtain ⟨-, -, declaration, found, rfl⟩ := rooted.exists_of_context there context
    exact ⟨declaration, found, rfl, names_nameIn declaration tree i⟩
  scopes := by
    intro n s
    constructor
    · intro found
      obtain ⟨i, reached, rfl, opens⟩ := rooted.exists_of_scopeFor? found
      rw [rooted.scopeFor?_eq reached, opens] at found
      obtain rfl := Option.some.inj found
      obtain ⟨declaration, -, entry⟩ := rooted.exists_entry reached (declares_of_opens opens)
      exact ⟨⟨i, reached, rfl, opens⟩, _, entry, rfl⟩
    · intro given
      obtain ⟨⟨i, reached, rfl, opens⟩, symbol, there, context⟩ := given
      obtain ⟨-, rfl, -⟩ := rooted.exists_of_context there context
      rw [rooted.scopeFor?_eq reached, opens]
      rfl
  parents := by
    intro s symbol i there context
    obtain ⟨listed, -, declaration, -, rfl⟩ := rooted.exists_of_context there context
    have reached : i ∈ tree.walk 0 := List.mem_of_mem_filter listed
    show some (declarations.rankOf tree (declarations.home? tree i)) = _
    rw [home?]
    cases held : tree.parent? i with
    | none => rfl
    | some parent =>
        have known := (rooted.ancestors_eq reached).2 parent held
        rw [Option.bind_some, Option.bind_some, rooted.resolveScope?_eq known]
        cases declarations.owner? tree parent with
        | none => rfl
        | some owner => rfl
  resolved := by
    intro i reached
    rw [rooted.resolveScope?_eq reached, owner?]
    cases found : (tree.ancestors i).find? (declarations.opens tree) with
    | none => rfl
    | some owner =>
        have above := List.mem_of_find?_eq_some found
        have known := ((rooted.mem_ancestors_iff reached).1 above).1
        have opens := List.find?_some found
        rw [Option.bind_some, rooted.scopeFor?_eq known, opens]
        rfl

end Rooted

namespace Nameless

/-! A class with two variables, one of which has a name that the parser made up and so declares
nothing, and with a function between them. -/

def file : SyntaxTree := .node "file" [.node "class" [
  .node "variable" [.node "name" [.leaf (.conjured "NAME" 0)]], .node "function" [],
  .node "variable" [.node "name" [.leaf (.token 0)]]]]

def token : Leaf → Token
  | .token index => ⟨1, "x", some index, 1, 0, 0, false, false⟩
  | .conjured .. => ⟨1, "", none, 1, 0, 0, false, false⟩

def tree : ParseTree := ⟨(file.nodes token none 0).toArray⟩

def declarations : Declarations :=
  [("class", ⟨.classLike, none⟩), ("variable", ⟨.variable, some "name"⟩),
    ("function", ⟨.function, some "name"⟩)]

theorem rooted : tree.Rooted := by
  refine ⟨⟨file.outline token 0, rfl, ?_, ?_⟩, rfl, by decide⟩
  · exact file.depicts_outline token none 0 [] [] (by simp [tree]) rfl
  · rw [SyntaxTree.places_outline]
    exact List.nodup_range'

theorem contexts_of_symbols : tree.Rooted ∧
    Resolves declarations tree (tree.symbolTable declarations) ∧
    (tree.symbolTable declarations).symbols.toList.map (fun symbol => (symbol.context, symbol.name)) =
      [(none, ""), (some 1, ""), (some 5, ""), (some 6, "x")] := by
  have resolves := rooted.resolves declarations
  refine ⟨rooted, resolves, ?_⟩
  rw [← resolves.stacked tree.size (Nat.le_refl _)]
  decide

end Nameless

end ParseTree

end Typeahead
