import Typeahead.Symbol.Table
import Typeahead.ParseTree

namespace Typeahead

/-! Which rules of a language declare symbols, and the symbol table of a parse tree. -/

structure Declaration where
  kind : SymbolKind
  /-- The child rule whose text is the symbol's name; scopes such as blocks have none. -/
  nameRule : Option String := none
deriving DecidableEq, Repr

/-- Declarations by rule; of two for one rule the later holds. -/
abbrev Declarations := List (String × Declaration)

namespace Declarations

def find? (declarations : Declarations) (rule : String) : Option Declaration :=
  if rule = "" then none else (declarations.reverse.find? (·.1 == rule)).map (·.2)

/-- The declaration of a node. -/
def ofNode? (declarations : Declarations) (tree : ParseTree) (i : Nat) : Option Declaration :=
  (tree.rule? i).bind declarations.find?

end Declarations

/-- The name that a node gives to the symbol that it declares. -/
def Declaration.nameIn (declaration : Declaration) (tree : ParseTree) (i : Nat) : String :=
  match declaration.nameRule with
  | none => ""
  | some rule =>
      match tree.findChild? i (some rule) with
      | some child => tree.text child
      | none => ""

/-- Whether a node declares nothing after all, because its name was made up by the parser. -/
def Declaration.isUnnamed (declaration : Declaration) (tree : ParseTree) (i : Nat) : Bool :=
  declaration.nameRule.isSome && !declaration.kind.isScoped && declaration.nameIn tree i == ""

/-- A table with the rules of the nodes that were left out for want of a name. -/
structure Declared where
  table : SymbolTable
  unnamed : List String

namespace Declared

def empty : Declared := ⟨.empty, []⟩

/-- Declares what node `i` does in the given scope, and gives the scope of its children. -/
def declare (declarations : Declarations) (tree : ParseTree) (state : Declared) (scope i : Nat) :
    Declared × Nat :=
  match declarations.ofNode? tree i with
  | none => (state, scope)
  | some declaration =>
      if declaration.isUnnamed tree i then
        ({ state with unnamed := state.unnamed ++ (tree.rule? i).toList }, scope)
      else
        let symbol : Symbol :=
          { kind := declaration.kind, name := declaration.nameIn tree i, context := some i }
        ({ state with table := state.table.add symbol scope },
          if declaration.kind.isScoped then state.table.symbols.size else scope)

/-- Declares what node `i` and those below it do, down to `depth` levels. -/
def declareBelow (declarations : Declarations) (tree : ParseTree) :
    (depth : Nat) → Declared → (scope i : Nat) → Declared
  | 0, state, _, _ => state
  | depth + 1, state, scope, i =>
      let (state, inner) := declare declarations tree state scope i
      (tree.children i).foldl
        (fun state child => declareBelow declarations tree depth state inner child) state

end Declared

namespace ParseTree

/-- All that the tree declares, parents before children. -/
def declared (declarations : Declarations) (tree : ParseTree) : Declared :=
  Declared.declareBelow declarations tree tree.size .empty 0 0

def symbolTable (declarations : Declarations) (tree : ParseTree) : SymbolTable :=
  (tree.declared declarations).table

/-- The innermost scope that a node or one of those above it opened. -/
def resolveScope? (tree : ParseTree) (table : SymbolTable) (i : Nat) : Option Nat :=
  (tree.ancestors i).findSome? fun (j : Nat) => table.scopeFor? j

end ParseTree

end Typeahead
