import Typeahead.Symbol

namespace Typeahead

/-! Symbol tables: all symbols of a text, nested in scopes.  Symbols name each other by position;
the first one is the global scope. -/

structure SymbolTable where
  symbols : Array Symbol
  /-- The scopes by the nodes that opened them, the latest first. -/
  opened : List (Int × Nat)
deriving DecidableEq, Repr

namespace SymbolTable

def empty : SymbolTable := ⟨#[{ kind := .global, name := "" }], []⟩

def symbol? (table : SymbolTable) (i : Nat) : Option Symbol := table.symbols[i]?

def kind? (table : SymbolTable) (i : Nat) : Option SymbolKind := (table.symbol? i).map (·.kind)

def isScope (table : SymbolTable) (i : Nat) : Bool := (table.kind? i).any (·.isScoped)

def isA (table : SymbolTable) (kind : SymbolKind) (i : Nat) : Bool :=
  (table.kind? i).any (·.isA kind)

def parent? (table : SymbolTable) (i : Nat) : Option Nat := (table.symbol? i).bind (·.parent)

def children (table : SymbolTable) (i : Nat) : List Nat :=
  match table.symbol? i with
  | some symbol => symbol.children
  | none => []

/-- Takes up a symbol that names `scope` as its parent, without listing it there. -/
def append (table : SymbolTable) (symbol : Symbol) (scope : Nat) : SymbolTable :=
  { table with symbols := table.symbols.push { symbol with parent := some scope } }

/-- Declares a symbol in a scope; its position is that after the symbols so far.  A scope is known
by the node that declares it. -/
def add (table : SymbolTable) (symbol : Symbol) (scope : Nat) : SymbolTable :=
  let position := table.symbols.size
  let listed := table.append symbol scope
  { symbols := listed.symbols.modify scope fun s => { s with children := s.children ++ [position] }
    opened :=
      match symbol.kind.isScoped, symbol.context with
      | true, some node => (node, position) :: table.opened
      | _, _ => table.opened }

@[simp]
theorem size_append (table : SymbolTable) (symbol : Symbol) (scope : Nat) :
    (table.append symbol scope).symbols.size = table.symbols.size + 1 := by
  simp [append]

@[simp]
theorem size_add (table : SymbolTable) (symbol : Symbol) (scope : Nat) :
    (table.add symbol scope).symbols.size = table.symbols.size + 1 := by
  simp [add]

/-- The symbols below `i`, down to `depth` levels. -/
def descendantsUpTo (table : SymbolTable) : (depth : Nat) → Nat → List Nat
  | 0, _ => []
  | depth + 1, i =>
      (table.children i).flatMap fun child => child :: table.descendantsUpTo depth child

/-- The symbols nested in a scope, each before those nested in it, in the order of declaration. -/
def descendants (table : SymbolTable) (scope : Nat) : List Nat :=
  table.descendantsUpTo table.symbols.size scope

/-- The scopes around `i`, innermost first, at most `fuel` of them. -/
def enclosingUpTo (table : SymbolTable) : (fuel : Nat) → Nat → List Nat
  | 0, _ => []
  | fuel + 1, i =>
      match table.parent? i with
      | some parent => parent :: table.enclosingUpTo fuel parent
      | none => []

/-- The scopes around a symbol, innermost first. -/
def enclosing (table : SymbolTable) (i : Nat) : List Nat :=
  table.enclosingUpTo table.symbols.size i

/-- The scope that a node opened. -/
def scopeFor? (table : SymbolTable) (node : Int) : Option Nat :=
  (table.opened.find? (·.1 == node)).map (·.2)

/-- All symbols of a kind: each scope's in the order of declaration, with those nested in a symbol
directly behind it. -/
def symbolsOfKind (table : SymbolTable) (kind : SymbolKind) : List Nat :=
  (table.descendants 0).filter (table.isA kind)

/-- The symbols of a kind that are visible from a scope: those nested in it, then what each scope
around it holds directly, innermost first. -/
def visibleFrom (table : SymbolTable) (scope : Nat) (kind : SymbolKind) : List Nat :=
  (table.descendants scope ++ (table.enclosing scope).flatMap table.children).filter
    (table.isA kind)

def nameOf (table : SymbolTable) (i : Nat) : String :=
  match table.symbol? i with
  | some symbol => symbol.name
  | none => ""

def describe (table : SymbolTable) : String := s!"SymbolTable({table.symbols.size - 1} symbols)"

end SymbolTable

end Typeahead
