import Typeahead.Text.Quoted

namespace Typeahead

/-! Declared symbols and their kinds. -/

inductive SymbolKind where
  | plain
  | scope
  | variable
  | parameter
  | function
  | classLike
  | block
  /-- An element of an architecture model; elements hold other elements. -/
  | element
  /-- The scope that holds all others. -/
  | global
deriving DecidableEq, Repr

namespace SymbolKind

/-- Whether symbols of the kind hold other symbols. -/
def isScoped : SymbolKind → Bool
  | .plain | .variable | .parameter => false
  | .scope | .function | .classLike | .block | .element | .global => true

/-- Whether a symbol of the first kind is one of the second too. -/
def isA (kind general : SymbolKind) : Bool :=
  match general with
  | .plain => true
  | .scope => kind.isScoped
  | .variable => kind == .variable || kind == .parameter
  | _ => kind == general

def name : SymbolKind → String
  | .plain => "Symbol"
  | .scope => "ScopedSymbol"
  | .variable => "VariableSymbol"
  | .parameter => "ParameterSymbol"
  | .function => "FunctionSymbol"
  | .classLike => "ClassSymbol"
  | .block => "BlockSymbol"
  | .element => "ElementSymbol"
  | .global => "SymbolTable"

/-- The kinds that a declaration can have. -/
def declarable : List SymbolKind :=
  [.plain, .scope, .variable, .parameter, .function, .classLike, .block, .element]

def ofName? (text : String) : Option SymbolKind := declarable.find? (·.name == text)

end SymbolKind

structure Symbol where
  kind : SymbolKind
  name : String
  /-- The node that declares the symbol. -/
  context : Option Int := none
  /-- The scope that holds the symbol. -/
  parent : Option Nat := none
  /-- The symbols that a scope holds, in the order of their declaration. -/
  children : List Nat := []
deriving DecidableEq, Repr

def Symbol.describe (symbol : Symbol) : String :=
  s!"{symbol.kind.name}({Text.quoted symbol.name})"

end Typeahead
