import Typeahead.Production
import Typeahead.Data.Grouping
import Typeahead.Text.Quoted

namespace Typeahead

/-!
Rule tables: the productions of a grammar with their numbers by origin and the symbols that
derive the empty string.
-/

/-- Adds the origin of each production whose symbols are all known to be nullable. -/
def nullableRound (productions : List Production) (known : OrderedSet String) :
    OrderedSet String :=
  productions.foldl
    (fun known production =>
      if production.symbols.all known.contains then known.insert production.origin else known)
    known

/-- Rounds up to the first that adds nothing. -/
def nullableFrom (productions : List Production) : Nat → OrderedSet String → OrderedSet String
  | 0, known => known
  | fuel + 1, known =>
      let extended := nullableRound productions known
      if extended.size = known.size then known else nullableFrom productions fuel extended

/-- The symbols from which the productions derive the empty string. -/
def nullableSymbols (productions : List Production) : OrderedSet String :=
  nullableFrom productions productions.length ∅

/-- The numbers of the productions by origin. -/
def productionsByOrigin (productions : List Production) : Grouping String Nat :=
  .ofList (productions.zipIdx.map fun (production, i) => (production.origin, i))

structure RuleTable where
  productions : Array Production
  terminals : OrderedSet String
  start : String
  byOrigin : Grouping String Nat
  nullable : OrderedSet String
  byOrigin_eq : byOrigin = productionsByOrigin productions.toList
  nullable_eq : nullable = nullableSymbols productions.toList

namespace RuleTable

def ofProductions (productions : List Production) (terminals : List String) (start : String) :
    RuleTable where
  productions := productions.toArray
  terminals := .ofList terminals
  start := start
  byOrigin := productionsByOrigin productions
  nullable := nullableSymbols productions
  byOrigin_eq := rfl
  nullable_eq := rfl

/-- The symbols that occur on the right of some production. -/
def usedSymbols (productions : List Production) : List String := productions.flatMap (·.symbols)

/-- The productions that are used from `start`, directly or through others. -/
def usedFrom (productions : List Production) (start : String) : List Production :=
  let used := (OrderedSet.ofList [start]).saturate
    (fun symbol => usedSymbols (productions.filter (·.origin == symbol)))
    ((usedSymbols productions).length + 1)
  productions.filter fun production => used.contains production.origin

/-- The table in which, of the given terminals, only those in use are terminals. -/
def ofUsed (productions : List Production) (terminals : List String) (start : String) :
    RuleTable :=
  ofProductions productions ((usedSymbols productions).filter terminals.contains) start

/-- The table in which every symbol without a production is a terminal. -/
def closed (productions : List Production) (start : String) : RuleTable :=
  let origins := OrderedSet.ofList (productions.map (·.origin))
  ofProductions productions ((usedSymbols productions).filter (!origins.contains ·)) start

def isTerminal (table : RuleTable) (symbol : String) : Bool := table.terminals.contains symbol

def isNullable (table : RuleTable) (symbol : String) : Bool := table.nullable.contains symbol

/-- The numbers of the productions of `origin`. -/
def productionsOf (table : RuleTable) (origin : String) : List Nat := table.byOrigin.get origin

/-- The symbols of production `p`, none if there is no such production. -/
def symbols (table : RuleTable) (p : Nat) : List String :=
  match table.productions[p]? with
  | some production => production.symbols
  | none => []

/-- The symbol after the dot. -/
def symbolAt? (table : RuleTable) (rule : DottedRule) : Option String :=
  (table.symbols rule.production)[rule.dot]?

/-- The number of dotted rules. -/
def dottedRuleCount (table : RuleTable) : Nat :=
  table.productions.toList.foldl (fun count production => count + production.symbols.length + 1) 0

def describe (table : RuleTable) : String :=
  s!"RuleTable({table.productions.size} productions, start={Text.quoted table.start})"

end RuleTable

end Typeahead
