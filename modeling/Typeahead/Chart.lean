import Typeahead.RuleTable

namespace Typeahead

/-!
Charts: which productions can be open after each terminal of an input.  A nullable symbol is
stepped over where it is predicted.  A terminal that no open production can take is skipped: the
column in front of it is carried on.
-/

/-- A dotted rule whose production was entered in column `origin`. -/
structure Item extends DottedRule where
  origin : Nat
deriving DecidableEq, Hashable, Repr

def Item.advance (item : Item) : Item := { item with dot := item.dot + 1 }

abbrev Column := OrderedSet Item

namespace Column

/-- The items of a column that wait for `symbol`, moved past it. -/
def advanceOver (table : RuleTable) (column : Column) (symbol : String) : List Item :=
  (column.toList.filter fun item => table.symbolAt? item.toDottedRule == some symbol).map
    Item.advance

/-- What an item adds to its own column, of which `column` is what is known so far.  The columns
in front are `before`. -/
def predictions (table : RuleTable) (before : Array Column) (column : Column) (item : Item) :
    List Item :=
  match table.productions[item.production]? with
  | none => []
  | some production =>
      match production.symbols[item.dot]? with
      | none => advanceOver table (before.getD item.origin column) production.origin
      | some symbol =>
          if table.isTerminal symbol then
            []
          else
            (table.productionsOf symbol).map (fun p => ⟨⟨p, 0⟩, before.size⟩) ++
              if table.isNullable symbol then [item.advance] else []

/-- Visits the items from position `done` on, adding what each of them predicts or completes. -/
def closeFrom (table : RuleTable) (before : Array Column) : Nat → Nat → Column → Column
  | 0, _, column => column
  | fuel + 1, done, column =>
      match column.elements[done]? with
      | none => column
      | some item =>
          closeFrom table before fuel (done + 1)
            (column.insertAll (predictions table before column item))

/-- The column that grows from `seed` after the columns `before`. -/
def close (table : RuleTable) (before : Array Column) (seed : Column) : Column :=
  closeFrom table before (table.dottedRuleCount * (before.size + 1)) 0 seed

/-- The column after a terminal: the items that can take it. -/
def scan (table : RuleTable) (column : Column) (name : String) : Column :=
  if table.isTerminal name then .ofList (advanceOver table column name) else ∅

end Column

structure Chart where
  /-- The columns in front of the last one. -/
  before : Array Column
  last : Column
  /-- The positions of the terminals that were skipped. -/
  skipped : Array Nat

namespace Chart

/-- The chart of the empty input. -/
def initial (table : RuleTable) : Chart where
  before := #[]
  last := Column.close table #[] (.ofList ((table.productionsOf table.start).map (⟨⟨·, 0⟩, 0⟩)))
  skipped := #[]

def advance (table : RuleTable) (chart : Chart) (name : String) : Chart :=
  let before := chart.before.push chart.last
  let scanned := Column.scan table chart.last name
  if scanned.isEmpty then
    { before, last := Column.close table before chart.last,
      skipped := chart.skipped.push chart.before.size }
  else
    { before, last := Column.close table before scanned, skipped := chart.skipped }

/-- The chart of an input. -/
def recognize (table : RuleTable) (names : List String) : Chart :=
  names.foldl (advance table) (initial table)

def columns (chart : Chart) : Array Column := chart.before.push chart.last

end Chart

end Typeahead
