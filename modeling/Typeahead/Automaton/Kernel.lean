import Typeahead.RuleTable

namespace Typeahead

/-!
The states of the deterministic parser are sets of dotted rules, each given by its kernel: the
rules from which the others follow by entering the rules after a dot.
-/

namespace RuleTable

/-- The number of the goal production, one past the table's own.  Its only symbol is the start. -/
def goal (table : RuleTable) : Nat := table.productions.size

/-- The symbols of a production of the table or of the goal. -/
def body (table : RuleTable) (p : Nat) : List String :=
  if p = table.goal then [table.start] else table.symbols p

/-- The symbol after the dot in a production of the table or of the goal. -/
def symbolAfter? (table : RuleTable) (rule : DottedRule) : Option String :=
  (table.body rule.production)[rule.dot]?

/-- The productions of the symbol after the dot, with the dot in front. -/
def enteredBy (table : RuleTable) (rule : DottedRule) : List DottedRule :=
  match table.symbolAfter? rule with
  | some symbol => (table.productionsOf symbol).map (⟨·, 0⟩)
  | none => []

/-- The number of dotted rules, those of the goal included. -/
def stateItemCount (table : RuleTable) : Nat := table.dottedRuleCount + 2

end RuleTable

/-- A kernel without repetition, in increasing order, so that equal sets are equal lists. -/
abbrev Kernel := List DottedRule

namespace Kernel

def precedes (a b : DottedRule) : Bool :=
  a.production < b.production || (a.production == b.production && a.dot ≤ b.dot)

/-- The kernel of the state in which nothing has been read. -/
def start (table : RuleTable) : Kernel := [⟨table.goal, 0⟩]

/-- All dotted rules of the state. -/
def items (table : RuleTable) (kernel : Kernel) : OrderedSet DottedRule :=
  (OrderedSet.ofList kernel).saturate table.enteredBy table.stateItemCount

/-- The state's rules by the symbol after the dot, moved past it. -/
def moves (table : RuleTable) (kernel : Kernel) : Grouping String DottedRule :=
  .ofList ((kernel.items table).toList.filterMap fun rule =>
    (table.symbolAfter? rule).map (·, rule.advance))

/-- The kernels of the states that follow, each with the symbol that leads there. -/
def successors (table : RuleTable) (kernel : Kernel) : List (String × Kernel) :=
  let moves := kernel.moves table
  moves.keys.toList.map fun symbol => (symbol, (moves.get symbol).mergeSort precedes)

/-- The kernels of all states, that of the start first. -/
def reachable (table : RuleTable) : OrderedSet Kernel :=
  (OrderedSet.ofList [start table]).saturate
    (fun kernel => (kernel.successors table).map (·.2)) (Nat.pow 2 table.stateItemCount)

end Kernel

end Typeahead
