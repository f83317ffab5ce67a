import Typeahead.Automaton.Kernel

namespace Typeahead

/-! The states of the parser, numbered, and the moves between them. -/

structure State where
  items : OrderedSet DottedRule
  /-- The number of the state to which a symbol leads. -/
  moves : Grouping String Nat

/-- The state that `symbol` leads to. -/
def State.move? (state : State) (symbol : String) : Option Nat := (state.moves.get symbol).head?

abbrev States := Array State

namespace States

def ofRules (table : RuleTable) : States :=
  let kernels := Kernel.reachable table
  kernels.elements.map fun kernel =>
    { items := kernel.items table
      moves := .ofList ((kernel.successors table).filterMap fun (symbol, next) =>
        (kernels.indexOf? next).map (symbol, ·)) }

/-- The state to which a symbol leads from state `s`. -/
def move? (states : States) (s : Nat) (symbol : String) : Option Nat :=
  states[s]?.bind (·.move? symbol)

/-- The symbols that lead on from state `s`. -/
def symbolsFrom (states : States) (s : Nat) : List String :=
  match states[s]? with
  | some state => state.moves.keys.toList
  | none => []

/-- The state to which a row of symbols leads from state `s`. -/
def spell? (states : States) (s : Nat) : List String → Option Nat
  | [] => some s
  | symbol :: rest => (states.move? s symbol).bind (states.spell? · rest)

end States

end Typeahead
