import Typeahead.Automaton.State

namespace Typeahead

/-!
The terminals that may follow a production where it ends.  They are found through the moves of the
automaton by rule names: a move reads what can be taken just after it, and whatever follows a rule
follows the last symbols of its productions.
-/

/-- The terminal that stands for the end of the input. -/
def endMarker : String := "$END"

/-- A move by a rule name from a state. -/
structure RuleMove where
  state : Nat
  rule : String
deriving DecidableEq, Hashable, Repr

namespace RuleMove

variable (table : RuleTable) (states : States)

def all : List RuleMove :=
  (List.range states.size).flatMap fun s =>
    ((states.symbolsFrom s).filter fun symbol => !(table.productionsOf symbol).isEmpty).map (⟨s, ·⟩)

/-- The symbols that can be read just after a move. -/
def symbolsAfter (move : RuleMove) : List String :=
  match states.move? move.state move.rule with
  | some next => states.symbolsFrom next
  | none => []

/-- The terminals that can be read just after a move, and the end of the input after the move by
the start rule. -/
def terminalsAfter (move : RuleMove) : List String :=
  (if move = ⟨0, table.start⟩ then [endMarker] else []) ++
    (move.symbolsAfter states).filter table.isTerminal

/-- The moves by nullable rules just after a move. -/
def emptyAfter (move : RuleMove) : List RuleMove :=
  match states.move? move.state move.rule with
  | some next => ((states.symbolsFrom next).filter table.isNullable).map (⟨next, ·⟩)
  | none => []

/-- The moves inside a production of `outer` that its end may follow, each with `outer`; the
production's remaining symbols are read from state `s`. -/
def endings (outer : RuleMove) (s : Nat) : List String → List (RuleMove × RuleMove)
  | [] => []
  | symbol :: rest =>
      (if !(table.productionsOf symbol).isEmpty && rest.all table.isNullable then
        [(⟨s, symbol⟩, outer)] else []) ++
      match states.move? s symbol with
      | some next => endings outer next rest
      | none => []

/-- For each move the outer moves whose followers follow it too. -/
def outerMoves : Grouping RuleMove RuleMove :=
  .ofList ((all table states).flatMap fun outer =>
    (table.productionsOf outer.rule).flatMap fun p =>
      endings table states outer outer.state (table.symbols p))

/-- For each state and each production that ends there, the moves that its reduction makes. -/
def reductionMoves : Grouping (Nat × Nat) RuleMove :=
  .ofList ((all table states).flatMap fun outer =>
    (table.productionsOf outer.rule).filterMap fun p =>
      (states.spell? outer.state (table.symbols p)).map fun s => ((s, p), outer))

/-- The terminals that may follow after one of the moves. -/
def followers (outer : Grouping RuleMove RuleMove) (moves : List RuleMove) : OrderedSet String :=
  let bound := states.size * table.byOrigin.keys.size
  let enclosing := (OrderedSet.ofList moves).saturate outer.get bound
  let reading := enclosing.saturate (emptyAfter table states) bound
  .ofList (reading.toList.flatMap (terminalsAfter table states))

end RuleMove

/-- The productions that end in state `s`, by the terminals that may follow them there. -/
def reductionsIn (table : RuleTable) (states : States) (outer : Grouping RuleMove RuleMove)
    (moves : Grouping (Nat × Nat) RuleMove) (s : Nat) (state : State) : Grouping String Nat :=
  .ofList ((state.items.toList.filter fun rule =>
      rule.production < table.productions.size && (table.symbolAfter? rule).isNone).flatMap
    fun rule =>
      (RuleMove.followers table states outer (moves.get (s, rule.production))).toList.map
        (·, rule.production))

def lookaheadReductions (table : RuleTable) (states : States) : Array (Grouping String Nat) :=
  let outer := RuleMove.outerMoves table states
  let moves := RuleMove.reductionMoves table states
  states.mapIdx (reductionsIn table states outer moves)

end Typeahead
