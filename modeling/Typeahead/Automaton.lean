import Typeahead.Automaton.Lookahead

namespace Typeahead

/-!
The deterministic parser of a rule table and what it does with a terminal.  A terminal that can be
read is read; otherwise the terminal selects a production to reduce.
-/

structure Automaton where
  table : RuleTable
  states : States
  reductions : Array (Grouping String Nat)
  states_eq : states = States.ofRules table
  reductions_eq : reductions = lookaheadReductions table states

inductive Action where
  | shift (state : Nat)
  | reduce (production : Nat)
deriving DecidableEq, Repr

/-- What a frame of the parser's stack holds: the state reached and the value of the symbol that
led there. -/
structure Frame (ν : Type) where
  state : Nat
  value : ν

/-- What became of a terminal.  Reductions made before a refusal stay.  An accepted input has a
value, which is also on top of the stack. -/
inductive Outcome (σ ν : Type) where
  | shifted (store : σ) (stack : List (Frame ν))
  | accepted (store : σ) (value : ν) (stack : List (Frame ν))
  | refused (store : σ) (stack : List (Frame ν))

/-- Ways in which the parser itself could fail. -/
inductive AutomatonFault where
  /-- A reduction to `rule` uncovered a state that `rule` does not lead on from. -/
  | noMove (state : Nat) (rule : String)
  | unendingReductions
deriving DecidableEq, Repr

namespace Automaton

def ofRules (table : RuleTable) : Automaton :=
  let states := States.ofRules table
  { table, states, reductions := lookaheadReductions table states,
    states_eq := rfl, reductions_eq := rfl }

/-- The productions that can be reduced in state `s`, by terminal. -/
def reductionsOf (automaton : Automaton) (s : Nat) : Grouping String Nat :=
  automaton.reductions.getD s (.ofList [])

def action? (automaton : Automaton) (s : Nat) (terminal : String) : Option Action :=
  match automaton.states.move? s terminal with
  | some next => some (.shift next)
  | none => ((automaton.reductionsOf s).get terminal).head?.map .reduce

/-- The terminals for which state `s` has an action. -/
def choices (automaton : Automaton) (s : Nat) : List String :=
  let read := (automaton.states.symbolsFrom s).filter automaton.table.isTerminal
  read ++ (automaton.reductionsOf s).keys.toList.filter (!read.contains ·)

def topState {ν : Type} (stack : List (Frame ν)) : Nat :=
  match stack with
  | frame :: _ => frame.state
  | [] => 0

/-- Whether `s` is the state in which the start rule has been read. -/
def isFinal (automaton : Automaton) (s : Nat) : Bool :=
  automaton.states.move? 0 automaton.table.start == some s

section Feed

variable {σ ν : Type} (automaton : Automaton) (reduce : σ → Production → List ν → σ × ν)

/-- At most `fuel` actions for a terminal. -/
def feedUpTo (terminal : String) (value : ν) : (fuel : Nat) → σ → List (Frame ν) →
    Except AutomatonFault (Outcome σ ν)
  | 0, _, _ => .error .unendingReductions
  | fuel + 1, store, stack =>
      match automaton.action? (topState stack) terminal with
      | none => .ok (.refused store stack)
      | some (.shift next) => .ok (.shifted store (⟨next, value⟩ :: stack))
      | some (.reduce p) =>
          let production := automaton.table.productions.getD p default
          let size := production.symbols.length
          let (store, reduced) := reduce store production ((stack.take size).map (·.value)).reverse
          let rest := stack.drop size
          match automaton.states.move? (topState rest) production.origin with
          | none => .error (.noMove (topState rest) production.origin)
          | some next =>
              let stack := ⟨next, reduced⟩ :: rest
              if terminal = endMarker && automaton.isFinal next then
                .ok (.accepted store reduced stack)
              else feedUpTo terminal value fuel store stack

/-- Gives a terminal to the parser, whose values are built by `reduce` in a store. -/
def feed (terminal : String) (value : ν) (store : σ) (stack : List (Frame ν)) :
    Except AutomatonFault (Outcome σ ν) :=
  automaton.feedUpTo reduce terminal value
    ((stack.length + 2) * (automaton.table.productions.size + 2)) store stack

end Feed

/-- Whether the parser would read the terminal, or accept at the end of the input. -/
def takes {ν : Type} (automaton : Automaton) (stack : List (Frame ν)) (terminal : String) :
    Except AutomatonFault Bool := do
  let bare := stack.map fun frame => (⟨frame.state, ()⟩ : Frame Unit)
  match ← automaton.feed (fun _ _ _ => ((), ())) terminal () () bare with
  | .refused .. => return false
  | _ => return true

/-- The terminals that the parser would take next. -/
def acceptable {ν : Type} (automaton : Automaton) (stack : List (Frame ν)) :
    Except AutomatonFault (List String) :=
  (automaton.choices (topState stack)).filterM (automaton.takes stack)

end Automaton

end Typeahead
