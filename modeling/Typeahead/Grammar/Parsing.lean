import Typeahead.Grammar
import Typeahead.Data.Assignment
import Typeahead.ParseTree.Arena

namespace Typeahead

/-!
Parsing of texts that may be unfinished.  In front of a token that the parser cannot take, one
terminal may be made up if the token can be taken then; otherwise the token is passed over.  At the
end terminals are made up until the parser accepts; if that does not succeed, what the parser has
gathered becomes the tree.
-/

/-- What the parser did to go on. -/
inductive Repair where
  | skipped (index : Nat)
  | inserted (terminal : String) (before : Nat)
  | closed (terminal : String)
  /-- The end was not reached. -/
  | incomplete
deriving DecidableEq, Repr

structure Parse where
  tree : ParseTree
  repairs : List Repair

/-- A parser between two tokens: its stack, and the lists that the values on it name. -/
structure LiveParser where
  forest : Forest
  stack : List (Frame Branch)

namespace LiveParser

def initial : LiveParser := ⟨.empty, []⟩

end LiveParser

namespace Grammar

/-- The number of rounds in which terminals are made up at the end. -/
def maxRepairs : Nat := 32

def feed (grammar : Grammar) (terminal : String) (leaf : Leaf) (parser : LiveParser) :
    Except AutomatonFault (Outcome Forest Branch) :=
  grammar.automaton.feed (Forest.reduce grammar.transparent) terminal (.leaf leaf)
    parser.forest parser.stack

/-- The first of the terminals `names` that, made up in front of the token, lets the parser take
it, and the parser after that.  The trials share their lists with the parser. -/
def insertBefore (grammar : Grammar) (terminal : String) (index : Nat)
    (stack : List (Frame Branch)) :
    (names : List String) → Forest → Except Fault (Forest × Option (String × List (Frame Branch)))
  | [], forest => .ok (forest, none)
  | name :: names, forest => do
      match ← grammar.feed name (.conjured name index) ⟨forest, stack⟩ with
      | .refused .. => throw (.refusedAcceptable name)
      | .shifted forest trial | .accepted forest _ trial =>
          match ← grammar.feed terminal (.token index) ⟨forest, trial⟩ with
          | .refused forest _ => grammar.insertBefore terminal index stack names forest
          | .shifted forest trial | .accepted forest _ trial =>
              return (forest, some (name, trial))

/-- Gives the token at stream position `index` to the parser, or passes it over. -/
def step (grammar : Grammar) (terminal : String) (index : Nat) (parser : LiveParser) :
    Except Fault (LiveParser × Option Repair) := do
  match ← grammar.feed terminal (.token index) parser with
  | .shifted forest stack | .accepted forest _ stack => return (⟨forest, stack⟩, none)
  | .refused forest stack =>
      let acceptable ← grammar.automaton.acceptable stack
      let names := grammar.repairs.filter acceptable.contains
      match ← grammar.insertBefore terminal index stack names forest with
      | (forest, some (name, stack)) => return (⟨forest, stack⟩, some (.inserted name index))
      | (forest, none) => return (⟨forest, stack⟩, some (.skipped index))

/-- Gives the tokens, each with its position in the stream, to the parser, one after the other. -/
def steps (grammar : Grammar) :
    List (Token × Nat) → LiveParser → Except Fault (LiveParser × List Repair)
  | [], parser => .ok (parser, [])
  | (token, index) :: rest, parser => do
      let (parser, repair) ← grammar.step (grammar.terminalOf token) index parser
      let (parser, repairs) ← grammar.steps rest parser
      return (parser, repair.toList ++ repairs)

/-- What the parser has gathered, as a tree of the start rule. -/
def partialParse (grammar : Grammar) (parser : LiveParser) : SyntaxTree :=
  parser.forest.partialTree grammar.table.start (parser.stack.map (·.value)).reverse

/-- Ends the parse in at most `rounds` rounds, each of which accepts or makes up a terminal in
front of the end token. -/
def finishWithin (grammar : Grammar) (eof : Nat) :
    (rounds : Nat) → LiveParser → Except Fault (SyntaxTree × List Repair)
  | 0, parser => .ok (grammar.partialParse parser, [.incomplete])
  | rounds + 1, parser => do
      let acceptable ← grammar.automaton.acceptable parser.stack
      if acceptable.contains endMarker then
        match ← grammar.feed endMarker (.conjured endMarker eof) parser with
        | .accepted forest value _ => return (forest.tree value, [])
        | _ => throw (.refusedAcceptable endMarker)
      else
        match grammar.repairs.find? acceptable.contains with
        | none => return (grammar.partialParse parser, [.incomplete])
        | some name =>
            match ← grammar.feed name (.conjured name eof) parser with
            | .shifted forest stack =>
                let (tree, repairs) ← grammar.finishWithin eof rounds ⟨forest, stack⟩
                return (tree, .closed name :: repairs)
            | _ => throw (.refusedAcceptable name)

def finish (grammar : Grammar) (eof : Nat) (parser : LiveParser) :
    Except Fault (SyntaxTree × List Repair) :=
  grammar.finishWithin eof maxRepairs parser

/-- The tokens of the stream that were passed over. -/
def skippedTokens (stream : TokenStream) (repairs : List Repair) : List Token :=
  repairs.filterMap fun
    | .skipped index => stream.tokens[index]?
    | _ => none

/-- The terminal that the parser is given for a token. -/
def terminal (grammar : Grammar) (token : Token) : Terminal :=
  { name := grammar.terminalOf token, text := token.text, start := token.start, line := token.line,
    column := token.column + 1 }

/-- The terminal of a leaf.  One that was made up is empty and stands where the next token starts. -/
def leafTerminal (grammar : Grammar) (stream : TokenStream) : Leaf → Terminal
  | .token index => grammar.terminal (stream.tokens.getD index stream.eof)
  | .conjured name before =>
      { grammar.terminal (stream.tokens.getD before stream.eof) with name, text := "" }

/-- The positions of the tokens that the parser took, by their starts and the names of their
types. -/
def positions (grammar : Grammar) (stream : TokenStream) (repairs : List Repair) :
    List ((Int × String) × Nat) :=
  let taken := stream.visiblePlaced.filter fun (_, index) => !repairs.contains (.skipped index)
  assignAll (taken.map fun (token, index) => ((token.start, grammar.terminalOf token), index))

/-- Parses the visible tokens of a stream. -/
def parse (grammar : Grammar) (stream : TokenStream) : Except Fault Parse := do
  let (parser, repairs) ← grammar.steps stream.visiblePlaced .initial
  let (tree, endRepairs) ← grammar.finish (stream.size - 1) parser
  return {
    tree := .ofSyntaxTree stream grammar.vocabulary (grammar.leafTerminal stream)
      (grammar.positions stream repairs) (skippedTokens stream repairs) tree
    repairs := repairs ++ endRepairs }

end Grammar

end Typeahead
