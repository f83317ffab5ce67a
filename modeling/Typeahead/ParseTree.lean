import Typeahead.Token
import Typeahead.Text.Quoted

namespace Typeahead

/-!
Parse trees as arenas: the nodes stand in an array, the root first, and name each other by
position.
-/

inductive NodeLabel where
  | rule (name : String)
  | token (token : Token)
  /-- The node stands for no rule and no token. -/
  | bare
deriving DecidableEq, Repr

structure ParseNode where
  parent : Option Nat
  label : NodeLabel
  children : List Nat := []
deriving DecidableEq, Repr

namespace ParseNode

def rule? (node : ParseNode) : Option String :=
  match node.label with
  | .rule name => some name
  | .token _ | .bare => none

def token? (node : ParseNode) : Option Token :=
  match node.label with
  | .token token => some token
  | .rule _ | .bare => none

def isTerminal (node : ParseNode) : Bool := node.token?.isSome

end ParseNode

structure ParseTree where
  nodes : Array ParseNode
deriving DecidableEq, Repr

namespace ParseTree

/-- What to say of a tree without nodes. -/
def rootless : String := "a parse tree needs at least a root node"

def size (tree : ParseTree) : Nat := tree.nodes.size

def node? (tree : ParseTree) (i : Nat) : Option ParseNode := tree.nodes[i]?

def parent? (tree : ParseTree) (i : Nat) : Option Nat := (tree.node? i).bind (·.parent)

def children (tree : ParseTree) (i : Nat) : List Nat :=
  match tree.node? i with
  | some node => node.children
  | none => []

def rule? (tree : ParseTree) (i : Nat) : Option String := (tree.node? i).bind (·.rule?)

def token? (tree : ParseTree) (i : Nat) : Option Token := (tree.node? i).bind (·.token?)

/-- A node and the nodes above it, at most `fuel` of them. -/
def ancestorsUpTo (tree : ParseTree) : (fuel : Nat) → Nat → List Nat
  | 0, _ => []
  | fuel + 1, i =>
      i :: match tree.parent? i with
        | some parent => tree.ancestorsUpTo fuel parent
        | none => []

/-- The node and those above it, up to the root. -/
def ancestors (tree : ParseTree) (i : Nat) : List Nat := tree.ancestorsUpTo tree.size i

/-- The nodes below `i`, it first, down to `depth` levels. -/
def walkUpTo (tree : ParseTree) : (depth : Nat) → Nat → List Nat
  | 0, _ => []
  | depth + 1, i => i :: (tree.children i).flatMap (tree.walkUpTo depth)

/-- The node and all below it, parents before their children, children in order. -/
def walk (tree : ParseTree) (i : Nat) : List Nat := tree.walkUpTo tree.size i

/-- The terminals among the node and those below it. -/
def terminals (tree : ParseTree) (i : Nat) : List Nat :=
  (tree.walk i).filter fun j => (tree.token? j).isSome

/-- The tokens of the node's terminals. -/
def tokens (tree : ParseTree) (i : Nat) : List Token := (tree.walk i).filterMap tree.token?

/-- The texts of the node's tokens with single spaces between them. -/
def text (tree : ParseTree) (i : Nat) : String :=
  " ".intercalate (((tree.tokens i).map (·.text)).filter (· ≠ ""))

/-- The first and the last token of the stream below the node. -/
def tokenRange? (tree : ParseTree) (i : Nat) : Option (Token × Token) :=
  let streamed := (tree.tokens i).filter (!·.conjured)
  match streamed.head?, streamed.getLast? with
  | some first, some last => some (first, last)
  | _, _ => none

/-- The stream positions of the first and the last token below the node. -/
def indexRange? (tree : ParseTree) (i : Nat) : Option (Int × Int) := do
  let (first, last) ← tree.tokenRange? i
  return (← first.index, ← last.index)

/-- The first child that `rule` produced; without a rule, the first child that no rule did. -/
def findChild? (tree : ParseTree) (i : Nat) (rule : Option String) : Option Nat :=
  (tree.children i).find? fun child => tree.rule? child == rule

def describe (tree : ParseTree) (i : Nat) : String :=
  match tree.node? i with
  | some { label := .token token, .. } => s!"ParseNode({i}, token={Text.quoted token.text})"
  | some { label := .rule name, .. } => s!"ParseNode({i}, rule={Text.quoted name})"
  | some { label := .bare, .. } => s!"ParseNode({i}, rule=None)"
  | none => s!"ParseNode({i})"

end ParseTree

end Typeahead
