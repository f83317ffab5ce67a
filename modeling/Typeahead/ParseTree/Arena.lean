import Typeahead.ParseTree
import Typeahead.Forest
import Typeahead.Token.Stream
import Typeahead.Token.Vocabulary

namespace Typeahead

/-!
Parse trees from the trees that the parser builds.  Nodes are numbered parents before children,
children from left to right.  Tokens that the parser passed over are hung in afterwards, each under
the deepest rule whose tokens stand on both sides of it.
-/

namespace SyntaxTree

mutual

/-- The number of nodes. -/
def size : SyntaxTree → Nat
  | .leaf _ => 1
  | .node _ children => sizes children + 1

def sizes : List SyntaxTree → Nat
  | [] => 0
  | child :: rest => child.size + sizes rest

end

/-- The numbers of trees that are numbered one after the other from `base` on. -/
def places (base : Nat) : List SyntaxTree → List Nat
  | [] => []
  | child :: rest => base :: places (base + child.size) rest

mutual

/-- The nodes of a tree numbered from `base` on, where `tokenOf` gives the tokens of its leaves. -/
def nodes (tokenOf : Leaf → Token) (parent : Option Nat) (base : Nat) :
    SyntaxTree → List ParseNode
  | .leaf terminal => [{ parent, label := .token (tokenOf terminal) }]
  | .node rule children =>
      { parent, label := .rule rule, children := places (base + 1) children } ::
        childNodes tokenOf base (base + 1) children

def childNodes (tokenOf : Leaf → Token) (parent base : Nat) : List SyntaxTree → List ParseNode
  | [] => []
  | child :: rest =>
      child.nodes tokenOf (some parent) base ++
        childNodes tokenOf parent (base + child.size) rest

end

end SyntaxTree

/-- A terminal as the parser is given it.  Lines and columns are counted from one. -/
structure Terminal where
  name : String
  text : String
  start : Int
  line : Int
  column : Int
deriving DecidableEq, Repr

/-- The token of a terminal: the one at the position under which the terminal is known by its start
and its name, and otherwise one made up at its place.  Empty terminals are never known. -/
def TokenStream.tokenOf (stream : TokenStream) (vocabulary : Vocabulary)
    (positions : List ((Int × String) × Nat)) (terminal : Terminal) : Token :=
  let known :=
    if terminal.text = "" then none else positions.lookup (terminal.start, terminal.name)
  match known with
  | some index => stream.tokens.getD index stream.eof
  | none =>
      { type := (vocabulary.type? terminal.name).getD 0, text := terminal.text, index := none,
        line := if terminal.line = 0 then stream.eof.line else terminal.line,
        column := if terminal.column = 0 then stream.eof.column else terminal.column - 1,
        start := terminal.start }

namespace ParseTree

/-- Adds a node for `token` to the children of `parent`, at position `place` among them. -/
def insertToken (tree : ParseTree) (parent place : Nat) (token : Token) : ParseTree :=
  { nodes :=
      (tree.nodes.modify parent fun node =>
          { node with children := node.children.insertIdx place tree.nodes.size }).push
        { parent := some parent, label := .token token } }

@[simp]
theorem size_insertToken (tree : ParseTree) (parent place : Nat) (token : Token) :
    (tree.insertToken parent place token).size = tree.size + 1 := by
  simp [insertToken, size]

/-- Whether the tokens below the rule node `i` stand on both sides of stream position `index`. -/
def spans (tree : ParseTree) (index : Int) (i : Nat) : Bool :=
  (tree.token? i).isNone &&
    (tree.indexRange? i).any fun (first, last) => first < index && index < last

/-- The deepest rule node below `i`, at most `depth` levels down, that spans `index`. -/
def deepestSpanning (tree : ParseTree) (index : Int) : (depth : Nat) → Nat → Nat
  | 0, i => i
  | depth + 1, i =>
      match (tree.children i).find? (tree.spans index) with
      | some child => tree.deepestSpanning index depth child
      | none => i

/-- The stream position of the first token below the node. -/
def firstIndex? (tree : ParseTree) (i : Nat) : Option Int := (tree.indexRange? i).map (·.1)

/-- Hangs in a stream token that is not in the tree yet, in front of the first child whose tokens
come later. -/
def attach (tree : ParseTree) (token : Token) : ParseTree :=
  match token.index with
  | none => tree
  | some index =>
      let parent := tree.deepestSpanning index tree.size 0
      let children := tree.children parent
      let place :=
        (children.findIdx? fun child => (tree.firstIndex? child).any (index < ·)).getD
          children.length
      tree.insertToken parent place token

/-- The arena of a tree where `tokenOf` gives the tokens of its leaves, with the end token as the
root's last child and the tokens `skipped` hung in. -/
def ofLeaves (tokenOf : Leaf → Token) (eof : Token) (skipped : List Token) (tree : SyntaxTree) :
    ParseTree :=
  let arena : ParseTree := ⟨(tree.nodes tokenOf none 0).toArray⟩
  let closed := arena.insertToken 0 (arena.children 0).length eof
  skipped.foldl attach closed

/-- The arena of a tree over the tokens of `stream`, where `positions` has the tokens that the
parser took. -/
def ofSyntaxTree (stream : TokenStream) (vocabulary : Vocabulary) (terminalOf : Leaf → Terminal)
    (positions : List ((Int × String) × Nat)) (skipped : List Token) (tree : SyntaxTree) :
    ParseTree :=
  ofLeaves (fun leaf => stream.tokenOf vocabulary positions (terminalOf leaf)) stream.eof skipped
    tree

end ParseTree

end Typeahead
