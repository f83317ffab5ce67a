import Typeahead.Production

namespace Typeahead

/-!
The values on the parser's stack.  The children of a rule are kept in numbered lists that grow in
place, and a value names its list.  Parsers that were tried from the same stack share the lists, so
what one of them appends the others see.
-/

/-- A terminal in a tree: a token of the stream, or one made up in front of such a token. -/
inductive Leaf where
  | token (index : Nat)
  | conjured (terminal : String) (before : Nat)
deriving DecidableEq, Repr

inductive Branch where
  | leaf (leaf : Leaf)
  | node (rule : String) (list : Nat)
deriving DecidableEq, Repr

/-- The lists of children, by number. -/
structure Forest where
  lists : Array (Array Branch)

/-- A tree whose leaves are terminals. -/
inductive SyntaxTree where
  | leaf (leaf : Leaf)
  | node (rule : String) (children : List SyntaxTree)

/-- A rule with such a name hands its children to the rule that uses it. -/
def isInlined (rule : String) : Bool := rule.toList.head? == some '_'

namespace Forest

def empty : Forest := ⟨#[]⟩

def children (forest : Forest) (list : Nat) : Array Branch := forest.lists.getD list #[]

/-- A new list, and its number. -/
def grow (forest : Forest) (branches : Array Branch) : Forest × Nat :=
  (⟨forest.lists.push branches⟩, forest.lists.size)

def append (forest : Forest) (list : Nat) (branches : Array Branch) : Forest :=
  ⟨forest.lists.modify list (· ++ branches)⟩

theorem children_grow (forest : Forest) (branches : Array Branch) :
    (forest.grow branches).1.children (forest.grow branches).2 = branches := by
  simp [grow, children, Array.getD]

@[simp]
theorem size_append (forest : Forest) (list : Nat) (branches : Array Branch) :
    (forest.append list branches).lists.size = forest.lists.size := by
  simp [append]

/-- Adds the value of one symbol to the list `out`.  The value of an inlined rule brings its own
list: if nothing has been gathered yet the gathering goes on in that very list. -/
def gather (forest : Forest) (out : Option Nat) (symbol : String) (value : Branch) :
    Forest × Option Nat :=
  match value, out with
  | .node rule list, none =>
      if isInlined symbol then (forest, some list)
      else
        let (forest, out) := forest.grow #[.node rule list]
        (forest, some out)
  | .node rule list, some out =>
      if isInlined symbol then
        if (forest.children out).isEmpty then (forest, some list)
        else (forest.append out (forest.children list), some out)
      else (forest.append out #[.node rule list], some out)
  | .leaf leaf, none =>
      let (forest, out) := forest.grow #[.leaf leaf]
      (forest, some out)
  | .leaf leaf, some out => (forest.append out #[.leaf leaf], some out)

def gatherAll (forest : Forest) (out : Option Nat) : List (String × Branch) → Forest × Option Nat
  | [] => (forest, out)
  | (symbol, value) :: rest =>
      let (forest, out) := forest.gather out symbol value
      forest.gatherAll out rest

/-- The value of a production from those of its symbols.  A transparent rule with one child gives
way to it. -/
def reduce (transparent : List String) (forest : Forest) (production : Production)
    (values : List Branch) : Forest × Branch :=
  let (forest, list) :=
    match forest.gatherAll none (production.symbols.zip values) with
    | (forest, some list) => (forest, list)
    | (forest, none) => forest.grow #[]
  match (forest.children list).toList with
  | [child] =>
      (forest,
        if transparent.contains production.origin then child else .node production.origin list)
  | _ => (forest, .node production.origin list)

/-- The tree below a branch, down to `depth` lists. -/
def unfold (forest : Forest) : (depth : Nat) → Branch → SyntaxTree
  | _, .leaf leaf => .leaf leaf
  | 0, .node rule _ => .node rule []
  | depth + 1, .node rule list =>
      .node rule ((forest.children list).toList.map (forest.unfold depth))

/-- The tree below a branch.  No list holds itself, so each step down is to another list. -/
def tree (forest : Forest) (branch : Branch) : SyntaxTree :=
  forest.unfold forest.lists.size branch

/-- The branches with inlined rules replaced by their children, down to `depth` lists. -/
def spliced (forest : Forest) : (depth : Nat) → List Branch → List Branch
  | 0, branches => branches
  | depth + 1, branches => branches.flatMap fun
      | .leaf leaf => [.leaf leaf]
      | .node rule list =>
          if isInlined rule then forest.spliced depth (forest.children list).toList
          else [.node rule list]

/-- A tree over values that no rule has gathered. -/
def partialTree (forest : Forest) (rule : String) (values : List Branch) : SyntaxTree :=
  .node rule ((forest.spliced (forest.lists.size + 1) values).map forest.tree)

end Forest

end Typeahead
