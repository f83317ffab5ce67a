import Mathlib.Data.List.Perm.Subperm
import Typeahead.ParseTree.Arena
import Typeahead.Proofs.Forest.Yield

namespace Typeahead

/-!
The tree that an arena depicts.  An outline is a tree whose nodes know their places in the arena;
walks through the arena visit the places of the outline.
-/

inductive Outline where
  | terminal (place : Nat) (token : Token)
  | rule (place : Nat) (name : String) (children : List Outline)

namespace Outline

def place : Outline → Nat
  | .terminal place _ => place
  | .rule place _ _ => place

def label : Outline → NodeLabel
  | .terminal _ token => .token token
  | .rule _ name _ => .rule name

def children : Outline → List Outline
  | .terminal _ _ => []
  | .rule _ _ children => children

mutual

def places : Outline → List Nat
  | .terminal place _ => [place]
  | .rule place _ children => place :: placesOf children

def placesOf : List Outline → List Nat
  | [] => []
  | child :: rest => child.places ++ placesOf rest

end

mutual

def tokens : Outline → List Token
  | .terminal _ token => [token]
  | .rule _ _ children => tokensOf children

def tokensOf : List Outline → List Token
  | [] => []
  | child :: rest => child.tokens ++ tokensOf rest

end

theorem placesOf_eq (children : List Outline) : placesOf children = children.flatMap places := by
  induction children with
  | nil => rfl
  | cons child rest ih => rw [placesOf, ih, List.flatMap_cons]

theorem tokensOf_eq (children : List Outline) : tokensOf children = children.flatMap tokens := by
  induction children with
  | nil => rfl
  | cons child rest ih => rw [tokensOf, ih, List.flatMap_cons]

@[simp]
theorem places_rule (place : Nat) (name : String) (children : List Outline) :
    (rule place name children).places = place :: children.flatMap places := by
  rw [places, placesOf_eq]

@[simp]
theorem tokens_rule (place : Nat) (name : String) (children : List Outline) :
    (rule place name children).tokens = children.flatMap tokens := by
  rw [tokens, tokensOf_eq]

@[simp]
theorem places_terminal (place : Nat) (token : Token) : (terminal place token).places = [place] :=
  rfl

@[simp]
theorem tokens_terminal (place : Nat) (token : Token) : (terminal place token).tokens = [token] :=
  rfl

theorem place_mem_places (outline : Outline) : outline.place ∈ outline.places := by
  cases outline <;> simp [place]

theorem places_subset {child : Outline} {place : Nat} {name : String} {children : List Outline}
    (member : child ∈ children) : child.places ⊆ (rule place name children).places := by
  intro other inside
  rw [places_rule]
  exact List.mem_cons_of_mem _ (List.mem_flatMap.2 ⟨child, member, inside⟩)

theorem length_places_lt {child : Outline} {children : List Outline} (place : Nat) (name : String)
    (member : child ∈ children) :
    child.places.length < (rule place name children).places.length := by
  obtain ⟨before, after, rfl⟩ := List.append_of_mem member
  simp only [places_rule, List.flatMap_append, List.flatMap_cons, List.length_cons,
    List.length_append]
  omega

end Outline

namespace ParseTree

variable {tree : ParseTree} {outline : Outline}

/-- The arena has the nodes of the outline at their places. -/
inductive Depicts (tree : ParseTree) : Outline → Prop where
  | mk {outline : Outline} {node : ParseNode}
      (found : tree.node? outline.place = some node) (label : node.label = outline.label)
      (children : node.children = outline.children.map Outline.place)
      (below : ∀ child ∈ outline.children, Depicts tree child) : Depicts tree outline

/-- The root's node and the nodes below it each stand for a rule or a token, and each of them is in
one place. -/
def WellFormed (tree : ParseTree) : Prop :=
  ∃ outline : Outline, outline.place = 0 ∧ tree.Depicts outline ∧ outline.places.Nodup

namespace Depicts

theorem children_eq (depicts : tree.Depicts outline) :
    tree.children outline.place = outline.children.map Outline.place := by
  cases depicts with
  | mk found _ children _ =>
      rw [ParseTree.children, found]
      exact children

theorem child (depicts : tree.Depicts outline) {child : Outline}
    (member : child ∈ outline.children) : tree.Depicts child := by
  cases depicts with
  | mk _ _ _ below => exact below child member

theorem token?_eq (depicts : tree.Depicts outline) :
    tree.token? outline.place =
      match outline with
      | .terminal _ token => some token
      | .rule .. => none := by
  cases depicts with
  | mk found label _ _ =>
      rw [ParseTree.token?, found, Option.bind_some, ParseNode.token?, label]
      cases outline <;> rfl

theorem lt_size (depicts : tree.Depicts outline) {place : Nat} (member : place ∈ outline.places) :
    place < tree.size := by
  induction depicts with
  | @mk outline node found _ _ _ ih =>
      have bound : outline.place < tree.size := (Array.getElem?_eq_some_iff.1 found).1
      cases outline with
      | terminal here token => simpa [Outline.place] using (List.mem_singleton.1 member) ▸ bound
      | rule here name children =>
          rw [Outline.places_rule, List.mem_cons, List.mem_flatMap] at member
          rcases member with rfl | ⟨child, inside, member⟩
          · exact bound
          · exact ih child inside member

/-- Deep enough a walk from a node visits the places of its outline. -/
theorem walkUpTo_eq (depicts : tree.Depicts outline) {depth : Nat}
    (enough : outline.places.length ≤ depth) :
    tree.walkUpTo depth outline.place = outline.places := by
  induction depth generalizing outline with
  | zero =>
      have nonempty := List.length_pos_of_mem outline.place_mem_places
      omega
  | succ depth ih =>
      rw [walkUpTo, depicts.children_eq]
      cases outline with
      | terminal here token => simp [Outline.children, Outline.place]
      | rule here name children =>
          simp only [Outline.children, Outline.places_rule, List.flatMap_map, Outline.place]
          congr 1
          apply List.flatMap_congr
          intro child member
          have smaller := Outline.length_places_lt here name member
          exact ih (depicts.child member) (by omega)

theorem length_places_le (depicts : tree.Depicts outline) (distinct : outline.places.Nodup) :
    outline.places.length ≤ tree.size := by
  have subset : outline.places ⊆ List.range tree.size := by
    intro place member
    exact List.mem_range.2 (depicts.lt_size member)
  simpa using (List.subperm_of_subset distinct subset).length_le

theorem walk_eq (depicts : tree.Depicts outline) (distinct : outline.places.Nodup) :
    tree.walk outline.place = outline.places :=
  depicts.walkUpTo_eq (depicts.length_places_le distinct)

theorem filterMap_token? (depicts : tree.Depicts outline) :
    outline.places.filterMap tree.token? = outline.tokens := by
  induction depicts with
  | @mk outline node found label children below ih =>
      have own := (Depicts.mk found label children below).token?_eq
      cases outline with
      | terminal here token =>
          simp only [Outline.place] at own
          simp [own]
      | rule here name children =>
          simp only [Outline.place] at own
          rw [Outline.places_rule, List.filterMap_cons_none own, List.filterMap_flatMap,
            Outline.tokens_rule]
          apply List.flatMap_congr
          intro child member
          exact ih child member

theorem tokens_eq (depicts : tree.Depicts outline) (distinct : outline.places.Nodup) :
    tree.tokens outline.place = outline.tokens := by
  rw [tokens, depicts.walk_eq distinct, depicts.filterMap_token?]

end Depicts

end ParseTree

namespace SyntaxTree

variable (tokenOf : Leaf → Token)

mutual

/-- The outline of a tree numbered from `base` on. -/
def outline (base : Nat) : SyntaxTree → Outline
  | .leaf terminal => .terminal base (tokenOf terminal)
  | .node rule children => .rule base rule (outlines (base + 1) children)

def outlines (base : Nat) : List SyntaxTree → List Outline
  | [] => []
  | child :: rest => child.outline base :: outlines (base + child.size) rest

end

@[simp]
theorem place_outline (base : Nat) (tree : SyntaxTree) : (tree.outline tokenOf base).place = base := by
  cases tree <;> rfl

theorem map_place_outlines (base : Nat) (children : List SyntaxTree) :
    (outlines tokenOf base children).map Outline.place = places base children := by
  induction children generalizing base with
  | nil => rfl
  | cons child rest ih => simp [outlines, places, ih]

mutual

theorem places_outline (base : Nat) :
    (tree : SyntaxTree) → (tree.outline tokenOf base).places = List.range' base tree.size
  | .leaf _ => rfl
  | .node _ children => by
      rw [outline, Outline.places_rule, flatMap_places_outlines (base + 1) children, size,
        List.range'_succ]

theorem flatMap_places_outlines (base : Nat) : (children : List SyntaxTree) →
    (outlines tokenOf base children).flatMap Outline.places = List.range' base (sizes children)
  | [] => rfl
  | child :: rest => by
      rw [outlines, List.flatMap_cons, places_outline base child,
        flatMap_places_outlines (base + child.size) rest, sizes, List.range'_append_1]

end

mutual

theorem tokens_outline (base : Nat) :
    (tree : SyntaxTree) → (tree.outline tokenOf base).tokens = tree.leaves.map tokenOf
  | .leaf _ => rfl
  | .node _ children => by
      rw [outline, Outline.tokens_rule, flatMap_tokens_outlines (base + 1) children, leaves]

theorem flatMap_tokens_outlines (base : Nat) : (children : List SyntaxTree) →
    (outlines tokenOf base children).flatMap Outline.tokens = (leavesOf children).map tokenOf
  | [] => rfl
  | child :: rest => by
      rw [outlines, List.flatMap_cons, tokens_outline base child,
        flatMap_tokens_outlines (base + child.size) rest, leavesOf, List.map_append]

end

mutual

theorem length_nodes (parent : Option Nat) (base : Nat) :
    (tree : SyntaxTree) → (tree.nodes tokenOf parent base).length = tree.size
  | .leaf _ => rfl
  | .node _ children => by rw [nodes, List.length_cons, length_childNodes base (base + 1) children, size]

theorem length_childNodes (parent base : Nat) : (children : List SyntaxTree) →
    (childNodes tokenOf parent base children).length = sizes children
  | [] => rfl
  | child :: rest => by
      rw [childNodes, List.length_append, length_nodes (some parent) base child,
        length_childNodes parent (base + child.size) rest, sizes]

end

variable {arena : ParseTree}

mutual

/-- An arena depicts the outline of a tree whose nodes it has from `base` on. -/
theorem depicts_outline (parent : Option Nat) (base : Nat) : (tree : SyntaxTree) →
    (before after : List ParseNode) →
    arena.nodes.toList = before ++ (tree.nodes tokenOf parent base ++ after) →
    before.length = base → arena.Depicts (tree.outline tokenOf base)
  | .leaf terminal, before, after, stored, counted => by
      have found : arena.node? base = some { parent, label := .token (tokenOf terminal) } := by
        rw [ParseTree.node?, ← Array.getElem?_toList, stored, ← counted]
        simp [nodes]
      refine .mk found rfl rfl ?_
      intro child member
      cases member
  | .node rule children, before, after, stored, counted => by
      have found : arena.node? base =
          some { parent, label := .rule rule, children := places (base + 1) children } := by
        rw [ParseTree.node?, ← Array.getElem?_toList, stored, ← counted]
        simp [nodes]
      refine .mk found rfl (map_place_outlines tokenOf (base + 1) children).symm ?_
      refine depicts_outlines base (base + 1) children
        (before ++ [{ parent, label := .rule rule, children := places (base + 1) children }])
        after ?_ (by simp [counted])
      rw [stored]
      simp [nodes]

theorem depicts_outlines (parent base : Nat) : (children : List SyntaxTree) →
    (before after : List ParseNode) →
    arena.nodes.toList = before ++ (childNodes tokenOf parent base children ++ after) →
    before.length = base → ∀ child ∈ outlines tokenOf base children, arena.Depicts child
  | [], _, _, _, _ => by
      intro child member
      cases member
  | first :: rest, before, after, stored, counted => by
      rw [childNodes] at stored
      intro child member
      rcases List.mem_cons.1 member with rfl | later
      · exact depicts_outline (some parent) base first before
          (childNodes tokenOf parent (base + first.size) rest ++ after) (by simp [stored]) counted
      · exact depicts_outlines parent (base + first.size) rest
          (before ++ first.nodes tokenOf (some parent) base) after (by simp [stored])
          (by simp [counted, length_nodes]) child later

end

end SyntaxTree

end Typeahead
