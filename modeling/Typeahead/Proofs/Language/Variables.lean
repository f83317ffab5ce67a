import Typeahead.Completion
import Typeahead.Proofs.Symbol.Scopes

namespace Typeahead

/-!
The variables suggested in a script.  Which names are handed to the matcher, and in which order, is
read off the tree: the scope of a node is the nearest node around it that opens one, and from there
the variables nested in it are visible, and those that stand in the scopes around it.
-/

namespace ParseTree.Rooted

variable {declarations : Declarations} {tree : ParseTree} (rooted : tree.Rooted) {i : Nat}

include rooted

/-- The names at a node are those that the nodes visible from it declare. -/
theorem variablesAt_eq (reached : i ∈ tree.walk 0) (reading : VariableReading) :
    LanguageSupport.variablesAt reading tree (tree.symbolTable declarations) i =
      (declarations.visible tree
        ((tree.walk 0).filter (declarations.declaresKind tree reading.kind)) i).map
        (declarations.nameAt tree) := by
  have named : ∀ nodes : List Nat,
      nodes ⊆ (tree.walk 0).filter (declarations.declaresKind tree reading.kind) →
      (nodes.map (declarations.rank tree)).map (tree.symbolTable declarations).nameOf =
        nodes.map (declarations.nameAt tree) := by
    intro nodes part
    rw [List.map_map]
    apply List.map_congr_left
    intro node member
    obtain ⟨known, speaks⟩ := List.mem_filter.1 (part member)
    exact rooted.nameOf_rank known (Declarations.declares_of_declaresKind speaks)
  have part := declarations.visible_subset tree
    ((tree.walk 0).filter (declarations.declaresKind tree reading.kind)) i
  rw [← named _ part, LanguageSupport.variablesAt, rooted.resolveScope?_eq reached]
  cases found : declarations.owner? tree i with
  | none =>
      rw [← rooted.filter_children_global found]
      rfl
  | some owner =>
      rw [← rooted.visibleFrom_rank reached found]
      rfl

end ParseTree.Rooted

namespace Language.Script

/-- Whether a node declares a variable and names it. -/
def declaresVariable (tree : ParseTree) (i : Nat) : Bool :=
  (declarations.ofNode? tree i).any fun declaration =>
    declaration.kind.isA .variable && declaration.nameIn tree i != ""

/-- The nodes that declare variables, in the order of the walk. -/
def variableNodes (tree : ParseTree) : List Nat := (tree.walk 0).filter (declaresVariable tree)

theorem mem_of_ofNode? {tree : ParseTree} {i : Nat} {declaration : Declaration}
    (found : declarations.ofNode? tree i = some declaration) :
    declaration ∈ declarations.map (·.2) := by
  obtain ⟨rule, -, listed⟩ := Option.bind_eq_some_iff.1 found
  unfold Declarations.find? at listed
  split at listed
  · cases listed
  · obtain ⟨pair, member, rfl⟩ := Option.map_eq_some_iff.1 listed
    exact List.mem_map_of_mem (List.mem_reverse.1 (List.mem_of_find?_eq_some member))

theorem declaresKind_variable (tree : ParseTree) (i : Nat) :
    declarations.declaresKind tree .variable i = declaresVariable tree i := by
  unfold Declarations.declaresKind declaresVariable
  cases found : declarations.ofNode? tree i with
  | none => rfl
  | some declaration =>
      have named : declaration.kind.isA .variable = true →
          declaration.nameRule.isSome = true ∧ declaration.kind.isScoped = false := by
        have all : ∀ declaration ∈ declarations.map (·.2),
            declaration.kind.isA .variable = true →
              declaration.nameRule.isSome = true ∧ declaration.kind.isScoped = false := by
          decide
        exact all declaration (mem_of_ofNode? found)
      rw [Option.any_some, Option.any_some]
      cases kind : declaration.kind.isA .variable with
      | false => rfl
      | true =>
          obtain ⟨rule, plain⟩ := named kind
          simp [Declaration.isUnnamed, rule, plain, bne]

/-- The names handed to the matcher are those of the variables visible from the node of the
position, each once. -/
theorem variableSuggestions_eq {tree : ParseTree} (rooted : tree.Rooted)
    (position : TokenPosition) (reached : position.context ∈ tree.walk 0)
    (candidates : Candidates) (matcher : Matcher) :
    (support.variableSuggestions tree candidates position matcher).suggestions =
        (if candidates.rules.toList.any support.preferred.contains then
          matcher (LanguageSupport.typedVariable ⟨"kotlin", .variable, "variable_read"⟩ tree position)
            ((declarations.visible tree (variableNodes tree) position.context).map
              (declarations.nameAt tree))
        else []) ∧
      (declarations.visible tree (variableNodes tree) position.context).Nodup := by
  have same : (tree.walk 0).filter (declarations.declaresKind tree .variable) = variableNodes tree :=
    List.filter_congr fun i _ => declaresKind_variable tree i
  refine ⟨?_, rooted.nodup_visible reached List.filter_sublist⟩
  have names : LanguageSupport.variablesAt ⟨"kotlin", .variable, "variable_read"⟩ tree
      (tree.symbolTable declarations) position.context = _ := rooted.variablesAt_eq reached _
  rw [same] at names
  rw [← names]
  have reads : support.variableReading = some ⟨"kotlin", .variable, "variable_read"⟩ := rfl
  simp only [LanguageSupport.variableSuggestions, reads]
  split <;> rfl

namespace Nested

/-! A variable, and behind it a function with a parameter and a variable in its body. -/

def words : List String := ["a", "f", "p", "x"]

def token : Leaf → Token
  | .token i => ⟨138, words.getD i "", some i, 1, 2 * i, 2 * i, false, false⟩
  | .conjured _ _ => ⟨138, "", none, 1, 0, 0, false, false⟩

def identifier (i : Nat) : SyntaxTree := .node "simple_identifier" [.leaf (.token i)]

def function : SyntaxTree :=
  .node "function_declaration" [identifier 1, .node "function_value_parameter" [identifier 2],
    .node "block" [.node "variable_declaration" [identifier 3]]]

def file : SyntaxTree :=
  .node "kotlin_file" [.node "variable_declaration" [identifier 0], function]

def tree : ParseTree := ⟨(file.nodes token none 0).toArray⟩

theorem rooted_tree : tree.Rooted := by
  refine ⟨⟨file.outline token 0, rfl, ?_, ?_⟩, rfl, by decide⟩
  · exact file.depicts_outline token none 0 [] [] (by simp [tree]) rfl
  · rw [SyntaxTree.places_outline]
    exact List.nodup_range'

/-- In the body of the function its own variable comes first, the parameter next. -/
theorem variables_in_body : tree.Rooted ∧ 10 ∈ tree.walk 0 ∧
    (support.variableSuggestions tree ⟨[], .ofList ["variable_read"]⟩ ⟨0, 10, ""⟩
      .startsWith).suggestions = ["x", "p", "a"] := by
  have reached : 10 ∈ tree.walk 0 := by decide
  have preferred : (OrderedSet.ofList ["variable_read"]).toList.any support.preferred.contains =
      true := by
    refine List.any_eq_true.2 ⟨"variable_read", ?_, by decide⟩
    simp [OrderedSet.mem_toList]
  refine ⟨rooted_tree, reached, ?_⟩
  rw [(variableSuggestions_eq rooted_tree ⟨0, 10, ""⟩ reached _ _).1, if_pos preferred]
  decide

end Nested

end Language.Script

end Typeahead
