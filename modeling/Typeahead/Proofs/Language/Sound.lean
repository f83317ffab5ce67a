import Typeahead.Language.Architecture.Grammar
import Typeahead.Language.Script.Grammar
import Typeahead.Proofs.Parsing.Standing

namespace Typeahead

/-!
The grammars of the languages have what the parser relies on.  The conditions on their rule tables
are checked on the productions as lists.
-/

namespace RuleTable

variable {productions : List Production} {start symbol : String}

theorem mem_closed {production : Production} :
    production ∈ (closed productions start).productions ↔ production ∈ productions :=
  List.mem_toArray

theorem isTerminal_closed : (closed productions start).isTerminal symbol = true ↔
    symbol ∈ usedSymbols productions ∧ symbol ∉ productions.map (·.origin) := by
  rw [isTerminal, OrderedSet.contains_iff]
  simp only [closed, ofProductions, OrderedSet.mem_ofList, List.mem_filter, Bool.not_eq_true',
    ← Bool.not_eq_true, OrderedSet.contains_iff]

/-- Whether productions of one symbol lead from each rule to rules that come later in `order`. -/
def unitsFollow (order : List String) (productions : List Production) : Bool :=
  productions.all fun production =>
    match production.symbols with
    | [symbol] => order.idxOf production.origin < order.idxOf symbol
    | _ => true

/-- Whether each of the symbols that is among `empties` stands in front of one without
productions. -/
def guardsEmpty (productions : List Production) (empties : List String) : List String → Bool
  | [] => true
  | symbol :: rest =>
      (!empties.contains symbol || rest.head?.any fun next => productions.all (·.origin != next)) &&
        guardsEmpty productions empties rest

theorem exists_next_of_guardsEmpty {empties symbols : List String}
    (guarded : guardsEmpty productions empties symbols = true) (empty : symbol ∈ empties) {dot : Nat}
    (here : symbols[dot]? = some symbol) :
    ∃ next, symbols[dot + 1]? = some next ∧ next ∉ productions.map (·.origin) := by
  induction symbols generalizing dot with
  | nil => cases here
  | cons first rest ih =>
      rw [guardsEmpty, Bool.and_eq_true] at guarded
      cases dot with
      | succ dot => exact ih guarded.2 here
      | zero =>
          obtain rfl : first = symbol := Option.some.inj here
          have known : empties.contains first = true := List.contains_iff_mem.2 empty
          have followed := guarded.1
          rw [known, Bool.not_true, Bool.false_or] at followed
          cases rest with
          | nil => cases followed
          | cons next rest =>
              refine ⟨next, rfl, ?_⟩
              intro member
              obtain ⟨production, listed, origin⟩ := List.mem_map.1 member
              have different := List.all_eq_true.1 followed production listed
              exact bne_iff_ne.1 different origin

/-- What is to be checked on the productions of a grammar, the rules with an empty one of which are
`empties`. -/
structure Checked (order empties : List String) (productions : List Production) : Prop where
  bounded : order.length ≤ productions.length
  units : unitsFollow order productions = true
  named : (productions.all fun production =>
    !production.symbols.isEmpty || empties.contains production.origin) = true
  guarded : (productions.all fun production =>
    guardsEmpty productions empties production.symbols) = true
  unread : (productions.all fun production => production.symbols.all (· != endMarker)) = true

namespace Checked

variable {order empties : List String} (checked : Checked order empties productions)

include checked

theorem mem_empties {production : Production} (member : production ∈ productions)
    (empty : production.symbols = []) : production.origin ∈ empties := by
  have either := List.all_eq_true.1 checked.named production member
  simpa [empty] using either

theorem proper (start : String) : (closed productions start).Proper where
  disjoint := by
    intro production member terminal
    have isTerminal : (closed productions start).isTerminal production.origin = true :=
      OrderedSet.contains_iff.2 terminal
    exact (isTerminal_closed.1 isTerminal).2 (List.mem_map.2 ⟨production, mem_closed.1 member, rfl⟩)
  guarded := by
    intro production member empty user used dot here
    obtain ⟨next, after, fresh⟩ := exists_next_of_guardsEmpty
      (List.all_eq_true.1 checked.guarded user (mem_closed.1 used))
      (checked.mem_empties (mem_closed.1 member) empty) here
    refine ⟨next, after, isTerminal_closed.2 ⟨?_, fresh⟩⟩
    exact List.mem_flatMap.2 ⟨user, mem_closed.1 used, List.mem_of_getElem? after⟩
  ranked := by
    refine ⟨order.idxOf, ?_, ?_⟩
    · intro symbol
      exact Nat.le_trans List.idxOf_le_length checked.bounded
    · intro production member symbol single
      have follows := List.all_eq_true.1 checked.units production (mem_closed.1 member)
      simpa [single] using follows

end Checked

end RuleTable

/-- A grammar over checked productions is sound if none of its rules with an empty production and
none of its transparent rules is inlined. -/
theorem Grammar.sound_of_checked {grammar : Grammar} {productions : List Production}
    {start : String} {order empties : List String}
    (checked : RuleTable.Checked order empties productions)
    (table : grammar.table = .closed productions start)
    (plain : ((empties ++ grammar.transparent).all fun rule => !isInlined rule) = true)
    (rooted : grammar.transparent.contains start = false) (start_ne : start ≠ endMarker)
    (repairs : endMarker ∉ grammar.repairs) (names : some endMarker ∉ grammar.vocabulary.names) :
    grammar.Sound where
  proper := table ▸ checked.proper start
  inlinable := by
    intro production member inlined
    rw [table, RuleTable.mem_closed] at member
    have outside : production.origin ∉ empties ++ grammar.transparent := by
      intro listed
      have kept := List.all_eq_true.1 plain _ listed
      rw [inlined] at kept
      cases kept
    rw [List.mem_append, not_or] at outside
    refine ⟨fun empty => outside.1 (checked.mem_empties member empty), ?_⟩
    rw [Bool.eq_false_iff, ne_eq, List.contains_iff_mem]
    exact outside.2
  rooted := by
    rw [table]
    exact rooted
  unread := by
    intro production member used
    rw [table, RuleTable.mem_closed] at member
    have different := List.all_eq_true.1
      (List.all_eq_true.1 checked.unread production member) _ used
    simp at different
  start_ne := by
    rw [table]
    exact start_ne
  repairs := repairs
  names := names

namespace Language

/-- The rules of scripts with a production of one symbol, each in front of those it leads to. -/
def Script.unitRules : List String := [
    "__try_expression_star_25", "__when_expression_star_23",
    "__postfix_unary_expression_star_19", "__prefix_unary_expression_star_18", "when_condition",
    "_when_item", "lambda_parameters", "lambda_parameter", "suggest_argument", "value_argument",
    "postfix_unary_suffix", "call_suffix", "annotated_lambda", "_unary_prefix", "_as_operator",
    "_multiplicative_operator", "_additive_operator", "_is_operator", "_in_operator",
    "_comparison_operator", "_equality_operator", "type", "delegation_specifiers",
    "delegation_specifier", "user_type", "simple_user_type", "function_body",
    "variable_declaration", "control_body", "for_variable", "_assignment_operator", "label",
    "statements", "__statements_star_2", "_statement_item", "identifier", "kotlin_file",
    "__kotlin_file_star_0", "_file_item", "_semi", "statement", "_statement_body", "expression",
    "disjunction", "conjunction", "equality", "comparison", "infix_operation",
    "elvis_expression", "range_expression", "additive_expression", "multiplicative_expression",
    "as_expression", "prefix_unary_expression", "postfix_unary_expression", "primary_expression",
    "jump_expression", "this_expression", "string_literal", "literal_constant", "variable_read",
    "simple_identifier", "_loop_statement", "_declaration"]

theorem Script.checked_productions :
    RuleTable.Checked unitRules ["kotlin_file", "statements"] productions := by
  constructor <;> decide +kernel

theorem Script.sound_grammar : grammar.Sound := by
  have table : grammar.table = .closed productions startRule := rfl
  refine Grammar.sound_of_checked checked_productions table ?_ ?_ ?_ ?_ ?_ <;> decide +kernel

/-- The rules of descriptions with a production of one symbol, each in front of those it leads
to. -/
def Architecture.unitRules : List String := [
    "__configuration_star_14", "__style_property_star_13", "__element_style_star_12",
    "__styles_star_11", "__animation_star_10", "__include_plus_9", "__view_body_star_8",
    "__views_star_7", "__element_body_star_6", "__properties_star_4", "__directive_plus_3",
    "__workspace_star_1", "_configuration_item", "_style_item", "style_property", "_styles_item",
    "_view_expression", "_view_item", "auto_layout", "_views_item", "system_landscape_view",
    "_element_item", "identifier", "model_body", "__model_body_star_5", "_model_item", "element",
    "_element_kind", "infrastructure_node", "deployment_node", "component", "container",
    "software_system", "person", "_value", "_pair_item", "workspace_body",
    "__workspace_body_star_2", "_workspace_item", "structurizr_file",
    "__structurizr_file_star_0"]

theorem Architecture.checked_productions :
    RuleTable.Checked unitRules ["structurizr_file", "workspace_body", "model_body"]
      productions := by
  constructor <;> decide +kernel

theorem Architecture.sound_grammar : grammar.Sound := by
  have table : grammar.table = .closed productions startRule := rfl
  refine Grammar.sound_of_checked checked_productions table ?_ ?_ ?_ ?_ ?_ <;> decide +kernel

end Language

end Typeahead
