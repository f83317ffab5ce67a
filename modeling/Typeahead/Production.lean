namespace Typeahead

/-! Productions of a context-free grammar, and productions read up to a dot.  Symbols are names;
which of them are terminals is said by the rule table that holds the productions. -/

structure Production where
  origin : String
  symbols : List String
deriving DecidableEq, Repr, Inhabited

/-- The productions of rules given with their alternatives, in that order. -/
def Production.ofAlternatives (rules : List (String × List (List String))) : List Production :=
  rules.flatMap fun (origin, alternatives) => alternatives.map fun symbols => ⟨origin, symbols⟩

/-- The production of a given number with a dot after its first `dot` symbols. -/
structure DottedRule where
  production : Nat
  dot : Nat
deriving DecidableEq, Hashable, Repr

def DottedRule.advance (rule : DottedRule) : DottedRule := { rule with dot := rule.dot + 1 }

end Typeahead
