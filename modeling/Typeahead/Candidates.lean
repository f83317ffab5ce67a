import Typeahead.Chart
import Typeahead.Token.Vocabulary

namespace Typeahead

/-!
Candidates: what may come next after an input.  From every production still open at its end the
grammar is walked: a terminal that is reached is a candidate token; a preferred rule is reported by
name and not entered; any other rule is entered; a nullable symbol is also stepped over.
-/

structure Candidates where
  /-- The types of the tokens that may come next, in the order found, each with the types that have
  to follow it. -/
  tokens : List (Int × List Int)
  /-- The preferred rules that may come next. -/
  rules : OrderedSet String

/-- What to report and what to leave out. -/
structure CandidateFilter where
  ignored : List Int := []
  preferred : List String := []

namespace Candidates

/-- What the walk meets in a production. -/
inductive Meeting where
  /-- A terminal, with the symbols after it. -/
  | terminal (name : String) (rest : List String)
  | preferredRule (name : String)
  | rule (name : String)
deriving DecidableEq, Repr

/-- What can be met first in a row of symbols. -/
def meetings (table : RuleTable) (preferred : List String) : List String → List Meeting
  | [] => []
  | symbol :: rest =>
      if table.isTerminal symbol then
        [.terminal symbol rest]
      else
        (if preferred.contains symbol then .preferredRule symbol else .rule symbol) ::
          if table.isNullable symbol then meetings table preferred rest else []

/-- What can be met first after the dot. -/
def meetingsAfter (table : RuleTable) (preferred : List String) (rule : DottedRule) :
    List Meeting :=
  meetings table preferred ((table.symbols rule.production).drop rule.dot)

/-- The productions that are entered after the dot. -/
def entered (table : RuleTable) (preferred : List String) (rule : DottedRule) :
    List DottedRule :=
  (meetingsAfter table preferred rule).flatMap fun
    | .rule name => (table.productionsOf name).map (⟨·, 0⟩)
    | _ => []

/-- The productions open after `chart`.  Those that were only entered there are left out: the walk
finds them again, unless a preferred rule stands in front. -/
def openRules (table : RuleTable) (chart : Chart) : OrderedSet DottedRule :=
  if chart.before.isEmpty then
    .ofList ((table.productionsOf table.start).map (⟨·, 0⟩))
  else
    .ofList ((chart.last.toList.filter (·.origin < chart.before.size)).map (·.toDottedRule))

def walk (table : RuleTable) (preferred : List String) (roots : OrderedSet DottedRule) :
    OrderedSet DottedRule :=
  roots.saturate (entered table preferred) table.dottedRuleCount

/-- The types of the terminals at the front of a row of symbols. -/
def following (table : RuleTable) (vocabulary : Vocabulary) (symbols : List String) : List Int :=
  (symbols.takeWhile table.isTerminal).filterMap vocabulary.type?

/-- Reports what is met, unless it was reported before. -/
def report (table : RuleTable) (vocabulary : Vocabulary) (ignored : List Int)
    (candidates : Candidates) : Meeting → Candidates
  | .terminal name rest =>
      match vocabulary.type? name with
      | none => candidates
      | some type =>
          if ignored.contains type || candidates.tokens.any (·.1 == type) then candidates
          else
            { candidates with
              tokens := candidates.tokens ++ [(type, following table vocabulary rest)] }
  | .preferredRule name => { candidates with rules := candidates.rules.insert name }
  | .rule _ => candidates

/-- The candidates after `chart`. -/
def after (table : RuleTable) (vocabulary : Vocabulary) (filter : CandidateFilter)
    (chart : Chart) : Candidates :=
  let visited := walk table filter.preferred (openRules table chart)
  (visited.toList.flatMap (meetingsAfter table filter.preferred)).foldl
    (report table vocabulary filter.ignored) ⟨[], ∅⟩

end Candidates

end Typeahead
