import Typeahead.Text.CharRange
import Typeahead.Text.CaseTable

namespace Typeahead.Text

/-! Lowercase forms of texts.  Each character has its own lowercase form, except that a capital
sigma at the end of a word becomes a final sigma. -/

def isCased (c : Char) : Bool := inRanges casedRanges c

def isCaseIgnorable (c : Char) : Bool := inRanges caseIgnorableRanges c

/-- The lowercase form of a character out of context.  The dotted capital I keeps its dot as a
combining mark. -/
def lowercaseChar (c : Char) : List Char :=
  if c = '\u0130' then
    ['i', '\u0307']
  else
    match lowercaseRuns.find? fun (first, last, step, _) =>
        first ≤ c.toNat && c.toNat ≤ last && (c.toNat - first) % step == 0 with
    | some (first, _, _, image) => [Char.ofNat (image + (c.toNat - first))]
    | none => [c]

/-- Whether the nearest character that is not transparent to case has one. -/
def nextIsCased (cs : List Char) : Bool :=
  (cs.dropWhile isCaseIgnorable).head?.any isCased

/-- Lowercases a text whose part on the left, nearest character first, is `before`. -/
def lowercaseAfter (before : List Char) : List Char → List Char
  | [] => []
  | c :: rest =>
      let image :=
        if c = 'Σ' then
          if nextIsCased before && !nextIsCased rest then ['ς'] else ['σ']
        else
          lowercaseChar c
      image ++ lowercaseAfter (c :: before) rest

def lowercase (text : String) : String := .ofList (lowercaseAfter [] text.toList)

end Typeahead.Text
