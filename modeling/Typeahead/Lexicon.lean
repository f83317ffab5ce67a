import Typeahead.Pattern
import Typeahead.Text.LineCounter

namespace Typeahead

/-!
Lexicons: how the text of a language falls into lexemes.  At each place the first terminal whose
pattern matches takes its preferred match; the longest match has no advantage.
-/

/-- What stands at the front of a text. -/
structure Reading where
  terminal : String
  text : List Char
deriving DecidableEq, Repr

/-- A reading at its place. -/
structure Lexeme extends Reading where
  /-- The number of characters in front of it. -/
  start : Nat
  /-- Its line, counted from one. -/
  line : Nat
  /-- Its column, counted from one. -/
  column : Nat
deriving DecidableEq, Repr

structure LexicalRule where
  terminal : String
  pattern : Pattern
  /-- Terminals that take over where their pattern matches the whole lexeme. -/
  reserved : List (String × Pattern) := []

/-- A lexeme that the layout of its language cannot divide. -/
structure LayoutError where
  lexeme : Lexeme
deriving DecidableEq, Repr

structure Lexicon where
  /-- The terminals in the order in which they are tried. -/
  rules : List LexicalRule
  /-- What the language makes of the lexemes before they become tokens. -/
  layout : List Lexeme → Except LayoutError (List Lexeme) := .ok

namespace LexicalRule

/-- The terminal of a lexeme that the rule has matched. -/
def terminalOf (rule : LexicalRule) (text : List Char) : String :=
  match rule.reserved.find? fun (_, pattern) => pattern.matchesWhole text with
  | some (terminal, _) => terminal
  | none => rule.terminal

/-- What the rule finds at the front of a text. -/
def reading? (rule : LexicalRule) (cs : List Char) : Option Reading :=
  match (rule.pattern.lengths cs).head? with
  | some n => some ⟨rule.terminalOf (cs.take n), cs.take n⟩
  | none => none

theorem reading?_text {rule : LexicalRule} {cs : List Char} {reading : Reading}
    (found : rule.reading? cs = some reading) : reading.text <+: cs := by
  unfold reading? at found
  split at found
  · cases found
    exact List.take_prefix _ _
  · cases found

end LexicalRule

namespace Lexicon

def reading? (lexicon : Lexicon) (cs : List Char) : Option Reading :=
  lexicon.rules.findSome? (·.reading? cs)

/-- A reading is cut off the front of the text. -/
theorem text_of_reading? {lexicon : Lexicon} {cs : List Char} {reading : Reading}
    (found : lexicon.reading? cs = some reading) : reading.text <+: cs := by
  obtain ⟨rule, -, matched⟩ := List.exists_of_findSome?_eq_some found
  exact LexicalRule.reading?_text matched

/-- At most `fuel` lexemes from the front of what is left of a text, up to where none is found. -/
def scanUpTo (lexicon : Lexicon) :
    (fuel : Nat) → (counter : Text.LineCounter) → List Char → List Lexeme
  | 0, _, _ => []
  | fuel + 1, counter, cs =>
      match lexicon.reading? cs with
      | none => []
      | some reading =>
          if reading.text.isEmpty then []
          else
            { reading with
              start := counter.offset, line := counter.line, column := counter.column } ::
              lexicon.scanUpTo fuel (counter.feed reading.text) (cs.drop reading.text.length)

/-- The lexemes of a text, up to where none is found. -/
def scan (lexicon : Lexicon) (cs : List Char) : List Lexeme :=
  lexicon.scanUpTo cs.length .start cs

def lexemes (lexicon : Lexicon) (text : String) : Except LayoutError (List Lexeme) :=
  lexicon.layout (lexicon.scan text.toList)

end Lexicon

end Typeahead
