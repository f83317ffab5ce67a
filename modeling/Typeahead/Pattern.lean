namespace Typeahead

/-!
Lexical patterns.  What a pattern can match at the front of a text is given by the lengths of the
matches, the preferred one first, so that a later part that fails falls back on the next length.
-/

inductive Pattern where
  /-- One character of a class. -/
  | one (holds : Char → Bool)
  | word (text : List Char)
  /-- A word in any letter case. -/
  | caseless (text : List Char)
  /-- Characters of a class, as many as there are, or fewer. -/
  | run (holds : Char → Bool)
  /-- All up to and with the first `closer`, or up to the end of the text if there is none. -/
  | through (closer : List Char)
  | both (first second : Pattern)
  | either (first second : Pattern)
  | maybe (pattern : Pattern)
  | many (pattern : Pattern)
  /-- Nothing, where `pattern` does not match. -/
  | unless (pattern : Pattern)

namespace Pattern

def literal (text : String) : Pattern := .word text.toList

def atLeastOne (holds : Char → Bool) : Pattern := .both (.one holds) (.run holds)

def inOrder : List Pattern → Pattern
  | [] => .word []
  | [pattern] => pattern
  | pattern :: rest => .both pattern (inOrder rest)

def anyOf : List Pattern → Pattern
  | [] => .one fun _ => false
  | [pattern] => pattern
  | pattern :: rest => .either pattern (anyOf rest)

/-- Whether `c` is the letter `k` in one of its forms.  Besides the two cases of a letter these
are the long s, the dotless and the dotted i and the Kelvin sign. -/
def sameLetter (k c : Char) : Bool :=
  k.toLower == c.toLower ||
  match k.toLower with
  | 's' => c == '\u017f'
  | 'i' => c == '\u0131' || c == '\u0130'
  | 'k' => c == '\u212a'
  | _ => false

/-- Whether the front of the text matches `text`, character by character. -/
def startsBy (same : Char → Char → Bool) : (text cs : List Char) → Bool
  | [], _ => true
  | _, [] => false
  | k :: text, c :: cs => same k c && startsBy same text cs

/-- The length of all up to and with the first `closer`. -/
def lengthThrough (closer : List Char) : List Char → Nat
  | [] => 0
  | c :: cs =>
      if startsBy (· == ·) closer (c :: cs) then closer.length else lengthThrough closer cs + 1

/-- The lengths of repetitions of a pattern, the longest first; `fuel` bounds their number. -/
def repeated (lengths : List Char → List Nat) : (fuel : Nat) → List Char → List Nat
  | 0, _ => [0]
  | fuel + 1, cs =>
      ((lengths cs).filter (0 < ·)).flatMap
        (fun n => (repeated lengths fuel (cs.drop n)).map (n + ·)) ++ [0]

/-- The lengths of the matches of a pattern at the front of a text, the preferred one first. -/
def lengths : Pattern → List Char → List Nat
  | .one _, [] => []
  | .one holds, c :: _ => if holds c then [1] else []
  | .word text, cs => if startsBy (· == ·) text cs then [text.length] else []
  | .caseless text, cs => if startsBy sameLetter text cs then [text.length] else []
  | .run holds, cs => (List.range ((cs.takeWhile holds).length + 1)).reverse
  | .through closer, cs => [lengthThrough closer cs]
  | .both first second, cs =>
      (first.lengths cs).flatMap fun n => (second.lengths (cs.drop n)).map (n + ·)
  | .either first second, cs => first.lengths cs ++ second.lengths cs
  | .maybe pattern, cs => pattern.lengths cs ++ [0]
  | .many pattern, cs => repeated pattern.lengths cs.length cs
  | .unless pattern, cs => if (pattern.lengths cs).isEmpty then [0] else []

/-- Whether the pattern can match the whole of the text. -/
def matchesWhole (pattern : Pattern) (cs : List Char) : Bool :=
  (pattern.lengths cs).contains cs.length

end Pattern

end Typeahead
