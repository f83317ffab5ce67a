import Typeahead.Lexicon
import Typeahead.Language.CharClass

namespace Typeahead.Language.Script

/-!
The layout of Kotlin scripts.  A string becomes its quotes and the text between them.  A line end
directly inside parentheses or square brackets is spacing; inside braces it separates statements
again, even when the braces stand in parentheses.
-/

open Pattern

def quote : List Char := ['"']

def tripleQuote : List Char := ['"', '"', '"']

/-- A backslash and the character that it escapes. -/
def escape : Pattern := .both (.one (· == '\\')) (.one (· != '\n'))

/-- What stands between the quotes of a string on one line. -/
def lineText : Pattern :=
  .many (.either escape (.one fun c => !(c == '"' || c == '\\' || isLineEnd c)))

/-- A string on one line; its closing quote may be missing. -/
def lineString : Pattern := inOrder [.word quote, lineText, .maybe (.word quote)]

/-- The lexemes with an empty text left out. -/
def nonempty (lexemes : List Lexeme) : List Lexeme := lexemes.filter fun l => !l.text.isEmpty

/-- The part of a lexeme that begins behind its first `offset` characters.  Where these end a line
its column counts from there. -/
def slice (lexeme : Lexeme) (terminal : String) (offset length : Nat) : Lexeme :=
  let before := lexeme.text.take offset
  { terminal
    text := (lexeme.text.drop offset).take length
    start := lexeme.start + offset
    line := lexeme.line + before.count '\n'
    column :=
      match Text.lastFeed? before with
      | some position => before.length - position
      | none => lexeme.column + offset }

/-- The two quotes of a string on one line, the last of which may be missing, and the text between
them. -/
def splitLineString (lexeme : Lexeme) : Except LayoutError (List Lexeme) :=
  let body := lexeme.text.drop 1
  let divisions := (lineText.lengths body).filter fun n =>
    body.drop n == [] || body.drop n == quote
  match divisions.head? with
  | some n =>
      .ok (slice lexeme "QUOTE_OPEN" 0 1 ::
        nonempty [slice lexeme "LINE_STR_TEXT" 1 n, slice lexeme "QUOTE_CLOSE" (1 + n) 1])
  | none => .error ⟨lexeme⟩

/-- The two triple quotes of a string, the last of which may be missing, and the text between
them. -/
def splitMultiLineString (lexeme : Lexeme) : List Lexeme :=
  let body := lexeme.text.drop 3
  let closed := 3 ≤ body.length && body.drop (body.length - 3) == tripleQuote
  let size := if closed then body.length - 3 else body.length
  slice lexeme "TRIPLE_QUOTE_OPEN" 0 3 ::
    nonempty [slice lexeme "MULTI_LINE_STR_TEXT" 3 size,
      slice lexeme "TRIPLE_QUOTE_CLOSE" (3 + size) 3]

/-- The terminal that closes what a terminal opens. -/
def closer? : String → Option String
  | "LPAREN" => some "RPAREN"
  | "LSQUARE" => some "RSQUARE"
  | "LCURL" => some "RCURL"
  | _ => none

/-- The closers that are due, innermost first, after one more terminal.  A closer that is not the
one due is passed over. -/
def closersAfter (due : List String) (terminal : String) : List String :=
  match closer? terminal with
  | some closer => closer :: due
  | none => if due.head? = some terminal then due.tail else due

/-- Whether a line end is spacing, given the closers that are due. -/
def joinsLines (due : List String) : Bool := due.head?.any (· != "RCURL")

def layoutWithin : (due : List String) → List Lexeme → Except LayoutError (List Lexeme)
  | _, [] => .ok []
  | due, lexeme :: rest =>
      if lexeme.terminal = "LINE_STRING" then do
        return (← splitLineString lexeme) ++ (← layoutWithin due rest)
      else if lexeme.terminal = "MULTI_LINE_STRING" then do
        return splitMultiLineString lexeme ++ (← layoutWithin due rest)
      else if lexeme.terminal = "NL" && joinsLines due then do
        return { lexeme with terminal := "WS" } :: (← layoutWithin due rest)
      else do
        return lexeme :: (← layoutWithin (closersAfter due lexeme.terminal) rest)

def layout (lexemes : List Lexeme) : Except LayoutError (List Lexeme) := layoutWithin [] lexemes

end Typeahead.Language.Script
