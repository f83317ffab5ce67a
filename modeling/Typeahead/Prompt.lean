import Typeahead.Completion
import Typeahead.Display
import Typeahead.Language.CharClass

namespace Typeahead

/-! Completion at a prompt: lines that were entered stand in front of the document being edited. -/

structure Document where
  text : String
  /-- The number of characters on the left of the cursor. -/
  cursor : Int
deriving DecidableEq, Repr

namespace Document

/-- A document with the cursor not behind its end, and at the end unless said otherwise. -/
def ofText? (text : String) (cursor : Option Int) : Option Document :=
  let cursor := cursor.getD text.length
  if cursor ≤ text.length then some ⟨text, cursor⟩ else none

def beforeCursor (document : Document) : List Char :=
  document.text.toList.take document.cursor.toNat

/-- The place of the cursor in the document. -/
def place (document : Document) : Text.Place := Text.Place.start.after document.beforeCursor

/-- The characters of the word that ends at the cursor. -/
def wordLength (document : Document) : Nat :=
  (document.beforeCursor.reverse.takeWhile Language.isWordPart).length

end Document

/-- The caret at the cursor, in the text of the document behind `before`.  A cursor in front of the
document is on the line before its first, and on the left of that. -/
def Document.caretAfter (document : Document) (before : String) :
    Except (List (String × Caret.FieldError)) Caret :=
  let lines := before.toList.count '\n'
  let place := document.place
  if document.cursor < 0 then Caret.ofFields (.integer lines) (.integer document.cursor)
  else Caret.ofFields (.integer (lines + place.line)) (.integer place.column)

/-- The text of the lines entered so far. -/
def preamble (lines : List String) : String := String.join (lines.map (· ++ "\n"))

/-- A word to put in place of the `replaced` characters on the left of the cursor. -/
structure Replacement where
  word : String
  replaced : Nat
deriving DecidableEq, Repr

namespace Engine

/-- The completions at the cursor of a document behind the text `before`, which is empty or ends
a line. -/
def complete (engine : Engine) (before : String) (document : Document) :
    Except Fault (List Replacement) := do
  let caret ← (document.caretAfter before).mapError .caret
  let completion ← engine.suggest (before ++ document.text) caret
  return completion.suggestions.map fun word => ⟨word, document.wordLength⟩

end Engine

/-- A session at the prompt: the lines that were accepted and the line being typed. -/
structure Session where
  lines : List String := []
  typed : List Char := []
  ended : Bool := false
deriving DecidableEq, Repr

namespace Session

/-- Enter accepts the line, Control-C drops it, and Control-D on an empty line ends the session. -/
def press (session : Session) (key : Char) : Session :=
  if session.ended then session
  else if key = '\r' || key = '\n' then
    { session with lines := session.lines ++ [.ofList session.typed], typed := [] }
  else if key = '\x03' then { session with typed := [] }
  else if key = '\x04' then
    if session.typed.isEmpty then { session with ended := true } else session
  else { session with typed := session.typed ++ [key] }

def type (keys : String) : Session := keys.toList.foldl press {}

/-- What is shown in the end: the lines as a marked-up text. -/
def transcript (session : Session) : Except Display.MarkupError String :=
  Display.printed ("\n".intercalate session.lines)

end Session

end Typeahead
