import Typeahead.Display.Emoji
import Typeahead.Display.Literal
import Typeahead.Display.Style
import Typeahead.Text.WordChar

namespace Typeahead.Display

/-!
Marked-up text.  A tag stands in square brackets and starts with a lowercase letter or one of `#`,
`/` and `@`; one that starts with a slash closes a tag, by name or the latest.  Backslashes in front
of a tag stand for half as many, and an odd one out keeps the tag as text.  Shown without colors, a
marked-up text is what its tags leave.
-/

inductive MarkupError where
  /-- A tag is closed that is not open. -/
  | notOpen (name : String)
  | nothingOpen
  /-- The parameters of an action cannot be read. -/
  | parameters (text : String)
  | style (error : StyleError)
deriving DecidableEq, Repr

instance : MonadLift (Except StyleError) (Except MarkupError) := ⟨Except.mapError .style⟩

inductive Piece where
  | text (cs : List Char)
  | tag (cs : List Char)
deriving DecidableEq, Repr

/-- Whether a character is the first of a tag. -/
def startsTag (c : Char) : Bool := ('a' ≤ c && c ≤ 'z') || c == '#' || c == '/' || c == '@'

/-- The tag whose opening bracket was read, and what follows its closing bracket. -/
def readTag? (cs : List Char) : Option (List Char × List Char) :=
  let body := cs.takeWhile fun c => c != '[' && c != ']'
  match cs.head?.any startsTag, cs.drop body.length with
  | true, ']' :: rest => some (body, rest)
  | _, _ => none

/-- A piece of text, unless it is empty. -/
def textPiece (cs : List Char) : List Piece := if cs.isEmpty then [] else [.text cs]

/-- The pieces of a text behind the plain text `before`, in at most `fuel` steps. -/
def piecesUpTo : (fuel : Nat) → (before cs : List Char) → List Piece
  | 0, before, cs => textPiece (before ++ cs)
  | fuel + 1, before, cs =>
      let slashes := cs.takeWhile (· == '\\')
      match cs.drop slashes.length with
      | [] => textPiece (before ++ slashes)
      | c :: rest =>
          match c == '[', readTag? rest with
          | true, some (tag, rest) =>
              let piece :=
                if slashes.length % 2 == 0 then Piece.tag tag else .text ('[' :: tag ++ [']'])
              textPiece before ++ textPiece (slashes.take (slashes.length / 2)) ++
                piece :: piecesUpTo fuel [] rest
          | _, _ => piecesUpTo fuel (before ++ slashes ++ [c]) rest

def pieces (cs : List Char) : List Piece := piecesUpTo (cs.length + 1) [] cs

/-- Drops the backslash in front of each opening bracket. -/
def unescape : List Char → List Char
  | '\\' :: '[' :: rest => '[' :: unescape rest
  | c :: rest => c :: unescape rest
  | [] => []

/-- Whether the parameters of an action can be read: a name and literals in parentheses on one line,
either of which may be left out, or a literal. -/
def areReadable (parameters : String) : Bool :=
  let cs := (Text.trim parameters).toList
  let arguments := cs.dropWhile fun c => Text.isWordChar c || c == '.'
  let isCall := (between? "(" ")" arguments).isSome && !arguments.contains '\n'
  arguments.isEmpty || isLiteral (if isCall then arguments else cs)

structure OpenTag where
  name : String
  parameters : Option String
  /-- How many characters are shown in front of the tag. -/
  start : Nat
deriving DecidableEq, Repr

/-- Characters from `start` up to `stop` with a style. -/
structure Span where
  start : Nat
  stop : Nat
  style : String
deriving DecidableEq, Repr

namespace OpenTag

def isAction (tag : OpenTag) : Bool := tag.name.toList.head? == some '@'

/-- The span of a tag that is open up to a position. -/
def spanTo (tag : OpenTag) (stop : Nat) : Span :=
  let parameters := tag.parameters.map (" " ++ ·)
  { start := tag.start, stop, style := tag.name ++ parameters.getD "" }

/-- The span of a tag that is closed at a position.  An action has none; its parameters are read
instead. -/
def closeAt (tag : OpenTag) (stop : Nat) : Except MarkupError (List Span) :=
  match tag.isAction, tag.parameters with
  | false, _ => .ok [tag.spanTo stop]
  | true, none => .ok []
  | true, some text => if areReadable text then .ok [] else .error (.parameters text)

end OpenTag

/-- A text without its tags. -/
structure MarkedText where
  text : List Char := []
  /-- The tags that are not closed, latest first. -/
  opened : List OpenTag := []
  /-- The spans of the closed tags. -/
  closed : List Span := []
deriving DecidableEq, Repr

namespace MarkedText

/-- Closes the latest tag of a name, or the latest of all without a name. -/
def closeTag (marked : MarkedText) (name : String) : Except MarkupError MarkedText := do
  let style ← if name = "" then pure none else some <$> normalStyle name
  let isMeant (tag : OpenTag) : Bool := style.all (· == tag.name)
  match marked.opened.find? isMeant with
  | none => throw (if name = "" then .nothingOpen else .notOpen name)
  | some tag =>
      let spans ← tag.closeAt marked.text.length
      return { marked with
        opened := marked.opened.eraseP isMeant
        closed := marked.closed ++ spans }

/-- Adds what follows a marked-up text: plain text, or a tag that opens or closes. -/
def add (marked : MarkedText) : Piece → Except MarkupError MarkedText
  | .text cs => .ok { marked with text := marked.text ++ replaceEmoji (unescape cs) }
  | .tag tag =>
      let name := tag.takeWhile (· != '=')
      match name with
      | '/' :: rest => marked.closeTag (Text.trim (.ofList rest))
      | _ => do
          let parameters := (tag.drop name.length).tail?.map String.ofList
          let tag : OpenTag :=
            { name := ← normalStyle (.ofList name), parameters, start := marked.text.length }
          return { marked with opened := tag :: marked.opened }

def ofPieces (pieces : List Piece) : Except MarkupError MarkedText := pieces.foldlM add {}

/-- The spans of all tags; one that is not closed reaches to the end. -/
def spans (marked : MarkedText) : List Span :=
  marked.closed ++ marked.opened.map (·.spanTo marked.text.length)

/-- Whether the style of a span is looked up.  Among several lines, it is if the span has a part of
a line. -/
def draws (marked : MarkedText) (span : Span) : Bool :=
  let covered := (marked.text.drop span.start).take (span.stop - span.start)
  !marked.text.contains '\n' || covered.any (· != '\n')

/-- The text as it is shown without colors.  The styles are looked up although they do not show. -/
def shown (marked : MarkedText) : Except MarkupError (List Char) := do
  let _ ← (marked.spans.filter marked.draws).mapM fun span =>
    (normalStyle span.style : Except MarkupError String)
  return marked.text

end MarkedText

/-- A marked-up text as it is shown. -/
def renderMarkup (text : String) : Except MarkupError (List Char) := do
  (← MarkedText.ofPieces (pieces text.toList)).shown

end Typeahead.Display
