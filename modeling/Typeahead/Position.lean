import Typeahead.Caret
import Typeahead.ParseTree
import Typeahead.Token.Stream

namespace Typeahead

/-!
The token under a caret.  Terminals are tried from left to right; if none of a rule's terminals
holds the caret, all tokens in the rule's range are tried, hidden ones included.
-/

structure TokenPosition where
  /-- The position of the token in the stream. -/
  index : Int
  /-- The node that holds the caret. -/
  context : Nat
  /-- The part of the token's text on the left of the caret. -/
  text : String
deriving DecidableEq, Repr

inductive Located where
  | found (position : TokenPosition)
  | inComment
  /-- The token under the caret has no position in the stream. -/
  | unplaced
  | nowhere
deriving DecidableEq, Repr

namespace Located

def position? : Located → Option TokenPosition
  | .found position => some position
  | _ => none

end Located

/-- Where a caret on the token is, with `context` as the node that holds it. -/
def Token.locatedAt (token : Token) (caret : Caret) (context : Nat) : Located :=
  match token.index with
  | none => .unplaced
  | some index =>
      let left := (caret.column - token.column).toNat
      .found ⟨index, context, .ofList (token.text.toList.take left)⟩

namespace ParseTree

/-- The first token of the stream from `first` to `last` under the caret. -/
def locateInRange (stream : TokenStream) (caret : Caret) (context : Nat) (first last : Token) :
    Option Located :=
  let range := Slice.between stream.tokens (first.index.getD 0) (last.index.getD 0 + 1)
  match range.toList.find? (·.covers caret.line caret.column) with
  | none => none
  | some token => some (if token.comment then .inComment else token.locatedAt caret context)

/-- Looks for the caret below node `i`, down to `depth` levels.  Rules that lie wholly on other
lines are passed over. -/
def locateBelow (tree : ParseTree) (stream : TokenStream) (caret : Caret) :
    (depth : Nat) → Nat → Option Located
  | 0, _ => none
  | depth + 1, i =>
      match tree.token? i with
      | some token =>
          if !token.conjured && token.covers caret.line caret.column then
            some (token.locatedAt caret i)
          else none
      | none =>
          match tree.tokenRange? i with
          | none => (tree.children i).findSome? (tree.locateBelow stream caret depth)
          | some (first, last) =>
              if caret.line < first.line || last.line < caret.line then none
              else
                match (tree.children i).findSome? (tree.locateBelow stream caret depth) with
                | some located => some located
                | none => locateInRange stream caret i first last

/-- Where a caret is.  It is nowhere if no token is under it. -/
def locate (tree : ParseTree) (stream : TokenStream) (caret : Caret) : Located :=
  (tree.locateBelow stream caret tree.size 0).getD .nowhere

end ParseTree

end Typeahead
