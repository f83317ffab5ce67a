import Typeahead.Token
import Typeahead.Data.Slice

namespace Typeahead

/-! Token streams: all tokens of a text, hidden ones included, with the end token last. -/

structure TokenStream where
  tokens : Array Token
  ends : tokens.back?.map (·.type) = some eofType

namespace TokenStream

/-- What to say of a token sequence without an end token. -/
def unended : String := "token stream must end with an EOF token"

def ofTokens? (tokens : Array Token) : Option TokenStream :=
  if ends : tokens.back?.map (·.type) = some eofType then some ⟨tokens, ends⟩ else none

/-- The stream of `tokens` followed by an end token at `place`. -/
def close (tokens : Array Token) (place : Text.Place) : TokenStream where
  tokens := tokens.push
    { type := eofType, text := "", index := some tokens.size,
      line := place.line, column := place.column, start := place.offset }
  ends := by simp

def size (stream : TokenStream) : Nat := stream.tokens.size

theorem size_pos (stream : TokenStream) : 0 < stream.tokens.size := by
  have ends := stream.ends
  rcases tokens : stream.tokens with ⟨_ | ⟨token, rest⟩⟩
  · simp [tokens] at ends
  · simp

def eof (stream : TokenStream) : Token := stream.tokens.back stream.size_pos

def visible (stream : TokenStream) : List Token :=
  stream.tokens.toList.filter Token.isVisible

/-- The visible tokens with their positions in the stream. -/
def visiblePlaced (stream : TokenStream) : List (Token × Nat) :=
  stream.tokens.toList.zipIdx.filter fun placed => placed.1.isVisible

theorem map_fst_visiblePlaced (stream : TokenStream) :
    stream.visiblePlaced.map Prod.fst = stream.visible := by
  have tokens : stream.tokens.toList.zipIdx.map Prod.fst = stream.tokens.toList := by simp
  rw [visible, ← tokens, List.filter_map]
  rfl

/-- The visible tokens among those that precede the position `stop`. -/
def visibleBefore (stream : TokenStream) (stop : Int) : List Token :=
  (Slice.upTo stream.tokens stop).toList.filter Token.isVisible

def describe (stream : TokenStream) : String := s!"TokenStream({stream.size} tokens)"

end TokenStream

end Typeahead
