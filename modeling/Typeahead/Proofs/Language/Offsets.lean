import Typeahead.Proofs.Language.Answering
import Typeahead.Proofs.Language.Spelling

namespace Typeahead

/-!
Carets by the number of characters in front of them.  The token that a caret is found on begins at
or before that offset and ends at or behind it, and tokens follow each other without gaps, so that at
most two of them come into question.
-/

/-- The caret is behind the first `offset` characters of the text. -/
structure Caret.Addresses (caret : Caret) (code : List Char) (offset : Nat) : Prop where
  inside : offset ≤ code.length
  place : Text.Place.start.after (code.take offset) = ⟨offset, caret.line, caret.column⟩

namespace Caret.Addresses

variable {caret : Caret} {code : List Char} {offset : Nat} {token : Token}

/-- On one line there is one offset for each column. -/
theorem le_of_place (addresses : caret.Addresses code offset) {other : Nat}
    (line : (Text.Place.start.after (code.take other)).line = caret.line)
    (column : (Text.Place.start.after (code.take other)).column = caret.column)
    (ordered : offset ≤ other) : (code.take other).length ≤ offset := by
  obtain ⟨between, split⟩ := List.take_prefix_take_left (l := code) ordered
  rw [← split, Text.Place.after_append, addresses.place] at line column
  rw [Text.Place.line_after] at line
  simp only at line
  have flat : between.count '\n' = 0 := by omega
  rw [Text.Place.after_eq_of_flat flat] at column
  simp only at column
  have empty : between.length = 0 := by omega
  rw [← split, List.length_append, empty, List.length_take]
  omega

theorem unique (addresses : caret.Addresses code offset) {other : Nat}
    (addresses' : caret.Addresses code other) : offset = other := by
  have whole := List.length_take_of_le addresses.inside
  have whole' := List.length_take_of_le addresses'.inside
  rcases Nat.le_total offset other with ordered | ordered
  · have bound := addresses.le_of_place (by rw [addresses'.place]) (by rw [addresses'.place]) ordered
    omega
  · have bound := addresses'.le_of_place (by rw [addresses.place]) (by rw [addresses.place]) ordered
    omega

/-- The caret is so far behind the start of a token under it as columns. -/
theorem exists_left (addresses : caret.Addresses code offset) (stands : token.Stands code)
    (covers : token.covers caret.line caret.column = true) :
    token.start + (caret.column - token.column).toNat = offset ∧ offset ≤ token.stop := by
  obtain ⟨front, stands⟩ := stands
  obtain ⟨short, cut, place⟩ := stands.after_take_of_covers covers rfl
  have whole := stands.written.length_le
  have start := stands.start
  rw [List.length_append] at whole
  have same := addresses.unique ⟨by omega, place⟩
  rw [Token.stop]
  omega

theorem text_of_covers (addresses : caret.Addresses code offset) (stands : token.Stands code)
    (covers : token.covers caret.line caret.column = true) :
    token.text.toList.take (caret.column - token.column).toNat =
      (code.take offset).drop token.start.toNat := by
  obtain ⟨exactly, -⟩ := addresses.exists_left stands covers
  obtain ⟨front, stands⟩ := stands
  obtain ⟨-, cut, -⟩ := stands.after_take_of_covers covers rfl
  have start := stands.start
  have same : offset = front.length + (caret.column - token.column).toNat := by omega
  rw [same, cut, start, Int.toNat_natCast, List.drop_left]

/-- A caret in a token is under it as long as there is no line feed on the left. -/
theorem covers_of_flat (addresses : caret.Addresses code offset) (stands : token.Stands code)
    {left : Nat} (exactly : token.start + left = offset) (short : left ≤ token.text.toList.length)
    (flat : '\n' ∉ token.text.toList.take left) :
    token.covers caret.line caret.column = true := by
  obtain ⟨front, stands⟩ := stands
  have size : offset = front.length + left := by
    have start := stands.start
    omega
  have cut : code.take offset = front ++ token.text.toList.take left := by
    obtain ⟨rest, same⟩ := stands.written
    rw [size, ← same, List.append_assoc, List.take_length_add_append,
      List.take_append_of_le_length short]
  have place := addresses.place
  rw [cut, Text.Place.after_append,
    Text.Place.after_eq_of_flat (List.count_eq_zero_of_not_mem flat)] at place
  simp only [Text.Place.mk.injEq, List.length_take_of_le short] at place
  have enough : left ≤ (token.text.toList.takeWhile (· ≠ '\n')).length := by
    rw [← List.take_append_drop left token.text.toList, List.takeWhile_append_of_pos,
      List.length_append, List.length_take_of_le short]
    · exact Nat.le_add_right _ _
    · intro c member
      simpa using ne_of_mem_of_not_mem member flat
  rw [Token.covers_iff, stands.line, stands.column]
  omega

theorem covers_of_start (addresses : caret.Addresses code offset) (stands : token.Stands code)
    (start : token.start = offset) : token.covers caret.line caret.column = true :=
  addresses.covers_of_flat stands ((Int.add_zero _).trans start) (Nat.zero_le _) (by simp)

theorem locatedAt_start (addresses : caret.Addresses code offset) (stands : token.Stands code)
    (placed : token.index = some token.position) (start : token.start = offset) (context : Nat) :
    token.locatedAt caret context = .found ⟨token.position, context, ""⟩ := by
  obtain ⟨exactly, -⟩ := addresses.exists_left stands (addresses.covers_of_start stands start)
  have nothing : (caret.column - token.column).toNat = 0 := by omega
  rw [Token.locatedAt, placed]
  simp only [nothing, List.take_zero, String.ofList_nil]

end Caret.Addresses

namespace TokenStream.Spells

variable {code : List Char} {stream : TokenStream} (spells : stream.Spells code) {caret : Caret}
  {offset : Nat} {token other : Token}

include spells

/-- A caret between two characters of a token is on no other one. -/
theorem eq_of_covers_inside (addresses : caret.Addresses code offset)
    (member : token ∈ stream.tokens.toList) (member' : other ∈ stream.tokens.toList)
    (behind : token.start < offset) (before : offset < token.stop)
    (covers : other.covers caret.line caret.column = true) : other = token := by
  obtain ⟨exactly, bound⟩ := addresses.exists_left (spells.stands _ member') covers
  apply spells.eq_of_position_eq member' member
  rcases Int.lt_trichotomy other.position token.position with less | same | less
  · have apart := spells.stop_le_start member' member less
    omega
  · exact same
  · have apart := spells.stop_le_start member member' less
    omega

/-- A caret at the end of a token is on it or on the next. -/
theorem eq_or_next_of_covers (addresses : caret.Addresses code offset)
    (member : token ∈ stream.tokens.toList) (member' : other ∈ stream.tokens.toList)
    (behind : token.start < offset) (ending : offset = token.stop)
    (covers : other.covers caret.line caret.column = true) :
    other = token ∨ other.position = token.position + 1 := by
  obtain ⟨exactly, bound⟩ := addresses.exists_left (spells.stands _ member') covers
  rcases Int.lt_trichotomy other.position token.position with less | same | less
  · have apart := spells.stop_le_start member' member less
    omega
  · exact .inl (spells.eq_of_position_eq member' member same)
  · refine .inr ?_
    by_contra further
    -- a token between the two has characters of its own
    obtain ⟨i, found, place⟩ := spells.exists_getElem? member
    obtain ⟨j, found', place'⟩ := spells.exists_getElem? member'
    have inside := (Array.getElem?_eq_some_iff.1 found').1
    have between : stream.tokens[i + 1]? = some stream.tokens[i + 1] := by
      rw [Array.getElem?_eq_getElem]
    have listed : stream.tokens[i + 1] ∈ stream.tokens.toList :=
      Array.mem_toList_iff.2 (Array.mem_of_getElem? between)
    have middle : stream.tokens[i + 1].position = (i + 1 : Nat) := by
      rw [Token.position, spells.indexed _ _ between, Option.getD_some]
    have apart := spells.stop_le_start member listed (by omega)
    have apart' := spells.stop_le_start listed member' (by omega)
    have inner : stream.tokens[i + 1] ≠ stream.eof := by
      intro same
      have last := spells.position_le_eof member'
      rw [← same, middle] at last
      omega
    have filled := spells.filled _ listed inner
    rw [ne_eq, ← String.toList_eq_nil_iff, ← ne_eq, ← List.length_pos_iff] at filled
    rw [Token.stop] at apart'
    omega

end TokenStream.Spells

namespace Grammar

variable {grammar : Grammar}

/-- What a token has from its terminal and its text. -/
structure Bears (grammar : Grammar) (reading : Reading) (token : Token) : Prop where
  type : grammar.vocabulary.type? reading.terminal = some token.type
  text : token.text.toList = reading.text
  hidden : token.hidden = grammar.hidden.contains reading.terminal
  comment : token.comment = grammar.comments.contains reading.terminal

theorem exists_bears_of_tokensFrom {index : Nat} {lexemes : List Lexeme} {tokens : List Token}
    (made : grammar.tokensFrom index lexemes = .ok tokens) {i : Nat} {token : Token}
    (found : tokens[i]? = some token) :
    ∃ lexeme, lexemes[i]? = some lexeme ∧ grammar.Bears lexeme.toReading token := by
  induction lexemes generalizing index tokens i with
  | nil =>
      obtain rfl := Except.ok.inj made
      cases found
  | cons lexeme rest ih =>
      obtain ⟨first, own, made⟩ := exists_of_bind_eq_ok made
      obtain ⟨later, onward, made⟩ := exists_of_bind_eq_ok made
      obtain rfl := Except.ok.inj made
      cases i with
      | zero =>
          obtain rfl := Option.some.inj found
          unfold Grammar.token at own
          split at own
          · cases own
          · rename_i type typed
            obtain rfl := Except.ok.inj own
            exact ⟨lexeme, rfl, typed, String.toList_ofList, rfl, rfl⟩
      | succ i => exact ih onward found

theorem exists_bears {text : String} {stream : TokenStream}
    (tokenized : grammar.tokenize text = .ok stream) {i : Nat} {token : Token}
    (found : stream.tokens[i]? = some token) (inner : token ≠ stream.eof) :
    ∃ lexemes lexeme, grammar.lexicon.lexemes text = .ok lexemes ∧ lexemes[i]? = some lexeme ∧
      grammar.Bears lexeme.toReading token := by
  obtain ⟨lexemes, tokens, read, made, rfl⟩ := exists_of_tokenize_eq_ok tokenized
  rw [← Array.getElem?_toList, TokenStream.toList_close, List.getElem?_append] at found
  split at found
  · obtain ⟨lexeme, here, bears⟩ := exists_bears_of_tokensFrom made found
    exact ⟨lexemes, lexeme, read, here, bears⟩
  · have last := List.mem_of_getElem? found
    exact absurd (List.mem_singleton.1 last) inner

/-- The tokens of a tree are visible, but for those that were made up and the end token. -/
theorem Covers.visible_or_eof {stream : TokenStream} {parse : Parse} {skipped gained : List Nat}
    {tree : SyntaxTree} {outline : Outline}
    (covers : grammar.Covers stream parse skipped gained tree outline) {token : Token}
    (member : token ∈ outline.streamed) : token.isVisible = true ∨ token = stream.eof := by
  have seen : ∀ index, index ∈ stream.visiblePositions → stream.tokens[index]? = some token →
      token.isVisible = true := by
    intro index position found
    obtain ⟨own, found', shown⟩ := TokenStream.mem_visiblePositions.1 position
    rw [found] at found'
    rwa [Option.some.inj found']
  obtain ⟨inside, placed⟩ := List.mem_filter.1 member
  rw [← covers.closed.tokens_eq, covers.mem_tokens_iff] at inside
  rcases inside with ⟨index, passed, found⟩ | ⟨leaf, listed, rfl⟩ | rfl
  · exact .inl (seen index (covers.perm.subset (List.mem_append_left _ passed)) found)
  · rcases covers.leafToken_cases listed with ⟨index, read, -, found⟩ | ⟨-, none, -⟩
    · exact .inl (seen index (covers.sublist.subset (covers.within index read)) found)
    · simp [Token.conjured, none] at placed
  · exact .inr rfl

end Grammar

namespace Language

/-- There is nothing between a token and the next. -/
theorem start_eq_stop (language : Language) {text : String} {stream : TokenStream}
    (tokenized : language.support.grammar.tokenize text = .ok stream) {index : Nat}
    {token behind : Token} (found : stream.tokens[index]? = some token)
    (next : stream.tokens[index + 1]? = some behind) : behind.start = token.stop := by
  obtain ⟨tokens, split, -, stands⟩ :=
    Grammar.exists_standsAt_of_tokenize tokenized fun _ => language.flatMap_text_lexemes
  have start := (stands index token found).start
  have start' := (stands (index + 1) behind next).start
  rw [← Array.getElem?_toList, split] at found next
  have inside : index < tokens.length := by
    have bound := (List.getElem?_eq_some_iff.1 next).1
    simp only [List.length_append, List.length_singleton] at bound
    omega
  rw [List.getElem?_append_left inside] at found
  rw [List.take_add_one, found, Option.toList_some, List.flatMap_append, List.length_append,
    List.flatMap_singleton] at start'
  rw [start', Token.stop, start]
  omega

theorem hidden_of_comment (language : Language) {text : String} {stream : TokenStream}
    (tokenized : language.support.grammar.tokenize text = .ok stream) {token : Token}
    (member : token ∈ stream.tokens.toList) (comment : token.comment = true) :
    token.hidden = true := by
  have listed : language.support.grammar.comments.all language.support.grammar.hidden.contains =
      true := by
    cases language <;> decide
  have inner : token ≠ stream.eof := by
    intro same
    rw [same, (Grammar.eof_of_tokenize tokenized).2.2] at comment
    cases comment
  obtain ⟨index, found⟩ := List.getElem?_of_mem member
  rw [Array.getElem?_toList] at found
  obtain ⟨_, lexeme, -, -, bears⟩ := Grammar.exists_bears tokenized found inner
  rw [bears.hidden]
  rw [bears.comment, List.contains_iff_mem] at comment
  exact List.all_eq_true.1 listed _ comment

end Language

end Typeahead
