import Mathlib.Data.List.Infix
import Typeahead.Proofs.Tokenizing

namespace Typeahead

/-!
Where the tokens of a text stand.  They follow each other in the text, each with a text of its own,
so that later tokens begin on later lines or further right, and a caret touches at most two tokens,
which then stand next to each other.
-/

namespace Text.Place

variable {place : Place} {cs : List Char}

theorem after_eq_of_flat (flat : cs.count '\n' = 0) :
    place.after cs = ⟨place.offset + cs.length, place.line, place.column + cs.length⟩ := by
  induction cs generalizing place with
  | nil => rfl
  | cons c rest ih =>
      have plain : c ≠ '\n' := by
        intro same
        simp [same] at flat
      rw [List.count_cons_of_ne plain] at flat
      rw [after, List.foldl_cons, ← after, ih flat, List.length_cons]
      simp only [next, plain, if_false, mk.injEq, true_and]
      omega

end Text.Place

namespace Token

/-- The token's text stands in `code` behind `front`, where its line and its column say. -/
structure StandsBehind (code front : List Char) (token : Token) : Prop where
  written : front ++ token.text.toList <+: code
  start : token.start = front.length
  line : token.line = (Text.Place.start.after front).line
  column : token.column = (Text.Place.start.after front).column

def stop (token : Token) : Int := token.start + token.text.toList.length

def Stands (code : List Char) (token : Token) : Prop := ∃ front, token.StandsBehind code front

theorem covers_iff {token : Token} {line column : Int} : token.covers line column = true ↔
    token.line = line ∧ token.column ≤ column ∧
      column ≤ token.column + (token.text.toList.takeWhile (· ≠ '\n')).length := by
  rw [covers, Bool.and_eq_true, Bool.and_eq_true, beq_iff_eq, decide_eq_true_iff,
    decide_eq_true_iff, and_assoc]
  rfl

section Order

variable {code front later : List Char} {first second third : Token}

theorem StandsBehind.exists_between (before : first.StandsBehind code front)
    (behind : second.StandsBehind code later) (ordered : first.stop ≤ second.start) :
    ∃ between, later = front ++ (first.text.toList ++ between) := by
  have shorter : (front ++ first.text.toList).length ≤ later.length := by
    rw [stop, before.start, behind.start] at ordered
    rw [List.length_append]
    omega
  have inside : later <+: code := (List.prefix_append _ _).trans behind.written
  obtain ⟨between, same⟩ := List.prefix_of_prefix_length_le before.written inside shorter
  exact ⟨between, by rw [← same, List.append_assoc]⟩

theorem line_le (before : first.Stands code) (behind : second.Stands code)
    (ordered : first.stop ≤ second.start) : first.line ≤ second.line := by
  obtain ⟨front, before⟩ := before
  obtain ⟨later, behind⟩ := behind
  obtain ⟨between, rfl⟩ := before.exists_between behind ordered
  rw [before.line, behind.line, Text.Place.after_append, Text.Place.line_after _ (_ ++ _)]
  omega

/-- On one line columns are as far apart as offsets. -/
theorem column_sub_column (before : first.Stands code) (behind : second.Stands code)
    (ordered : first.stop ≤ second.start) (same : first.line = second.line) :
    second.column - first.column = second.start - first.start := by
  obtain ⟨front, before⟩ := before
  obtain ⟨later, behind⟩ := behind
  obtain ⟨between, rfl⟩ := before.exists_between behind ordered
  have flat : (first.text.toList ++ between).count '\n' = 0 := by
    rw [before.line, behind.line, Text.Place.after_append, Text.Place.line_after _ (_ ++ _)] at same
    omega
  rw [before.column, behind.column, before.start, behind.start, Text.Place.after_append,
    Text.Place.after_eq_of_flat flat, @List.length_append _ front]
  simp only
  omega

/-- Two tokens with another one between them do not touch the same caret. -/
theorem not_covers_of_between {line column : Int} (before : first.Stands code)
    (behind : third.Stands code) (filled : second.text ≠ "") (ordered : first.stop ≤ second.start)
    (ordered' : second.stop ≤ third.start) (covers : first.covers line column = true) :
    third.covers line column = false := by
  have longer : 0 < second.text.toList.length := by
    rw [List.length_pos_iff, ne_eq, String.toList_eq_nil_iff]
    exact filled
  have firstLine := (List.takeWhile_prefix (· ≠ '\n') (l := first.text.toList)).length_le
  rw [Bool.eq_false_iff]
  intro covers'
  rw [covers_iff] at covers covers'
  simp only [stop] at ordered ordered'
  have gap := column_sub_column before behind (by simp only [stop]; omega) (by omega)
  omega

end Order

end Token

namespace TokenStream

/-- The tokens follow each other in the text.  Only the end token has a text without characters. -/
structure Spells (code : List Char) (stream : TokenStream) : Prop where
  indexed : stream.Indexed
  stands : ∀ token ∈ stream.tokens.toList, token.Stands code
  ordered : stream.tokens.toList.Pairwise fun first second => first.stop ≤ second.start
  filled : ∀ token ∈ stream.tokens.toList, token ≠ stream.eof → token.text ≠ ""
  typed : ∀ token ∈ stream.tokens.toList, token ≠ stream.eof → token.type ≠ eofType

theorem eof_close (tokens : Array Token) (place : Text.Place) :
    (close tokens place).eof = ⟨eofType, "", some tokens.size, place.line, place.column,
      place.offset, false, false⟩ := by
  have last := (close tokens place).getElem?_eof
  simp only [size, close, Array.size_push, Nat.add_sub_cancel, Array.getElem?_push_size] at last
  exact (Option.some.inj last).symm

theorem toList_close (tokens : Array Token) (place : Text.Place) :
    (close tokens place).tokens.toList = tokens.toList ++ [(close tokens place).eof] := by
  rw [eof_close]
  simp [close]

end TokenStream

def Token.position (token : Token) : Int := token.index.getD 0

/-- In a list in the order of the stream the first token that passes a test is the one at the least
position. -/
theorem Token.find?_eq_some_iff_least {tokens : List Token} {test : Token → Bool} {token : Token}
    (ordered : tokens.Pairwise fun first second => first.position < second.position) :
    tokens.find? test = some token ↔
      token ∈ tokens ∧ test token = true ∧
        ∀ other ∈ tokens, test other = true → token.position ≤ other.position := by
  rw [List.find?_eq_some_iff_append]
  constructor
  · intro found
    obtain ⟨passes, before, after, rfl, failing⟩ := found
    refine ⟨by simp, passes, ?_⟩
    intro other member passes'
    rcases List.mem_append.1 member with earlier | here
    · have fails := failing other earlier
      simp [passes'] at fails
    · rcases List.mem_cons.1 here with rfl | later
      · exact Int.le_refl _
      · exact Int.le_of_lt (List.rel_of_pairwise_cons (List.pairwise_append.1 ordered).2.1 later)
  · intro least
    obtain ⟨member, passes, least⟩ := least
    obtain ⟨before, after, rfl⟩ := List.append_of_mem member
    refine ⟨passes, before, after, rfl, ?_⟩
    intro other earlier
    have less := (List.pairwise_append.1 ordered).2.2 other earlier token (by simp)
    rw [Bool.not_eq_true', Bool.eq_false_iff]
    intro passes'
    have bound := least other (List.mem_append_left _ earlier) passes'
    omega

theorem TokenStream.eof_mem (stream : TokenStream) : stream.eof ∈ stream.tokens.toList := by
  have last := stream.getElem?_eof
  rw [← Array.getElem?_toList] at last
  exact List.mem_of_getElem? last

namespace TokenStream.Spells

variable {code : List Char} {stream : TokenStream} (spells : stream.Spells code)
  {first second third token : Token}

include spells

theorem exists_getElem? (member : token ∈ stream.tokens.toList) :
    ∃ index : Nat, stream.tokens[index]? = some token ∧ token.position = index := by
  obtain ⟨index, found⟩ := List.getElem?_of_mem member
  rw [Array.getElem?_toList] at found
  refine ⟨index, found, ?_⟩
  rw [Token.position, spells.indexed _ _ found, Option.getD_some]

theorem index_eq (member : token ∈ stream.tokens.toList) : token.index = some token.position := by
  obtain ⟨index, found, position⟩ := spells.exists_getElem? member
  rw [position, spells.indexed _ _ found]

theorem pairwise_position :
    stream.tokens.toList.Pairwise fun first second => first.position < second.position := by
  rw [List.pairwise_iff_getElem]
  intro i j inside inside' less
  have found : stream.tokens[i]? = some stream.tokens.toList[i] := by simp
  have found' : stream.tokens[j]? = some stream.tokens.toList[j] := by simp
  rw [Token.position, Token.position, spells.indexed _ _ found, spells.indexed _ _ found']
  simpa using less

theorem pairwise_between (start stop : Int) :
    (Slice.between stream.tokens start stop).toList.Pairwise
      fun first second => first.position < second.position := by
  rw [Slice.between, Array.toList_extract, List.extract_eq_take_drop]
  exact spells.pairwise_position.sublist ((List.take_sublist _ _).trans (List.drop_sublist _ _))

theorem stop_le_start (member : first ∈ stream.tokens.toList)
    (member' : second ∈ stream.tokens.toList) (less : first.position < second.position) :
    first.stop ≤ second.start := by
  obtain ⟨i, found, position⟩ := spells.exists_getElem? member
  obtain ⟨j, found', position'⟩ := spells.exists_getElem? member'
  obtain ⟨inside, rfl⟩ := Array.getElem?_eq_some_iff.1 found
  obtain ⟨inside', rfl⟩ := Array.getElem?_eq_some_iff.1 found'
  exact List.pairwise_iff_getElem.1 spells.ordered i j inside inside' (by omega)

theorem eq_of_position_eq (member : first ∈ stream.tokens.toList)
    (member' : second ∈ stream.tokens.toList) (same : first.position = second.position) :
    first = second := by
  obtain ⟨i, found, position⟩ := spells.exists_getElem? member
  obtain ⟨j, found', position'⟩ := spells.exists_getElem? member'
  obtain rfl : i = j := by omega
  exact Option.some.inj (found.symm.trans found')

theorem line_le (member : first ∈ stream.tokens.toList) (member' : second ∈ stream.tokens.toList)
    (ordered : first.position ≤ second.position) : first.line ≤ second.line := by
  rcases Int.lt_or_eq_of_le ordered with less | same
  · exact Token.line_le (spells.stands _ member) (spells.stands _ member')
      (spells.stop_le_start member member' less)
  · exact Int.le_of_eq (congrArg _ (spells.eq_of_position_eq member member' same))

theorem position_le_eof (member : token ∈ stream.tokens.toList) :
    token.position ≤ stream.eof.position := by
  obtain ⟨index, found, position⟩ := spells.exists_getElem? member
  have inside : index < stream.size := (Array.getElem?_eq_some_iff.1 found).1
  rw [position, Token.position, index_eof spells.indexed, Option.getD_some]
  omega

theorem not_covers_of_between {line column : Int} (member : first ∈ stream.tokens.toList)
    (member' : second ∈ stream.tokens.toList) (member'' : third ∈ stream.tokens.toList)
    (less : first.position < second.position) (less' : second.position < third.position)
    (covers : first.covers line column = true) : third.covers line column = false := by
  have inner : second ≠ stream.eof := by
    intro same
    have bound := spells.position_le_eof member''
    rw [same] at less'
    omega
  exact Token.not_covers_of_between (spells.stands _ member) (spells.stands _ member'')
    (spells.filled _ member' inner) (spells.stop_le_start member member' less)
    (spells.stop_le_start member' member'' less') covers

theorem mem_between (member : first ∈ stream.tokens.toList)
    (member' : second ∈ stream.tokens.toList) :
    token ∈ (Slice.between stream.tokens first.position (second.position + 1)).toList ↔
      token ∈ stream.tokens.toList ∧ first.position ≤ token.position ∧
        token.position ≤ second.position := by
  obtain ⟨low, found, position⟩ := spells.exists_getElem? member
  obtain ⟨high, found', position'⟩ := spells.exists_getElem? member'
  have inside := (Array.getElem?_eq_some_iff.1 found).1
  have inside' := (Array.getElem?_eq_some_iff.1 found').1
  have cuts : Slice.cut stream.tokens.size (low : Int) = low ∧
      Slice.cut stream.tokens.size ((high : Int) + 1) = high + 1 := by
    simp only [Slice.cut]
    constructor <;> split <;> omega
  rw [position, position', Slice.between, cuts.1, cuts.2, Array.mem_toList_iff,
    Array.mem_extract_iff_getElem]
  constructor
  · intro found
    obtain ⟨offset, bound, rfl⟩ := found
    have here : stream.tokens[low + offset]? = some stream.tokens[low + offset] := by simp
    rw [Token.position, spells.indexed _ _ here, Option.getD_some]
    refine ⟨by simp, by omega, by omega⟩
  · intro within
    obtain ⟨inside, above, below⟩ := within
    obtain ⟨index, here, place⟩ := spells.exists_getElem? inside
    obtain ⟨bound, same⟩ := Array.getElem?_eq_some_iff.1 here
    have whole : low + (index - low) = index := by omega
    exact ⟨index - low, by omega, by simp [whole, same]⟩

end TokenStream.Spells

theorem exists_of_bind_eq_ok {ε α β : Type} {first : Except ε α} {next : α → Except ε β} {b : β}
    (made : (first >>= next) = .ok b) : ∃ a, first = .ok a ∧ next a = .ok b := by
  cases first with
  | error fault => cases made
  | ok a => exact ⟨a, rfl, made⟩

namespace Lexeme

/-- The lexeme's start, line and column are those behind `front`. -/
structure StandsBehind (front : List Char) (lexeme : Lexeme) : Prop where
  start : lexeme.start = front.length
  line : lexeme.line = (Text.Place.start.after front).line
  column : lexeme.column = (Text.Place.start.after front).column + 1

/-- The lexemes stand one after the other behind `front`. -/
def InRow : (front : List Char) → List Lexeme → Prop
  | _, [] => True
  | front, lexeme :: rest => lexeme.StandsBehind front ∧ InRow (front ++ lexeme.text) rest

theorem inRow_append {front : List Char} {first second : List Lexeme} :
    InRow front (first ++ second) ↔
      InRow front first ∧ InRow (front ++ first.flatMap (·.text)) second := by
  induction first generalizing front with
  | nil => simp [InRow]
  | cons lexeme rest ih =>
      rw [List.cons_append, InRow, InRow, ih, List.flatMap_cons, List.append_assoc, and_assoc]

/-- The lexemes have texts and stand one after the other at the front of `code`. -/
structure Written (code : List Char) (lexemes : List Lexeme) : Prop where
  texts : lexemes.flatMap (·.text) <+: code
  filled : ∀ lexeme ∈ lexemes, lexeme.text ≠ []

end Lexeme

theorem Lexicon.written_scanUpTo (lexicon : Lexicon) (fuel : Nat) (counter : Text.LineCounter)
    (cs : List Char) : Lexeme.Written cs (lexicon.scanUpTo fuel counter cs) := by
  induction fuel generalizing counter cs with
  | zero => exact ⟨List.nil_prefix, by simp [scanUpTo]⟩
  | succ fuel ih =>
      rw [scanUpTo]
      split
      · exact ⟨List.nil_prefix, by simp⟩
      · rename_i reading found
        split
        · exact ⟨List.nil_prefix, by simp⟩
        · rename_i nonempty
          obtain ⟨rest, rfl⟩ := text_of_reading? found
          have later := ih (counter.feed reading.text) rest
          rw [List.drop_left]
          refine ⟨?_, List.forall_mem_cons.2 ⟨by simpa using nonempty, later.filled⟩⟩
          rw [List.flatMap_cons]
          exact (List.prefix_append_right_inj _).2 later.texts

/-- Each lexeme that is found stands behind those before it. -/
theorem Lexicon.inRow_scanUpTo (lexicon : Lexicon) (fuel : Nat) {counter : Text.LineCounter}
    {front : List Char} (read : counter.HasRead front) (cs : List Char) :
    Lexeme.InRow front (lexicon.scanUpTo fuel counter cs) := by
  induction fuel generalizing counter front cs with
  | zero => exact trivial
  | succ fuel ih =>
      rw [scanUpTo]
      split
      · exact trivial
      · rename_i reading found
        split
        · exact trivial
        · exact ⟨⟨read.offset, read.line, read.column⟩, ih (read.feed reading.text) _⟩

namespace Grammar

variable {grammar : Grammar}

theorem exists_of_token_eq_ok {index : Nat} {lexeme : Lexeme} {token : Token}
    (made : grammar.token index lexeme = .ok token) :
    token.text.toList = lexeme.text ∧ token.type ≠ eofType ∧ token.start = lexeme.start ∧
      token.line = lexeme.line ∧ token.column = (lexeme.column : Int) - 1 := by
  unfold Grammar.token at made
  split at made
  · cases made
  · rename_i type typed
    obtain rfl := Except.ok.inj made
    refine ⟨by simp, ?_, rfl, rfl, rfl⟩
    obtain ⟨i, -, rfl⟩ := Option.map_eq_some_iff.1 typed
    simp only [eofType]
    omega

/-- The token of a lexeme stands where the lexeme does. -/
theorem standsBehind_of_token_eq_ok {code front : List Char} {index : Nat} {lexeme : Lexeme}
    {token : Token} (made : grammar.token index lexeme = .ok token)
    (stands : lexeme.StandsBehind front) (written : front ++ lexeme.text <+: code) :
    token.StandsBehind code front := by
  obtain ⟨text, -, start, line, column⟩ := exists_of_token_eq_ok made
  refine ⟨text ▸ written, ?_, ?_, ?_⟩
  · rw [start, stands.start]
  · rw [line, stands.line]
  · rw [column, stands.column]
    omega

/-- The tokens of lexemes that stand behind `front` stand there, one after the other. -/
theorem stands_tokensFrom {code front : List Char} {index : Nat} {lexemes : List Lexeme}
    {tokens : List Token} (made : grammar.tokensFrom index lexemes = .ok tokens)
    (row : Lexeme.InRow front lexemes) (written : front ++ lexemes.flatMap (·.text) <+: code)
    (filled : ∀ lexeme ∈ lexemes, lexeme.text ≠ []) :
    (∀ token ∈ tokens, token.Stands code ∧ token.text ≠ "" ∧ token.type ≠ eofType ∧
        front.length ≤ token.start ∧ token.stop ≤ code.length) ∧
      tokens.Pairwise fun first second => first.stop ≤ second.start := by
  induction lexemes generalizing index front tokens with
  | nil =>
      obtain rfl := Except.ok.inj made
      exact ⟨by simp, .nil⟩
  | cons lexeme rest ih =>
      rw [List.forall_mem_cons] at filled
      rw [List.flatMap_cons, ← List.append_assoc] at written
      obtain ⟨token, own, made⟩ := exists_of_bind_eq_ok made
      obtain ⟨later, onward, made⟩ := exists_of_bind_eq_ok made
      obtain rfl := Except.ok.inj made
      obtain ⟨laterStand, laterOrdered⟩ := ih onward row.2 written filled.2
      obtain ⟨text, type, -, -, -⟩ := exists_of_token_eq_ok own
      have begins : front ++ lexeme.text <+: code := (List.prefix_append _ _).trans written
      have stands := standsBehind_of_token_eq_ok own row.1 begins
      have offset := stands.start
      have stop : token.stop = (front ++ lexeme.text).length := by
        rw [Token.stop, offset, text, List.length_append]
        omega
      refine ⟨List.forall_mem_cons.2 ⟨⟨⟨front, stands⟩, ?_, type, ?_, ?_⟩, ?_⟩,
        List.pairwise_cons.2 ⟨?_, laterOrdered⟩⟩
      · intro empty
        rw [empty] at text
        exact filled.1 text.symm
      · omega
      · have inside := begins.length_le
        omega
      · intro other member
        obtain ⟨stands, nonempty, type, first, last⟩ := laterStand other member
        rw [List.length_append] at first
        exact ⟨stands, nonempty, type, by omega, last⟩
      · intro other member
        obtain ⟨-, -, -, first, -⟩ := laterStand other member
        omega

theorem exists_of_tokenize_eq_ok {text : String} {stream : TokenStream}
    (tokenized : grammar.tokenize text = .ok stream) :
    ∃ lexemes tokens, grammar.lexicon.lexemes text = .ok lexemes ∧
      grammar.tokensFrom 0 lexemes = .ok tokens ∧
      stream = .close tokens.toArray (Text.Place.start.after text.toList) := by
  obtain ⟨lexemes, lifted, tokenized⟩ := exists_of_bind_eq_ok tokenized
  obtain ⟨tokens, made, tokenized⟩ := exists_of_bind_eq_ok tokenized
  rw [Text.Place.atEnd_eq] at tokenized
  refine ⟨lexemes, tokens, ?_, made, (Except.ok.inj tokenized).symm⟩
  cases found : grammar.lexicon.lexemes text with
  | error fault =>
      rw [found] at lifted
      cases lifted
  | ok others =>
      rw [found] at lifted
      exact congrArg _ (Except.ok.inj lifted)

theorem eof_of_tokenize {text : String} {stream : TokenStream}
    (tokenized : grammar.tokenize text = .ok stream) :
    stream.eof.text = "" ∧ stream.eof.hidden = false ∧ stream.eof.comment = false := by
  obtain ⟨lexemes, tokens, -, -, rfl⟩ := exists_of_tokenize_eq_ok tokenized
  rw [TokenStream.eof_close]
  exact ⟨rfl, rfl, rfl⟩

theorem spells_of_tokenize {text : String} {stream : TokenStream} (indexed : stream.Indexed)
    (tokenized : grammar.tokenize text = .ok stream)
    (written : ∀ lexemes, grammar.lexicon.lexemes text = .ok lexemes →
      Lexeme.Written text.toList lexemes ∧ Lexeme.InRow [] lexemes) :
    stream.Spells text.toList := by
  obtain ⟨lexemes, tokens, read, made, rfl⟩ := exists_of_tokenize_eq_ok tokenized
  obtain ⟨⟨texts, filled⟩, row⟩ := written lexemes read
  obtain ⟨stand, ordered⟩ := stands_tokensFrom made row texts filled
  have members : ∀ token, token ∈ (TokenStream.close tokens.toArray
      (Text.Place.start.after text.toList)).tokens.toList ↔ token ∈ tokens ∨
        token = (TokenStream.close tokens.toArray (Text.Place.start.after text.toList)).eof := by
    intro token
    rw [TokenStream.toList_close, List.mem_append, List.mem_singleton]
  refine ⟨indexed, ?_, ?_, ?_, ?_⟩
  · intro token member
    rcases (members token).1 member with inside | rfl
    · exact (stand token inside).1
    · rw [TokenStream.eof_close]
      refine ⟨text.toList, by simp, ?_, rfl, rfl⟩
      simp [Text.Place.offset_after, Text.Place.start]
  · rw [TokenStream.toList_close, List.pairwise_append]
    refine ⟨ordered, List.pairwise_singleton _ _, ?_⟩
    intro token member last single
    rw [List.mem_singleton.1 single, TokenStream.eof_close]
    have inside := (stand token member).2.2.2.2
    simpa [Text.Place.offset_after, Text.Place.start] using inside
  · intro token member inner
    exact (stand token (((members token).1 member).resolve_right inner)).2.1
  · intro token member inner
    exact (stand token (((members token).1 member).resolve_right inner)).2.2.1

end Grammar

namespace Language.Script

theorem flatMap_text_nonempty (lexemes : List Lexeme) :
    (nonempty lexemes).flatMap (·.text) = lexemes.flatMap (·.text) := by
  induction lexemes with
  | nil => rfl
  | cons lexeme rest ih =>
      rw [nonempty, List.filter_cons]
      split
      · rw [List.flatMap_cons, List.flatMap_cons, ← ih]
        rfl
      · rename_i empty
        have none : lexeme.text = [] := by simpa using empty
        rw [List.flatMap_cons, none, List.nil_append, ← ih]
        rfl

theorem text_ne_nil_of_mem_nonempty {lexemes : List Lexeme} {lexeme : Lexeme}
    (member : lexeme ∈ nonempty lexemes) : lexeme.text ≠ [] := by
  simpa using (List.mem_filter.1 member).2

/-! ### The parts of a lexeme -/

section Slices

open Lexeme

variable {lexeme : Lexeme} {front : List Char}

/-- A part stands behind what is in front of it in the lexeme. -/
theorem standsBehind_slice (stands : lexeme.StandsBehind front) (terminal : String)
    {offset : Nat} (inside : offset ≤ lexeme.text.length) (length : Nat) :
    (slice lexeme terminal offset length).StandsBehind (front ++ lexeme.text.take offset) := by
  have size : (lexeme.text.take offset).length = offset := List.length_take_of_le inside
  refine ⟨?_, ?_, ?_⟩
  · rw [List.length_append, size, ← stands.start]
    rfl
  · rw [Text.Place.after_append, Text.Place.line_after, ← stands.line]
    rfl
  · rw [Text.Place.after_append, Text.Place.column_after]
    simp only [slice]
    cases found : Text.lastFeed? (lexeme.text.take offset) with
    | none =>
        simp only
        rw [stands.column, size]
        omega
    | some position =>
        have bound := Text.lt_of_lastFeed? found
        simp only
        omega

theorem inRow_nonempty_cons {part : Lexeme} {rest : List Lexeme}
    (stands : part.text ≠ [] → part.StandsBehind front)
    (later : InRow (front ++ part.text) (nonempty rest)) :
    InRow front (nonempty (part :: rest)) := by
  by_cases empty : part.text = []
  · rw [empty, List.append_nil] at later
    simpa [nonempty, empty] using later
  · have kept : nonempty (part :: rest) = part :: nonempty rest := by simp [nonempty, empty]
    rw [kept]
    exact ⟨stands empty, later⟩

variable {first second third : String} {size length length' : Nat}

/-- Three parts one after the other stand in a row, whether or not the last two have characters. -/
theorem inRow_slices (stands : lexeme.StandsBehind front) :
    InRow front (slice lexeme first 0 size ::
      nonempty [slice lexeme second size length, slice lexeme third (size + length) length']) := by
  have within : ∀ (terminal : String) (offset length : Nat),
      (slice lexeme terminal offset length).text ≠ [] →
        (slice lexeme terminal offset length).StandsBehind (front ++ lexeme.text.take offset) := by
    intro terminal offset length filled
    apply standsBehind_slice stands
    apply Nat.le_of_not_lt
    intro outside
    exact filled (by simp [slice, List.drop_eq_nil_of_le (Nat.le_of_lt outside)])
  refine ⟨by simpa using standsBehind_slice stands first (Nat.zero_le _) size, ?_⟩
  refine inRow_nonempty_cons (within second size length) ?_
  refine inRow_nonempty_cons (fun filled => ?_) trivial
  have here := within third (size + length) length' filled
  rwa [List.take_add, ← List.append_assoc] at here

theorem flatMap_text_slices (rest : (lexeme.text.drop (size + length)).length ≤ length') :
    (slice lexeme first 0 size :: nonempty [slice lexeme second size length,
      slice lexeme third (size + length) length']).flatMap (·.text) = lexeme.text := by
  rw [List.flatMap_cons, flatMap_text_nonempty]
  simp only [slice, List.flatMap_cons, List.flatMap_nil, List.append_nil, List.drop_zero]
  rw [List.take_of_length_le rest, ← List.drop_drop, List.take_append_drop, List.take_append_drop]

/-- The parts have texts that make up the lexeme's and stand in a row where it stands. -/
structure Divides (parts : List Lexeme) (lexeme : Lexeme) : Prop where
  texts : parts.flatMap (·.text) = lexeme.text
  filled : ∀ part ∈ parts, part.text ≠ []
  row : ∀ front, lexeme.StandsBehind front → InRow front parts

theorem divides_slices (filled : lexeme.text ≠ []) (positive : 0 < size)
    (rest : (lexeme.text.drop (size + length)).length ≤ length') :
    Divides (slice lexeme first 0 size :: nonempty [slice lexeme second size length,
      slice lexeme third (size + length) length']) lexeme := by
  refine ⟨flatMap_text_slices rest, ?_, fun _ => inRow_slices⟩
  refine List.forall_mem_cons.2 ⟨?_, fun part => text_ne_nil_of_mem_nonempty⟩
  simp [slice, filled, Nat.ne_of_gt positive]

theorem divides_splitLineString {parts : List Lexeme} (filled : lexeme.text ≠ [])
    (split : splitLineString lexeme = .ok parts) : Divides parts lexeme := by
  unfold splitLineString at split
  simp only at split
  split at split
  · next n found =>
      obtain rfl := Except.ok.inj split
      refine divides_slices filled Nat.one_pos ?_
      -- behind the text there is nothing or a quote
      have division := (List.mem_filter.1 (List.mem_of_head? found)).2
      rw [← List.drop_drop]
      rcases Bool.or_eq_true_iff.1 division with none | single
      · rw [eq_of_beq none]
        exact Nat.zero_le 1
      · rw [eq_of_beq single]
        exact Nat.le_refl 1
  · cases split

theorem divides_splitMultiLineString (filled : lexeme.text ≠ []) :
    Divides (splitMultiLineString lexeme) lexeme := by
  refine divides_slices filled (by decide) ?_
  rw [← List.drop_drop, List.length_drop]
  split <;> omega

/-- The layout divides lexemes and renames terminals. -/
theorem divides_layoutWithin {due : List String} {lexemes laid : List Lexeme}
    (made : layoutWithin due lexemes = .ok laid) (filled : ∀ lexeme ∈ lexemes, lexeme.text ≠ []) :
    laid.flatMap (·.text) = lexemes.flatMap (·.text) ∧ (∀ lexeme ∈ laid, lexeme.text ≠ []) ∧
      ∀ front, InRow front lexemes → InRow front laid := by
  induction lexemes generalizing due laid with
  | nil =>
      obtain rfl := Except.ok.inj made
      exact ⟨rfl, by simp, fun _ row => row⟩
  | cons lexeme rest ih =>
      rw [List.forall_mem_cons] at filled
      -- in each of the cases some parts take the place of the lexeme
      have parts : ∃ due parts later, layoutWithin due rest = .ok later ∧ laid = parts ++ later ∧
          Divides parts lexeme := by
        have single : ∀ terminal, Divides [{ lexeme with terminal }] lexeme := by
          intro terminal
          refine ⟨by simp, by simp [filled.1], ?_⟩
          intro front stands
          exact ⟨⟨stands.start, stands.line, stands.column⟩, trivial⟩
        rw [layoutWithin] at made
        split at made
        · obtain ⟨parts, split, made⟩ := exists_of_bind_eq_ok made
          obtain ⟨later, onward, made⟩ := exists_of_bind_eq_ok made
          exact ⟨due, parts, later, onward, (Except.ok.inj made).symm,
            divides_splitLineString filled.1 split⟩
        · split at made
          · obtain ⟨later, onward, made⟩ := exists_of_bind_eq_ok made
            exact ⟨due, _, later, onward, (Except.ok.inj made).symm,
              divides_splitMultiLineString filled.1⟩
          · split at made
            · obtain ⟨later, onward, made⟩ := exists_of_bind_eq_ok made
              exact ⟨due, [_], later, onward, (Except.ok.inj made).symm, single "WS"⟩
            · obtain ⟨later, onward, made⟩ := exists_of_bind_eq_ok made
              exact ⟨_, [lexeme], later, onward, (Except.ok.inj made).symm,
                single lexeme.terminal⟩
      obtain ⟨due, parts, later, onward, rfl, divides⟩ := parts
      obtain ⟨texts, laterFilled, laterRow⟩ := ih onward filled.2
      refine ⟨by rw [List.flatMap_append, List.flatMap_cons, divides.texts, texts],
        List.forall_mem_append.2 ⟨divides.filled, laterFilled⟩, ?_⟩
      intro front row
      rw [inRow_append, divides.texts]
      exact ⟨divides.row front row.1, laterRow _ row.2⟩

end Slices

theorem written_lexemes {text : String} {lexemes : List Lexeme}
    (read : lexicon.lexemes text = .ok lexemes) :
    Lexeme.Written text.toList lexemes ∧ Lexeme.InRow [] lexemes := by
  have scanned := lexicon.written_scanUpTo text.toList.length .start text.toList
  have row := lexicon.inRow_scanUpTo text.toList.length Text.LineCounter.hasRead_start text.toList
  obtain ⟨texts, filled, kept⟩ := divides_layoutWithin read scanned.filled
  exact ⟨⟨texts ▸ scanned.texts, filled⟩, kept [] row⟩

end Language.Script

theorem Language.Architecture.written_lexemes {text : String} {lexemes : List Lexeme}
    (read : lexicon.lexemes text = .ok lexemes) :
    Lexeme.Written text.toList lexemes ∧ Lexeme.InRow [] lexemes := by
  obtain rfl := Except.ok.inj read
  exact ⟨lexicon.written_scanUpTo text.toList.length .start text.toList,
    lexicon.inRow_scanUpTo text.toList.length Text.LineCounter.hasRead_start text.toList⟩

end Typeahead
