import Typeahead.Prompt
import Typeahead.Proofs.Language.Comments
import Typeahead.Proofs.Language.Words

namespace Typeahead

/-!
Completions at the prompt.  The words come from the token under the cursor, and what they replace is
the word in front of the cursor.  The two agree as long as that word begins no earlier than the
token.
-/

namespace Text

theorem Place.after_shift (place : Place) (offset line : Nat) (cs : List Char) :
    (⟨offset + place.offset, line + place.line, place.column⟩ : Place).after cs =
      ⟨offset + (place.after cs).offset, line + (place.after cs).line,
        (place.after cs).column⟩ := by
  induction cs generalizing place with
  | nil => rfl
  | cons c cs ih =>
      have step : (⟨offset + place.offset, line + place.line, place.column⟩ : Place).next c =
          ⟨offset + (place.next c).offset, line + (place.next c).line, (place.next c).column⟩ := by
        unfold next
        split <;> rfl
      rw [after, List.foldl_cons, ← after, step, ih]
      rfl

theorem wordBefore_append_of_nil {cs ds : List Char} (nothing : wordBefore cs = []) :
    wordBefore (cs ++ ds) = wordBefore ds := by
  by_cases parts : ∀ c ∈ ds, Language.isWordPart c = true
  · have alone := wordBefore_append [] parts
    rw [List.nil_append] at alone
    rw [wordBefore_append cs parts, nothing, alone]
    rfl
  · simp only [not_forall, Bool.not_eq_true] at parts
    obtain ⟨c, member, apart⟩ := parts
    obtain ⟨front, d, split, apart'⟩ := exists_eq_append_wordBefore member apart
    conv_lhs => rw [split, ← List.append_assoc]
    exact wordBefore_append_cons apart' fun _ => isWordPart_of_mem_wordBefore

end Text

theorem Caret.atLeast_integer {least value : Nat} (enough : least ≤ value) :
    (Caret.Field.integer value).atLeast least = .ok value := by
  have above : ¬(value : Int) < least := by omega
  show (if (value : Int) < least then Except.error FieldError.tooSmall
    else Except.ok (value : Int).toNat) = _
  rw [if_neg above, Int.toNat_natCast]

namespace Document

variable {before : String} {document : Document}

/-- The `count` characters on the left of the cursor. -/
def textBefore (document : Document) (count : Nat) : String :=
  .ofList (document.beforeCursor.drop (document.beforeCursor.length - count))

/-- The characters on the left of the cursor, with those of the text in front of the document. -/
def offsetBehind (document : Document) (before : String) : Nat :=
  before.length + document.cursor.toNat

theorem length_wordBefore (document : Document) :
    (Text.wordBefore document.beforeCursor).length = document.wordLength :=
  List.length_reverse

theorem textBefore_wordLength (document : Document) :
    document.textBefore document.wordLength = .ofList (Text.wordBefore document.beforeCursor) := by
  rw [textBefore, ← length_wordBefore, ← List.suffix_iff_eq_drop.1 (Text.wordBefore_suffix _)]

theorem take_offsetBehind : (before ++ document.text).toList.take (document.offsetBehind before) =
    before.toList ++ document.beforeCursor := by
  rw [offsetBehind, String.toList_append, ← String.length_toList, List.take_length_add_append]
  rfl

section Behind

variable (ends : before = "" ∨ before.toList.getLast? = some '\n')

include ends

theorem after_of_ends : Text.Place.start.after before.toList =
    ⟨before.length + Text.Place.start.offset,
      before.toList.count '\n' + Text.Place.start.line, Text.Place.start.column⟩ := by
  have offset := Text.Place.offset_after .start before.toList
  have line := Text.Place.line_after .start before.toList
  have column : (Text.Place.start.after before.toList).column = Text.Place.start.column := by
    rcases ends with rfl | last
    · rfl
    · obtain ⟨front, split⟩ := List.getLast?_eq_some_iff.1 last
      rw [split, Text.Place.after_append]
      rfl
  rw [String.length_toList] at offset
  rw [Nat.add_comm, ← offset, Nat.add_comm, ← line, ← column]

theorem wordBefore_of_ends : Text.wordBefore before.toList = [] := by
  rcases ends with rfl | last
  · rfl
  · obtain ⟨front, split⟩ := List.getLast?_eq_some_iff.1 last
    rw [split]
    exact Text.wordBefore_append_cons (by decide) (by simp)

variable (inside : 0 ≤ document.cursor ∧ document.cursor ≤ document.text.length)

include inside

theorem exists_caretAfter : ∃ caret, document.caretAfter before = .ok caret ∧
    caret.Addresses (before ++ document.text).toList (document.offsetBehind before) := by
  have first : 1 ≤ document.place.line := by
    rw [place, Text.Place.line_after]
    exact Nat.le_add_right _ _
  refine ⟨⟨before.toList.count '\n' + document.place.line, document.place.column⟩, ?_, ?_, ?_⟩
  · rw [caretAfter, if_neg (by omega)]
    rw [← Int.natCast_add, Caret.ofFields, Caret.atLeast_integer (by omega),
      Caret.atLeast_integer (Nat.zero_le _)]
  · rw [offsetBehind, String.length_toList, String.length_append]
    omega
  · rw [take_offsetBehind, Text.Place.after_append, after_of_ends ends,
      Text.Place.after_shift, ← place]
    have size : document.place.offset = document.cursor.toNat := by
      rw [place, Text.Place.offset_after, beforeCursor, List.length_take, String.length_toList,
        Nat.min_eq_left (by omega)]
      exact Nat.zero_add _
    rw [size, offsetBehind]

end Behind

end Document

/-- The word begins, in any letter case, with the characters that it replaces. -/
def Replacement.Continues (replacement : Replacement) (document : Document) : Prop :=
  (Text.lowercase (document.textBefore replacement.replaced)).toList <+:
    (Text.lowercase replacement.word).toList

namespace Language.Architecture

theorem exists_name_of_mem_wordsAt {stream : TokenStream} {position : TokenPosition} {word : String}
    (member : word ∈ wordsAt stream position) :
    ∃ name ∈ terminalNames, (Text.lowercase word).toList = name.toList.map Char.toLower := by
  obtain ⟨type, -, named⟩ := List.mem_filterMap.1 member
  obtain ⟨-, name, known, rfl⟩ := wordFor?_eq_some_iff.1 named
  have listed := mem_terminalNames_of_symbolicName? known
  have capital := isCapital_terminalNames name listed
  exact ⟨name, listed, by rw [Text.lowercase_lowercase capital, Text.toList_lowercase capital]⟩

theorem all_head?_terminalNames : (terminalNames.all fun name =>
    (name.toList.map Char.toLower).head? != some 'k') = true := by
  decide +kernel

/-- Only a text that begins as a word has the start of a name as its lowercase form. -/
theorem isWordStart_of_prefix {name : String} (known : name ∈ terminalNames) {c : Char}
    {cs : List Char}
    (begins : (Text.lowercase (.ofList (c :: cs))).toList <+: name.toList.map Char.toLower) :
    isWordStart c = true := by
  rw [Text.lowercase, String.toList_ofList, String.toList_ofList, Text.lowercaseAfter] at begins
  split at begins
  · split at begins
    · exact absurd (isWordStart_of_mem_lowercase known (c := 'ς') (begins.subset (by simp)))
        (by decide)
    · exact absurd (isWordStart_of_mem_lowercase known (c := 'σ') (begins.subset (by simp)))
        (by decide)
  · rcases Text.isWordStart_or_eq_kelvin fun d member =>
      isWordStart_of_mem_lowercase known (begins.subset (List.mem_append_left _ member)) with
      start | rfl
    · exact start
    · have image : Text.lowercaseChar '\u212a' = ['k'] := by decide
      rw [image] at begins
      obtain ⟨rest, same⟩ := begins
      have other := List.all_eq_true.1 all_head?_terminalNames name known
      rw [← same] at other
      exact absurd other (by simp)

/-- Line ends are found by one rule. -/
theorem pattern_of_lineEnd {rule : LexicalRule} (member : rule ∈ lexicalRules)
    (found : "NL" ∈ rule.terminals) :
    rule.pattern = .anyOf [.literal "\r\n", .literal "\n", .literal "\r"] := by
  have split : lexicalRules = lexicalRules.take 50 ++
      { terminal := "NL", pattern := .anyOf [.literal "\r\n", .literal "\n", .literal "\r"] } ::
        lexicalRules.drop 51 := rfl
  rw [LexicalRule.eq_of_split split (by decide) member found]

section Tokens

variable {text : String} {stream : TokenStream} {token : Token} {index : Nat}
  (tokenized : grammar.tokenize text = .ok stream) (found : stream.tokens[index]? = some token)
  (inner : token ≠ stream.eof)

include tokenized found inner

/-- Each token is found at the front of some text, and the next one goes on from there. -/
theorem exists_reading? : ∃ reading rest, lexicon.reading? rest = some reading ∧
    grammar.Bears reading token ∧ ∀ behind, stream.tokens[index + 1]? = some behind →
      behind ≠ stream.eof → behind.text.toList <+: rest.drop reading.text.length := by
  obtain ⟨lexemes, lexeme, read, here, bears⟩ := Grammar.exists_bears tokenized found inner
  obtain rfl := Except.ok.inj read
  obtain ⟨rest, first, onward⟩ := Lexicon.exists_reading?_of_getElem? here
  refine ⟨lexeme.toReading, rest, first, bears, ?_⟩
  intro behind next inner'
  obtain ⟨lexemes', lexeme', read', there, bears'⟩ := Grammar.exists_bears tokenized next inner'
  obtain rfl := Except.ok.inj read'
  obtain ⟨inside, rfl⟩ := List.getElem?_eq_some_iff.1 there
  rw [← Lexicon.scan, List.drop_eq_getElem_cons inside, List.flatMap_cons] at onward
  rw [bears'.text]
  exact (List.prefix_append _ _).trans onward

theorem forall_isWordPart {c : Char} {cs : List Char} (first : token.text.toList = c :: cs)
    (start : isWordStart c = true) : ∀ d ∈ token.text.toList, isWordPart d = true := by
  obtain ⟨reading, rest, own, bears, -⟩ := exists_reading? tokenized found inner
  obtain ⟨behind, split⟩ := Lexicon.text_of_reading? own
  rw [← split, ← bears.text, first, List.cons_append] at own
  have words := text_of_isWordStart start own
  rw [bears.text, words, List.forall_mem_cons]
  exact ⟨Text.isWordPart_iff.2 (.inl start), List.all_eq_true.1 List.all_takeWhile⟩

theorem not_isWordPart_of_lineEnd (lineEnd : grammar.terminalOf token = "NL") :
    ∀ c ∈ token.text.toList, isWordPart c = false := by
  obtain ⟨reading, rest, own, bears, -⟩ := exists_reading? tokenized found inner
  have terminal : reading.terminal = "NL" := by
    have named := Vocabulary.symbolicName?_of_type? bears.type
    rwa [Grammar.terminalOf, named, Option.getD_some] at lineEnd
  obtain ⟨rule, member, cs, size, matched, rfl⟩ := Lexicon.finds_of_reading? own
  rw [pattern_of_lineEnd member (terminal ▸ rule.terminalOf_mem _)] at matched
  intro c inside
  rw [bears.text] at inside
  simpa using within_lineEnd.forall_mem_take matched c inside

end Tokens

/-- A caret on the token, behind the characters `typed` of it.  They count as typed except on a line
end, which has none that are in words. -/
structure TypedOn (code : List Char) (stream : TokenStream) (tree : ParseTree) (offset : Nat)
    (position : TokenPosition) (token : Token) (typed : List Char) : Prop where
  known : token ∈ stream.tokens.toList
  index : position.index = token.position
  start : token.start + typed.length = offset
  stop : offset ≤ token.stop
  part : typed <+: token.text.toList
  split : code.take offset = code.take token.start.toNat ++ typed
  counted : typedAt tree position = .ofList typed ∨
    typedAt tree position = "" ∧ ∀ c ∈ typed, isWordPart c = false

theorem exists_typedOn {text : String} {stream : TokenStream} {parse : Parse}
    {skipped gained : List Nat} {tree : SyntaxTree} {outline : Outline} {caret : Caret}
    {offset : Nat} {position : TokenPosition} (tokenized : grammar.tokenize text = .ok stream)
    (covers : grammar.Covers stream parse skipped gained tree outline)
    (addresses : caret.Addresses text.toList offset)
    (found : parse.tree.locate stream caret = .found position) :
    ∃ token typed, TypedOn text.toList stream parse.tree offset position token typed := by
  have spells := spells .structurizr tokenized
  obtain ⟨token, known, under, -, located, stops⟩ :=
    exists_token_of_locate .structurizr tokenized covers found
  have stands := spells.stands _ known
  obtain ⟨exactly, bound⟩ := addresses.exists_left stands under
  have cut := addresses.text_of_covers stands under
  rw [Token.locatedAt, spells.index_eq known, Located.found.injEq] at located
  generalize size : (caret.column - token.column).toNat = left at exactly cut located
  have short : left ≤ token.text.toList.length := by
    rw [Token.stop] at bound
    omega
  have typed : position.text = .ofList (token.text.toList.take left) := by rw [← located]
  refine ⟨token, token.text.toList.take left, ⟨known, by rw [← located], ?_, bound,
    List.take_prefix _ _, ?_, ?_⟩⟩
  · rw [List.length_take_of_le short, exactly]
  · rw [cut]
    conv_lhs => rw [← List.take_append_drop token.start.toNat (text.toList.take offset)]
    rw [List.take_take, Nat.min_eq_left (by omega)]
  · rw [typedAt, typed]
    split
    · rename_i lineEnd
      refine .inr ⟨rfl, ?_⟩
      intro c inside
      cases stops with
      | terminal own member =>
          rw [own, Option.any_some, beq_iff_eq] at lineEnd
          have inner : token ≠ stream.eof := by
            rintro rfl
            rw [(Grammar.eof_of_tokenize tokenized).1] at inside
            simp at inside
          obtain ⟨index, here, -⟩ := spells.exists_getElem? known
          exact not_isWordPart_of_lineEnd tokenized here inner lineEnd c
            ((List.take_prefix _ _).subset inside)
      | between rule =>
          rw [rule] at lineEnd
          cases lineEnd
    · exact .inl rfl

/-- A token is at the start of the text or right behind another one. -/
theorem exists_previous {text : String} {stream : TokenStream} {token : Token}
    (tokenized : grammar.tokenize text = .ok stream) (known : token ∈ stream.tokens.toList)
    (filled : text.toList.take token.start.toNat ≠ []) :
    ∃ (index : Nat) (previous : Token) (front : List Char),
      stream.tokens[index]? = some previous ∧ stream.tokens[index + 1]? = some token ∧
      text.toList.take token.start.toNat = front ++ previous.text.toList := by
  have spells := spells .structurizr tokenized
  obtain ⟨index, found, -⟩ := spells.exists_getElem? known
  cases index with
  | zero =>
      obtain ⟨tokens, -, -, stands⟩ := Grammar.exists_standsAt_of_tokenize tokenized
        fun _ => flatMap_text_lexemes .structurizr
      rw [(stands 0 token found).start] at filled
      simp at filled
  | succ index =>
      have inside := (Array.getElem?_eq_some_iff.1 found).1
      obtain ⟨previous, here⟩ : ∃ previous, stream.tokens[index]? = some previous :=
        ⟨_, Array.getElem?_eq_getElem (by omega)⟩
      have start := start_eq_stop .structurizr tokenized here found
      obtain ⟨front, stands⟩ :=
        spells.stands previous (Array.mem_toList_iff.2 (Array.mem_of_getElem? here))
      refine ⟨index, previous, front, here, found, ?_⟩
      rw [List.prefix_iff_eq_take.1 stands.written, List.length_append]
      congr 1
      rw [start, Token.stop, stands.start]
      omega

/-- Where a word reaches from one token into the next, it is cut there. -/
theorem exists_cut {text : String} {stream : TokenStream} {token : Token} {next : Char}
    {others : List Char} (tokenized : grammar.tokenize text = .ok stream)
    (known : token ∈ stream.tokens.toList) (begins : next :: others <+: token.text.toList)
    (ahead : Text.wordBefore (text.toList.take token.start.toNat) ≠ []) :
    ∃ before front last rest reading, lexicon.reading? (front ++ last :: next :: rest) = some reading ∧
      reading.text = front ++ [last] ∧ isWordPart last = true ∧
      text.toList.take token.start.toNat = before ++ reading.text := by
  have spells := spells .structurizr tokenized
  obtain ⟨index, previous, before, here, there, split⟩ := exists_previous tokenized known (by
    intro nothing
    rw [nothing] at ahead
    exact ahead rfl)
  have known' := Array.mem_toList_iff.2 (Array.mem_of_getElem? here)
  have inner : token ≠ stream.eof := by
    rintro rfl
    rw [(Grammar.eof_of_tokenize tokenized).1] at begins
    simp at begins
  have inner' : previous ≠ stream.eof := by
    rintro rfl
    have bound := spells.position_le_eof known
    rw [Token.position, Token.position, spells.indexed _ _ here, spells.indexed _ _ there] at bound
    simp only [Option.getD_some] at bound
    omega
  obtain ⟨reading, cs, own, bears, onward⟩ := exists_reading? tokenized here inner'
  rw [bears.text] at split
  have filled : reading.text ≠ [] := by
    rw [← bears.text, ne_eq, String.toList_eq_nil_iff]
    exact spells.filled _ known' inner'
  obtain ⟨front, last, ending⟩ := (List.eq_nil_or_concat reading.text).resolve_left filled
  rw [List.concat_eq_append] at ending
  have part : isWordPart last = true := by
    rw [← Bool.not_eq_false]
    intro apart
    rw [split, ending, ← List.append_assoc] at ahead
    exact ahead (Text.wordBefore_append_cons apart (by simp))
  obtain ⟨behind, whole⟩ := Lexicon.text_of_reading? own
  have follows := onward token there inner
  rw [← whole, List.drop_left] at follows
  obtain ⟨rest, same⟩ := begins.trans follows
  refine ⟨before, front, last, others ++ rest, reading, ?_, ending, part, split⟩
  rw [← own, ← whole, ending, ← same]
  simp

namespace TypedOn

variable {text : String} {stream : TokenStream} {tree : ParseTree} {offset : Nat}
  {position : TokenPosition} {token : Token} {typed : List Char} {word : String}
  (tokenized : grammar.tokenize text = .ok stream)
  (typedOn : TypedOn text.toList stream tree offset position token typed)
  (listed : word ∈ Matcher.startsWith (typedAt tree position) (wordsAt stream position))

include typedOn listed

/-- With something typed that is in words, the word begins with all that is typed. -/
theorem exists_name {c : Char} (member : c ∈ typed) (part : isWordPart c = true) :
    ∃ name ∈ terminalNames, (Text.lowercase word).toList = name.toList.map Char.toLower ∧
      (Text.lowercase (.ofList typed)).toList <+: name.toList.map Char.toLower := by
  obtain ⟨offered, fits⟩ := Matcher.mem_startsWith.1 listed
  obtain ⟨name, known, lower⟩ := exists_name_of_mem_wordsAt offered
  refine ⟨name, known, lower, ?_⟩
  rcases typedOn.counted with own | ⟨-, apart⟩
  · rw [own, lower] at fits
    refine fits.resolve_left ?_
    intro blank
    have empty := List.all_eq_true.1 blank c (by rwa [String.toList_ofList])
    rw [Text.isBlank_of_isWordPart part] at empty
    cases empty
  · rw [apart c member] at part
    cases part

include tokenized

theorem forall_typed {c : Char} (member : c ∈ typed) (part : isWordPart c = true) :
    ∀ d ∈ typed, isWordPart d = true := by
  obtain ⟨name, known, -, begins⟩ := typedOn.exists_name listed member part
  obtain ⟨first, others, rfl⟩ := List.exists_cons_of_ne_nil (List.ne_nil_of_mem member)
  have start := isWordStart_of_prefix known begins
  obtain ⟨behind, whole⟩ := typedOn.part
  have inner : token ≠ stream.eof := by
    rintro rfl
    rw [(Grammar.eof_of_tokenize tokenized).1] at whole
    simp at whole
  obtain ⟨index, found, -⟩ := (spells .structurizr tokenized).exists_getElem? typedOn.known
  intro d inside
  exact forall_isWordPart tokenized found inner whole.symm start d (typedOn.part.subset inside)

/-- If the word in front of the caret begins in the token, then what is offered goes on from it. -/
theorem continues
    (small : (Text.wordBefore (text.toList.take offset)).length ≤ typed.length) :
    (Text.lowercase (.ofList (Text.wordBefore (text.toList.take offset)))).toList <+:
      (Text.lowercase word).toList := by
  rw [typedOn.split] at small ⊢
  rcases List.eq_nil_or_concat (Text.wordBefore (text.toList.take token.start.toNat ++ typed)) with
    nothing | ⟨front, last, ending⟩
  · rw [nothing]
    exact List.nil_prefix
  · have member : last ∈ Text.wordBefore (text.toList.take token.start.toNat ++ typed) := by
      simp [ending]
    have inside : last ∈ typed :=
      (List.suffix_of_suffix_length_le (Text.wordBefore_suffix _) (List.suffix_append _ typed)
        small).subset member
    have part := Text.isWordPart_of_mem_wordBefore member
    obtain ⟨name, -, lower, begins⟩ := typedOn.exists_name listed inside part
    -- all that is typed is in the word, which is not longer
    have whole := Text.wordBefore_append (text.toList.take token.start.toNat)
      (typedOn.forall_typed tokenized listed inside part)
    rw [whole, List.length_append] at small
    have nothing : Text.wordBefore (text.toList.take token.start.toNat) = [] :=
      List.length_eq_zero_iff.1 (by omega)
    rw [whole, nothing, List.nil_append, lower]
    exact begins

/-- If the word begins in front of the token, then nothing that is offered goes on from it: no name
begins with the end of a number or of a keyword. -/
theorem not_continues (filled : typed ≠ [])
    (large : typed.length < (Text.wordBefore (text.toList.take offset)).length) :
    ¬(Text.lowercase (.ofList (Text.wordBefore (text.toList.take offset)))).toList <+:
      (Text.lowercase word).toList := by
  rw [typedOn.split] at large ⊢
  have parts : ∀ c ∈ typed, isWordPart c = true := by
    intro c member
    have inside := List.suffix_of_suffix_length_le (List.suffix_append _ typed)
      (Text.wordBefore_suffix _) (Nat.le_of_lt large)
    exact Text.isWordPart_of_mem_wordBefore (inside.subset member)
  obtain ⟨next, others, rfl⟩ := List.exists_cons_of_ne_nil filled
  have part' := parts next List.mem_cons_self
  obtain ⟨name, known, lower, -⟩ := typedOn.exists_name listed List.mem_cons_self part'
  have whole := Text.wordBefore_append (text.toList.take token.start.toNat) parts
  rw [lower, Text.lowercase_of_isWordPart fun _ => Text.isWordPart_of_mem_wordBefore, whole]
  rw [whole, List.length_append] at large
  have ahead : Text.wordBefore (text.toList.take token.start.toNat) ≠ [] :=
    List.length_pos_iff.1 (by omega)
  obtain ⟨before, front, last, rest, reading, own, ending, part, split⟩ :=
    exists_cut tokenized typedOn.known typedOn.part ahead
  rw [split]
  exact not_prefix_of_cut own ending part part' before filled known

end TypedOn

theorem exists_complete {before : String} {document : Document} {caret : Caret}
    {stream : TokenStream} {parse : Parse} (reached : document.caretAfter before = .ok caret)
    (tokenized : grammar.tokenize (before ++ document.text) = .ok stream)
    (parsed : grammar.parse stream = .ok parse) (matcher : Matcher) :
    ∃ replacements, ({ language := .structurizr, matcher } : Engine).complete before document =
        .ok replacements ∧
      replacements = ((parse.tree.locate stream caret).position?.elim [] fun position =>
        matcher (typedAt parse.tree position) (wordsAt stream position)).map
          (⟨·, document.wordLength⟩) := by
  obtain ⟨completion, suggested, suggestions⟩ := exists_suggest tokenized parsed caret matcher
  refine ⟨_, ?_, congrArg (List.map _) suggestions⟩
  rw [Engine.complete, reached]
  show (({ language := .structurizr, matcher } : Engine).suggest _ caret >>= _) = _
  rw [suggested]
  rfl

/-- Every cursor behind a text that is empty or ends a line gets completions.  On a token that begins
in front of the cursor, they go on from the word that they replace just when that word begins no
earlier than the token.  On a token that begins at the cursor they are all the words that may stand
there, whatever is replaced. -/
theorem completions_continue_iff (before : String) (document : Document)
    (ends : before = "" ∨ before.toList.getLast? = some '\n')
    (inside : 0 ≤ document.cursor ∧ document.cursor ≤ document.text.length) :
    ∃ caret stream parse replacements, document.caretAfter before = .ok caret ∧
      caret.Addresses (before ++ document.text).toList (document.offsetBehind before) ∧
      grammar.tokenize (before ++ document.text) = .ok stream ∧
      grammar.parse stream = .ok parse ∧
      ({ language := .structurizr, matcher := .startsWith } : Engine).complete before document =
        .ok replacements ∧
      match (parse.tree.locate stream caret).position? with
      | none => replacements = []
      | some position =>
          ∃ token ∈ stream.tokens.toList, position.index = token.position ∧
            token.start ≤ document.offsetBehind before ∧
            document.offsetBehind before ≤ token.stop ∧
            (∀ replacement ∈ replacements, replacement.replaced = document.wordLength ∧
              (token.start + document.wordLength ≤ document.offsetBehind before →
                replacement.Continues document) ∧
              (token.start < document.offsetBehind before → replacement.Continues document →
                token.start + document.wordLength ≤ document.offsetBehind before)) ∧
            (token.start = document.offsetBehind before →
              replacements = (wordsAt stream position).map (⟨·, document.wordLength⟩)) := by
  obtain ⟨caret, reached, addresses⟩ := document.exists_caretAfter ends inside
  obtain ⟨stream, tokenized, indexed⟩ := tokenizes .structurizr (before ++ document.text)
  obtain ⟨parse, _, _, _, outline, parsed, covers, -⟩ := exists_covers .structurizr tokenized
  obtain ⟨replacements, completed, offered⟩ :=
    exists_complete reached tokenized parsed .startsWith
  refine ⟨caret, stream, parse, replacements, reached, addresses, tokenized, parsed, completed, ?_⟩
  cases located : (parse.tree.locate stream caret).position? with
  | none => simpa [located] using offered
  | some position =>
      rw [located, Option.elim_some] at offered
      obtain ⟨token, typed, typedOn⟩ := exists_typedOn tokenized covers addresses
        (Located.eq_found_of_position? located)
      have start := typedOn.start
      have word : Text.wordBefore
          ((before ++ document.text).toList.take (document.offsetBehind before)) =
            Text.wordBefore document.beforeCursor := by
        rw [Document.take_offsetBehind,
          Text.wordBefore_append_of_nil (Document.wordBefore_of_ends ends)]
      have size := document.length_wordBefore
      refine ⟨token, typedOn.known, typedOn.index, by omega, typedOn.stop, ?_, ?_⟩
      · intro replacement member
        rw [offered] at member
        obtain ⟨own, listed, rfl⟩ := List.mem_map.1 member
        rw [Replacement.Continues, Document.textBefore_wordLength, ← word]
        refine ⟨rfl, ?_, ?_⟩
        · intro behind
          exact typedOn.continues tokenized listed (by rw [word]; omega)
        · intro ahead continues
          by_contra across
          refine typedOn.not_continues tokenized listed ?_ (by rw [word]; omega) continues
          rintro rfl
          simp only [List.length_nil] at start
          omega
      · intro same
        obtain rfl : typed = [] := List.length_eq_zero_iff.1 (by omega)
        have nothing : typedAt parse.tree position = "" :=
          typedOn.counted.elim id And.left
        rw [offered, nothing]
        rfl

namespace Indented

/-! A cursor in an indented word, behind a line that is not shown. -/

def document : Document := ⟨"    model", 6⟩

def tokens : TokenStream :=
  ⟨#[⟨11, "workspace", some 0, 1, 0, 0, false, false⟩, ⟨1, " ", some 1, 1, 9, 9, true, false⟩,
    ⟨6, "\x7b", some 2, 1, 10, 10, false, false⟩, ⟨5, "\n", some 3, 1, 11, 11, false, false⟩,
    ⟨1, "    ", some 4, 2, 0, 12, true, false⟩, ⟨19, "model", some 5, 2, 4, 16, false, false⟩,
    ⟨eofType, "", some 6, 2, 9, 21, false, false⟩], rfl⟩

theorem start_of_inside : ∀ token ∈ tokens.tokens.toList, token.start ≤ 18 → 18 ≤ token.stop →
    token.start = 16 := by
  decide

theorem completions_replace_word :
    (0 ≤ document.cursor ∧ document.cursor ≤ document.text.length) ∧
      grammar.tokenize ("workspace \x7b\n" ++ document.text) = .ok tokens ∧
      ∃ replacements, ({ language := .structurizr, matcher := .startsWith } : Engine).complete
          "workspace \x7b\n" document = .ok replacements ∧
        ∀ replacement ∈ replacements, replacement.replaced = 2 ∧ replacement.Continues document := by
  have inside : 0 ≤ document.cursor ∧ document.cursor ≤ document.text.length := by decide
  have read : grammar.tokenize ("workspace \x7b\n" ++ document.text) = .ok tokens := rfl
  obtain ⟨caret, stream, parse, replacements, -, -, tokenized, -, completed, answer⟩ :=
    completions_continue_iff "workspace \x7b\n" document (.inr (by decide)) inside
  obtain rfl : tokens = stream := Except.ok.inj (read.symm.trans tokenized)
  refine ⟨inside, read, replacements, completed, ?_⟩
  intro replacement member
  cases located : (parse.tree.locate tokens caret).position? with
  | none =>
      rw [located] at answer
      rw [answer] at member
      cases member
  | some position =>
      rw [located] at answer
      obtain ⟨token, known, -, before, behind, each, -⟩ := answer
      obtain ⟨replaced, continues, -⟩ := each replacement member
      refine ⟨replaced, continues ?_⟩
      rw [start_of_inside token known before behind]
      decide

end Indented

end Language.Architecture

end Typeahead
