import Mathlib.Algebra.GroupWithZero.Nat
import Typeahead.Proofs.Language.Locating

namespace Typeahead

/-!
The tokens of a text spell it.  The lexicons find a lexeme wherever something is left of a text, and
no lexeme is empty, so nothing is passed over; and the place of each token can be read off the
characters in front of it.
-/

namespace Text.Place

/-- At a place reached from the start the column counts the characters since the last line feed. -/
theorem column_after_start (cs : List Char) :
    (start.after cs).column = (cs.reverse.takeWhile (· ≠ '\n')).length := by
  induction cs using List.reverseRecOn with
  | nil => rfl
  | append_singleton cs c ih =>
      have step : start.after (cs ++ [c]) = (start.after cs).next c := after_append start cs [c]
      rw [step, List.reverse_append, List.reverse_singleton, List.singleton_append]
      by_cases feed : c = '\n'
      · simp [next, feed]
      · rw [List.takeWhile_cons_of_pos (by simpa using feed), List.length_cons, ← ih]
        simp [next, feed]

end Text.Place

namespace Pattern

/-- Whether all matches of the pattern have characters. -/
def consumes : Pattern → Bool
  | .one _ => true
  | .word text | .caseless text => !text.isEmpty
  | .both first second => first.consumes || second.consumes
  | .either first second => first.consumes && second.consumes
  | .run _ | .through _ | .maybe _ | .many _ | .unless _ => false

theorem pos_of_consumes {pattern : Pattern} (consumes : pattern.consumes = true) {cs : List Char}
    {size : Nat} (member : size ∈ pattern.lengths cs) : 0 < size := by
  induction pattern generalizing cs size with
  | one holds =>
      cases cs with
      | nil => cases member
      | cons c cs =>
          simp only [lengths] at member
          split at member
          · simp [List.mem_singleton.1 member]
          · cases member
  | word text | caseless text =>
      simp only [lengths] at member
      split at member
      · rw [List.mem_singleton.1 member, List.length_pos_iff]
        simpa [Pattern.consumes] using consumes
      · cases member
  | both first second ihFirst ihSecond =>
      obtain ⟨front, here, member⟩ := List.mem_flatMap.1 member
      obtain ⟨back, there, rfl⟩ := List.mem_map.1 member
      rcases Bool.or_eq_true_iff.1 consumes with left | right
      · have positive := ihFirst left here
        omega
      · have positive := ihSecond right there
        omega
  | either first second ihFirst ihSecond =>
      obtain ⟨left, right⟩ := Bool.and_eq_true_iff.1 consumes
      rcases List.mem_append.1 member with here | there
      · exact ihFirst left here
      · exact ihSecond right there
  | _ => cases consumes

end Pattern

namespace Lexicon

variable {lexicon : Lexicon}

/-- The lexicon finds something with characters at the front of every text with characters. -/
def Total (lexicon : Lexicon) : Prop :=
  ∀ c cs, ∃ reading, lexicon.reading? (c :: cs) = some reading ∧ reading.text ≠ []

/-- A lexicon without empty readings finds one everywhere if it has rules for line ends and for every
other character. -/
theorem total_of_consumes
    (consuming : (lexicon.rules.all (·.pattern.consumes)) = true)
    (ends : ∃ rule ∈ lexicon.rules,
      rule.pattern = .anyOf [.literal "\r\n", .literal "\n", .literal "\r"])
    (others : ∃ rule ∈ lexicon.rules, rule.pattern = .one (· != '\n')) : lexicon.Total := by
  intro c cs
  have matching : ∃ rule ∈ lexicon.rules, rule.pattern.lengths (c :: cs) ≠ [] := by
    by_cases feed : c = '\n'
    · obtain ⟨rule, member, same⟩ := ends
      refine ⟨rule, member, ?_⟩
      simp [same, feed, Pattern.anyOf, Pattern.literal, Pattern.lengths, Pattern.startsBy]
    · obtain ⟨rule, member, same⟩ := others
      exact ⟨rule, member, by simp [same, Pattern.lengths, feed]⟩
  have found : (lexicon.reading? (c :: cs)).isSome = true := by
    obtain ⟨rule, member, matched⟩ := matching
    obtain ⟨size, rest, same⟩ := List.exists_cons_of_ne_nil matched
    rw [reading?, List.findSome?_isSome_iff]
    exact ⟨rule, member, by simp [LexicalRule.reading?, same]⟩
  obtain ⟨reading, found⟩ := Option.isSome_iff_exists.1 found
  refine ⟨reading, found, ?_⟩
  obtain ⟨rule, member, matched⟩ := List.exists_of_findSome?_eq_some found
  unfold LexicalRule.reading? at matched
  split at matched
  · rename_i size first
    obtain rfl := Option.some.inj matched
    have positive := Pattern.pos_of_consumes (List.all_eq_true.1 consuming rule member)
      (List.mem_of_head? first)
    simp [Nat.ne_of_gt positive]
  · cases matched

/-- The lexemes of a text are the whole text. -/
theorem Total.flatMap_text_scanUpTo (total : lexicon.Total) {fuel : Nat}
    (counter : Text.LineCounter) {cs : List Char} (enough : cs.length ≤ fuel) :
    (lexicon.scanUpTo fuel counter cs).flatMap (·.text) = cs := by
  induction fuel generalizing counter cs with
  | zero =>
      obtain rfl := List.length_eq_zero_iff.1 (Nat.le_zero.1 enough)
      rfl
  | succ fuel ih =>
      cases cs with
      | nil =>
          have nothing := (lexicon.written_scanUpTo (fuel + 1) counter []).texts
          exact List.prefix_nil.1 nothing
      | cons c cs =>
          obtain ⟨reading, found, filled⟩ := total c cs
          obtain ⟨rest, split⟩ := text_of_reading? found
          have shorter : rest.length ≤ fuel := by
            have lengths := congrArg List.length split
            have positive := List.length_pos_iff.2 filled
            rw [List.length_append] at lengths
            omega
          rw [scanUpTo, found]
          simp only [List.isEmpty_iff, filled, if_false, List.flatMap_cons]
          rw [← split, List.drop_left, ih _ shorter]

end Lexicon

namespace Token

/-- The token stands at an offset of a text: its line is one more than there are line feeds in
front of it, and its column counts the characters since the last of them. -/
structure StandsAt (code : List Char) (offset : Nat) (token : Token) : Prop where
  start : token.start = offset
  line : token.line = 1 + (code.take offset).count '\n'
  column : token.column = ((code.take offset).reverse.takeWhile (· ≠ '\n')).length

theorem StandsBehind.standsAt {code front : List Char} {token : Token}
    (behind : token.StandsBehind code front) : token.StandsAt code front.length := by
  have inside : front <+: code := (List.prefix_append _ _).trans behind.written
  have whole : code.take front.length = front := (List.prefix_iff_eq_take.1 inside).symm
  refine ⟨behind.start, ?_, ?_⟩
  · rw [behind.line, Text.Place.line_after, whole]
    rfl
  · rw [behind.column, Text.Place.column_after_start, whole]

end Token

namespace Grammar

variable {grammar : Grammar}

/-- The tokens of lexemes have their texts, and each stands behind those before it. -/
theorem standsBehind_tokensFrom {code front : List Char} {index : Nat} {lexemes : List Lexeme}
    {tokens : List Token} (made : grammar.tokensFrom index lexemes = .ok tokens)
    (row : Lexeme.InRow front lexemes) (written : front ++ lexemes.flatMap (·.text) <+: code) :
    tokens.flatMap (·.text.toList) = lexemes.flatMap (·.text) ∧
      ∀ (i : Nat) (token : Token), tokens[i]? = some token →
        token.StandsBehind code (front ++ (tokens.take i).flatMap (·.text.toList)) := by
  induction lexemes generalizing index front tokens with
  | nil =>
      obtain rfl := Except.ok.inj made
      exact ⟨rfl, by simp⟩
  | cons lexeme rest ih =>
      rw [List.flatMap_cons, ← List.append_assoc] at written
      obtain ⟨token, own, made⟩ := exists_of_bind_eq_ok made
      obtain ⟨later, onward, made⟩ := exists_of_bind_eq_ok made
      obtain rfl := Except.ok.inj made
      obtain ⟨texts, stands⟩ := ih onward row.2 written
      obtain ⟨text, -, -, -, -⟩ := exists_of_token_eq_ok own
      refine ⟨by rw [List.flatMap_cons, List.flatMap_cons, text, texts], ?_⟩
      intro i other found
      cases i with
      | zero =>
          obtain rfl := Option.some.inj found
          rw [List.take_zero, List.flatMap_nil, List.append_nil]
          exact standsBehind_of_token_eq_ok own row.1 ((List.prefix_append _ _).trans written)
      | succ i =>
          rw [List.take_succ_cons, List.flatMap_cons, text, ← List.append_assoc]
          exact stands i other found

/-- The tokens of a text that has been read to its end spell it, and each stands behind those
before it. -/
theorem exists_standsAt_of_tokenize {text : String} {stream : TokenStream}
    (tokenized : grammar.tokenize text = .ok stream)
    (written : ∀ lexemes, grammar.lexicon.lexemes text = .ok lexemes →
      lexemes.flatMap (·.text) = text.toList ∧ Lexeme.InRow [] lexemes) :
    ∃ tokens : List Token, stream.tokens.toList = tokens ++ [stream.eof] ∧
      tokens.flatMap (·.text.toList) = text.toList ∧
      ∀ (i : Nat) (token : Token), stream.tokens[i]? = some token →
        token.StandsAt text.toList ((tokens.take i).flatMap (·.text.toList)).length := by
  obtain ⟨lexemes, tokens, read, made, rfl⟩ := exists_of_tokenize_eq_ok tokenized
  obtain ⟨whole, row⟩ := written lexemes read
  have inside : [] ++ lexemes.flatMap (·.text) <+: text.toList := by
    rw [whole, List.nil_append]
  obtain ⟨texts, stands⟩ := standsBehind_tokensFrom made row inside
  rw [whole] at texts
  refine ⟨tokens, by simp [TokenStream.toList_close], texts, ?_⟩
  intro i token found
  apply Token.StandsBehind.standsAt
  rw [← Array.getElem?_toList, TokenStream.toList_close] at found
  by_cases here : i < tokens.length
  · rw [List.getElem?_append_left here] at found
    exact stands i token found
  · -- only the end token is left
    rw [List.getElem?_append_right (Nat.le_of_not_lt here), List.getElem?_singleton] at found
    split at found
    · obtain rfl := Option.some.inj found
      rw [List.take_of_length_le (Nat.le_of_not_lt here), texts, TokenStream.eof_close]
      refine ⟨by simp, ?_, rfl, rfl⟩
      simp [Text.Place.offset_after, Text.Place.start]
    · cases found

end Grammar

namespace Language

theorem Script.total_lexicon : lexicon.Total := by
  refine Lexicon.total_of_consumes (by decide +kernel)
    ⟨{ terminal := "NL", pattern := .anyOf [.literal "\r\n", .literal "\n", .literal "\r"] }, ?_, rfl⟩
    ⟨{ terminal := "ERROR_CHAR", pattern := .one _ }, ?_, rfl⟩
  · simp [lexicon, lexicalRules]
  · simp [lexicon, lexicalRules]

theorem Architecture.total_lexicon : lexicon.Total := by
  refine Lexicon.total_of_consumes (by decide +kernel)
    ⟨{ terminal := "NL", pattern := .anyOf [.literal "\r\n", .literal "\n", .literal "\r"] }, ?_, rfl⟩
    ⟨{ terminal := "ERROR_CHAR", pattern := .one _ }, ?_, rfl⟩
  · simp [lexicon, lexicalRules]
  · simp [lexicon, lexicalRules]

/-- The lexemes of a text, laid out, are the whole text, each at its place. -/
theorem flatMap_text_lexemes (language : Language) {text : String} {lexemes : List Lexeme}
    (read : language.support.grammar.lexicon.lexemes text = .ok lexemes) :
    lexemes.flatMap (·.text) = text.toList ∧ Lexeme.InRow [] lexemes := by
  cases language with
  | structurizr =>
      have row := (Architecture.written_lexemes read).2
      obtain rfl := Except.ok.inj read
      exact ⟨Architecture.total_lexicon.flatMap_text_scanUpTo _ (Nat.le_refl _), row⟩
  | kotlin =>
      have scanned := Script.lexicon.written_scanUpTo text.toList.length .start text.toList
      refine ⟨?_, (Script.written_lexemes read).2⟩
      rw [(Script.divides_layoutWithin read scanned.filled).1]
      exact Script.total_lexicon.flatMap_text_scanUpTo _ (Nat.le_refl _)

/-- The tokens of a text but for the end token have characters and spell the text.  Every token
knows its position and stands behind the texts of those before it, the end token behind the whole
text. -/
theorem tokens_spell_text (language : Language) (text : String) :
    ∃ (stream : TokenStream) (tokens : List Token),
      language.support.grammar.tokenize text = .ok stream ∧
      stream.tokens.toList = tokens ++ [stream.eof] ∧
      (∀ token ∈ tokens, token.text ≠ "" ∧ token.type ≠ eofType) ∧
      String.join (tokens.map (·.text)) = text ∧
      (∀ (i : Nat) (token : Token), stream.tokens[i]? = some token →
        token.index = some (i : Int) ∧
          token.StandsAt text.toList (((tokens.take i).map (·.text.length)).sum)) ∧
      stream.eof.text = "" ∧ stream.eof.StandsAt text.toList text.length := by
  obtain ⟨stream, tokenized, indexed⟩ := language.tokenizes text
  have spells := language.spells tokenized
  obtain ⟨tokens, split, texts, stands⟩ :=
    Grammar.exists_standsAt_of_tokenize tokenized fun _ => language.flatMap_text_lexemes
  have lengths : ∀ i, ((tokens.take i).flatMap (·.text.toList)).length =
      ((tokens.take i).map (·.text.length)).sum := by
    intro i
    simp only [List.length_flatMap, String.length_toList]
  have inner : ∀ token ∈ tokens, token ∈ stream.tokens.toList ∧ token ≠ stream.eof := by
    have distinct := spells.pairwise_position
    rw [split, List.pairwise_append] at distinct
    intro token member
    refine ⟨by rw [split]; exact List.mem_append_left _ member, ?_⟩
    intro same
    have before := distinct.2.2 token member stream.eof List.mem_cons_self
    rw [same] at before
    exact Int.lt_irrefl _ before
  have last : stream.tokens[tokens.length]? = some stream.eof := by
    rw [← Array.getElem?_toList, split]
    simp
  refine ⟨stream, tokens, tokenized, split, ?_, ?_, ?_, ?_, ?_⟩
  · intro token member
    obtain ⟨listed, different⟩ := inner token member
    exact ⟨spells.filled token listed different, spells.typed token listed different⟩
  · rw [← String.toList_inj, String.toList_join, List.flatMap_map]
    exact texts
  · intro i token found
    exact ⟨indexed i token found, lengths i ▸ stands i token found⟩
  · obtain ⟨_, _, -, -, rfl⟩ := Grammar.exists_of_tokenize_eq_ok tokenized
    rw [TokenStream.eof_close]
  · have standing := stands tokens.length stream.eof last
    rwa [List.take_length, texts, String.length_toList] at standing

end Language

end Typeahead
