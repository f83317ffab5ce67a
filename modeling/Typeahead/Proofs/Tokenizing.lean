import Typeahead.Grammar
import Typeahead.Language.Architecture.Grammar
import Typeahead.Language.Script.Grammar

namespace Typeahead

/-!
The tokens of a text.  Every text of a language has tokens: the lexicon finds terminals of the
vocabulary only, and what it takes for a string on one line can always be divided.  Every token
knows its position.
-/

namespace TokenStream

variable {stream : TokenStream}

/-- Every token knows its position. -/
def Indexed (stream : TokenStream) : Prop :=
  ∀ (index : Nat) (token : Token),
    stream.tokens[index]? = some token → token.index = some (index : Int)

def visiblePositions (stream : TokenStream) : List Nat := stream.visiblePlaced.map (·.2)

theorem getElem?_eof (stream : TokenStream) :
    stream.tokens[stream.size - 1]? = some stream.eof := by
  have positive := stream.size_pos
  have inside : stream.size - 1 < stream.tokens.size := by
    simp only [size]
    omega
  rw [Array.getElem?_eq_getElem inside]
  rfl

theorem type_eof (stream : TokenStream) : stream.eof.type = eofType := by
  have ends := stream.ends
  rw [Array.back?_eq_getElem?] at ends
  have last := stream.getElem?_eof
  simp only [size] at last
  rw [last] at ends
  exact Option.some.inj ends

theorem mem_visiblePlaced {token : Token} {index : Nat} :
    (token, index) ∈ stream.visiblePlaced ↔
      stream.tokens[index]? = some token ∧ token.isVisible = true := by
  rw [visiblePlaced, List.mem_filter, List.mem_zipIdx_iff_getElem?, Array.getElem?_toList]

theorem mem_visiblePositions {index : Nat} :
    index ∈ stream.visiblePositions ↔
      ∃ token, stream.tokens[index]? = some token ∧ token.isVisible = true := by
  simp only [visiblePositions, List.mem_map, Prod.exists, exists_eq_right, mem_visiblePlaced]

theorem lt_of_mem_visiblePositions {index : Nat} (member : index ∈ stream.visiblePositions) :
    index < stream.size - 1 := by
  obtain ⟨token, found, visible⟩ := mem_visiblePositions.1 member
  have inside : index < stream.size := (Array.getElem?_eq_some_iff.1 found).1
  rcases Nat.lt_or_eq_of_le (Nat.le_sub_one_of_lt inside) with less | same
  · exact less
  · rw [same, stream.getElem?_eof] at found
    obtain rfl := Option.some.inj found
    simp [Token.isVisible, stream.type_eof] at visible

theorem pairwise_visiblePositions (stream : TokenStream) :
    stream.visiblePositions.Pairwise (· < ·) := by
  have all : (stream.tokens.toList.zipIdx.map (·.2)).Pairwise (· < ·) := by
    rw [List.zipIdx_map_snd]
    exact List.pairwise_lt_range'
  exact all.sublist (List.filter_sublist.map _)

theorem index_eof (indexed : stream.Indexed) :
    stream.eof.index = some ((stream.size - 1 : Nat) : Int) :=
  indexed _ _ stream.getElem?_eof

end TokenStream

namespace Pattern

/-- A match of the pattern is found again in all that is cut off behind the match. -/
def Steady (pattern : Pattern) : Prop :=
  ∀ cs size, size ∈ pattern.lengths cs →
    size ≤ cs.length ∧ ∀ stop, size ≤ stop → size ∈ pattern.lengths (cs.take stop)

theorem steady_one (holds : Char → Bool) : (one holds).Steady := by
  intro cs size member
  cases cs with
  | nil => cases member
  | cons c cs =>
      simp only [lengths] at member
      split at member
      · rename_i found
        obtain rfl := List.mem_singleton.1 member
        refine ⟨by simp, ?_⟩
        intro stop bound
        obtain ⟨stop, rfl⟩ := Nat.exists_eq_add_of_le' bound
        simp [lengths, found]
      · cases member

theorem steady_either {first second : Pattern} (left : first.Steady) (right : second.Steady) :
    (either first second).Steady := by
  intro cs size member
  rcases List.mem_append.1 member with here | there
  · obtain ⟨bound, again⟩ := left cs size here
    exact ⟨bound, fun stop later => List.mem_append_left _ (again stop later)⟩
  · obtain ⟨bound, again⟩ := right cs size there
    exact ⟨bound, fun stop later => List.mem_append_right _ (again stop later)⟩

theorem steady_both {first second : Pattern} (left : first.Steady) (right : second.Steady) :
    (both first second).Steady := by
  intro cs size member
  obtain ⟨front, here, member⟩ := List.mem_flatMap.1 member
  obtain ⟨back, there, rfl⟩ := List.mem_map.1 member
  obtain ⟨bound, again⟩ := left cs front here
  obtain ⟨bound', again'⟩ := right (cs.drop front) back there
  rw [List.length_drop] at bound'
  refine ⟨by omega, ?_⟩
  intro stop later
  refine List.mem_flatMap.2 ⟨front, again stop (by omega), List.mem_map.2 ⟨back, ?_, rfl⟩⟩
  rw [List.drop_take]
  exact again' (stop - front) (by omega)

-- The bound on the number of repetitions depends on the text, so it is one more thing to vary.
theorem steady_repeated {pattern : Pattern} (steady : pattern.Steady) {fuel : Nat}
    {cs : List Char} {size : Nat} (member : size ∈ repeated pattern.lengths fuel cs) :
    size ≤ cs.length ∧ ∀ stop fuel', size ≤ stop → size ≤ fuel' →
      size ∈ repeated pattern.lengths fuel' (cs.take stop) := by
  induction fuel generalizing cs size with
  | zero =>
      obtain rfl := List.mem_singleton.1 member
      refine ⟨Nat.zero_le _, ?_⟩
      intro stop fuel' _ _
      cases fuel' <;> simp [repeated]
  | succ fuel ih =>
      rcases List.mem_append.1 member with more | nothing
      · obtain ⟨front, here, member⟩ := List.mem_flatMap.1 more
        obtain ⟨back, there, rfl⟩ := List.mem_map.1 member
        obtain ⟨here, positive⟩ := List.mem_filter.1 here
        have forward : 0 < front := of_decide_eq_true positive
        obtain ⟨bound, again⟩ := steady cs front here
        obtain ⟨bound', again'⟩ := ih there
        rw [List.length_drop] at bound'
        refine ⟨by omega, ?_⟩
        intro stop fuel' later enough
        obtain ⟨fuel', rfl⟩ : ∃ less, fuel' = less + 1 := ⟨fuel' - 1, by omega⟩
        refine List.mem_append_left _ (List.mem_flatMap.2 ⟨front, ?_, List.mem_map.2 ⟨back, ?_, rfl⟩⟩)
        · exact List.mem_filter.2 ⟨again stop (by omega), positive⟩
        · rw [List.drop_take]
          exact again' (stop - front) fuel' (by omega) (by omega)
      · obtain rfl := List.mem_singleton.1 nothing
        refine ⟨Nat.zero_le _, ?_⟩
        intro stop fuel' _ _
        cases fuel' <;> simp [repeated]

theorem steady_many {pattern : Pattern} (steady : pattern.Steady) : (many pattern).Steady := by
  intro cs size member
  obtain ⟨bound, again⟩ := steady_repeated steady member
  refine ⟨bound, ?_⟩
  intro stop later
  apply again stop _ later
  rw [List.length_take]
  omega

end Pattern

namespace LexicalRule

def terminals (rule : LexicalRule) : List String := rule.terminal :: rule.reserved.map (·.1)

theorem terminalOf_mem (rule : LexicalRule) (text : List Char) :
    rule.terminalOf text ∈ rule.terminals := by
  unfold terminalOf
  split
  · rename_i terminal pattern found
    exact List.mem_cons_of_mem _ (List.mem_map.2 ⟨_, List.mem_of_find?_eq_some found, rfl⟩)
  · exact List.mem_cons_self

/-- A terminal that the other rules do not have is found by one rule. -/
theorem eq_of_split {rules before after : List LexicalRule} {own rule : LexicalRule}
    {terminal : String} (split : rules = before ++ own :: after)
    (others : ((before ++ after).all fun rule => !rule.terminals.contains terminal) = true)
    (member : rule ∈ rules) (found : terminal ∈ rule.terminals) : rule = own := by
  rw [split, List.mem_append, List.mem_cons] at member
  rcases member with first | same | later
  · have absent := List.all_eq_true.1 others rule (List.mem_append_left _ first)
    simp [found] at absent
  · exact same
  · have absent := List.all_eq_true.1 others rule (List.mem_append_right _ later)
    simp [found] at absent

end LexicalRule

namespace Lexicon

variable {lexicon : Lexicon} {reading : Reading} {lexeme : Lexeme}

/-- A reading is the preferred match of a rule. -/
def Finds (lexicon : Lexicon) (reading : Reading) : Prop :=
  ∃ rule ∈ lexicon.rules, ∃ cs size, size ∈ rule.pattern.lengths cs ∧
    reading = ⟨rule.terminalOf (cs.take size), cs.take size⟩

theorem finds_of_reading? {cs : List Char} (found : lexicon.reading? cs = some reading) :
    lexicon.Finds reading := by
  obtain ⟨rule, member, matched⟩ := List.exists_of_findSome?_eq_some found
  unfold LexicalRule.reading? at matched
  split at matched
  · rename_i size first
    exact ⟨rule, member, cs, size, List.mem_of_head? first, (Option.some.inj matched).symm⟩
  · cases matched

theorem finds_of_mem_scanUpTo {fuel : Nat} {counter : Text.LineCounter} {cs : List Char}
    (member : lexeme ∈ lexicon.scanUpTo fuel counter cs) : lexicon.Finds lexeme.toReading := by
  induction fuel generalizing counter cs with
  | zero => cases member
  | succ fuel ih =>
      rw [scanUpTo] at member
      split at member
      · cases member
      · rename_i first found
        split at member
        · cases member
        · rcases List.mem_cons.1 member with rfl | later
          · exact finds_of_reading? found
          · exact ih later

theorem Finds.exists_rule (finds : lexicon.Finds reading) :
    ∃ rule ∈ lexicon.rules, reading.terminal ∈ rule.terminals := by
  obtain ⟨rule, member, cs, size, -, rfl⟩ := finds
  exact ⟨rule, member, rule.terminalOf_mem _⟩

end Lexicon

namespace Grammar

variable {grammar : Grammar} {lexemes : List Lexeme}

theorem exists_tokensFrom
    (known : ∀ lexeme ∈ lexemes, grammar.vocabulary.contains lexeme.terminal = true)
    (first : Nat) :
    ∃ tokens, grammar.tokensFrom first lexemes = .ok tokens ∧
      ∀ (i : Nat) (token : Token), tokens[i]? = some token →
        token.index = some ((first + i : Nat) : Int) := by
  induction lexemes generalizing first with
  | nil => exact ⟨[], rfl, by simp⟩
  | cons lexeme rest ih =>
      obtain ⟨type, named⟩ := Option.isSome_iff_exists.1 (known lexeme List.mem_cons_self)
      obtain ⟨tokens, made, indexed⟩ := ih (fun lexeme member =>
        known lexeme (List.mem_cons_of_mem _ member)) (first + 1)
      have token : ∃ token, grammar.token first lexeme = .ok token ∧
          token.index = some (first : Int) := by
        rw [Grammar.token, named]
        exact ⟨_, rfl, rfl⟩
      obtain ⟨token, own, position⟩ := token
      refine ⟨token :: tokens, ?_, ?_⟩
      · rw [tokensFrom, own, made]
        rfl
      · intro i other found
        cases i with
        | zero =>
            obtain rfl : token = other := Option.some.inj found
            exact position
        | succ i =>
            rw [indexed i other found]
            simp only [Option.some.injEq, Int.natCast_inj]
            omega

/-- A grammar that finds terminals of its vocabulary only gives every text its tokens. -/
theorem exists_tokenize {text : String} (read : grammar.lexicon.lexemes text = .ok lexemes)
    (known : ∀ lexeme ∈ lexemes, grammar.vocabulary.contains lexeme.terminal = true) :
    ∃ stream, grammar.tokenize text = .ok stream ∧ stream.Indexed := by
  obtain ⟨tokens, made, indexed⟩ := exists_tokensFrom known 0
  refine ⟨.close tokens.toArray (.atEnd text.toList), ?_, ?_⟩
  · rw [tokenize, read]
    change (grammar.tokensFrom 0 lexemes >>= fun tokens =>
      pure (TokenStream.close tokens.toArray (.atEnd text.toList))) = _
    rw [made]
    rfl
  · intro index token found
    simp only [TokenStream.close, Array.getElem?_push, List.size_toArray] at found
    split at found
    · rename_i last
      obtain rfl := Option.some.inj found
      rw [last]
    · rw [List.getElem?_toArray] at found
      simpa using indexed index token found

end Grammar

namespace Language

theorem Architecture.contains_terminals : (lexicalRules.all fun rule =>
    rule.terminals.all vocabulary.contains) = true := by
  decide +kernel

theorem Architecture.exists_tokenize (text : String) :
    ∃ stream, grammar.tokenize text = .ok stream ∧ stream.Indexed := by
  have read : grammar.lexicon.lexemes text = .ok (lexicon.scan text.toList) := rfl
  refine Grammar.exists_tokenize read ?_
  intro lexeme member
  obtain ⟨rule, listed, found⟩ := (Lexicon.finds_of_mem_scanUpTo member).exists_rule
  exact List.all_eq_true.1 (List.all_eq_true.1 contains_terminals rule listed) _ found

namespace Script

/-- The terminals that the layout replaces. -/
def divided : List String := ["LINE_STRING", "MULTI_LINE_STRING"]

theorem contains_terminals : (lexicalRules.all fun rule =>
    rule.terminals.all fun terminal =>
      divided.contains terminal || vocabulary.contains terminal) = true := by
  decide +kernel

theorem contains_quotes : (["QUOTE_OPEN", "LINE_STR_TEXT", "QUOTE_CLOSE", "TRIPLE_QUOTE_OPEN",
    "MULTI_LINE_STR_TEXT", "TRIPLE_QUOTE_CLOSE", "WS"].all vocabulary.contains) = true := by
  decide +kernel

/-- Strings on one line are found by one rule. -/
theorem pattern_of_lineString {rule : LexicalRule} (member : rule ∈ lexicalRules)
    (found : "LINE_STRING" ∈ rule.terminals) : rule.pattern = lineString := by
  have split : lexicalRules = lexicalRules.take 7 ++
      { terminal := "LINE_STRING", pattern := lineString } :: lexicalRules.drop 8 := rfl
  rw [LexicalRule.eq_of_split split (by decide +kernel) member found]

theorem steady_lineText : lineText.Steady :=
  Pattern.steady_many (Pattern.steady_either
    (Pattern.steady_both (Pattern.steady_one _) (Pattern.steady_one _)) (Pattern.steady_one _))

theorem contains_of_mem_nonempty {lexemes : List Lexeme}
    (known : (lexemes.all fun lexeme => vocabulary.contains lexeme.terminal) = true) :
    ∀ lexeme ∈ nonempty lexemes, vocabulary.contains lexeme.terminal = true := by
  intro lexeme member
  exact List.all_eq_true.1 known lexeme (List.mem_filter.1 member).1

theorem mem_lengths_quote {cs : List Char} {size : Nat}
    (matched : size ∈ (Pattern.word quote).lengths cs) : size = 1 ∧ cs.take 1 = quote := by
  cases cs with
  | nil => simp [Pattern.lengths, Pattern.startsBy, quote] at matched
  | cons c cs =>
      simp only [Pattern.lengths, Pattern.startsBy, quote, Bool.and_true] at matched
      split at matched
      · rename_i same
        obtain rfl := eq_of_beq same
        exact ⟨List.mem_singleton.1 matched, rfl⟩
      · cases matched

theorem exists_splitLineString {cs : List Char} {size : Nat} (matched : size ∈ lineString.lengths cs)
    {lexeme : Lexeme} (text : lexeme.text = cs.take size) :
    ∃ parts, splitLineString lexeme = .ok parts ∧
      ∀ part ∈ parts, vocabulary.contains part.terminal = true := by
  obtain ⟨_, opening, shifted⟩ := List.mem_flatMap.1 matched
  obtain ⟨_, further, rfl⟩ := List.mem_map.1 shifted
  obtain ⟨middle, inner, shiftedAgain⟩ := List.mem_flatMap.1 further
  obtain ⟨close, closing, rfl⟩ := List.mem_map.1 shiftedAgain
  obtain ⟨rfl, -⟩ := mem_lengths_quote opening
  obtain ⟨bound, again⟩ := steady_lineText _ _ inner
  have body : lexeme.text.drop 1 = (cs.drop 1).take (middle + close) := by
    rw [text, List.drop_take]
    congr 1
    omega
  have division : middle ∈ (lineText.lengths ((cs.drop 1).take (middle + close))).filter fun n =>
      ((cs.drop 1).take (middle + close)).drop n == [] ||
        ((cs.drop 1).take (middle + close)).drop n == quote := by
    refine List.mem_filter.2 ⟨again _ (by omega), ?_⟩
    rw [List.drop_take, Nat.add_sub_cancel_left]
    rcases List.mem_append.1 closing with here | nothing
    · obtain ⟨rfl, same⟩ := mem_lengths_quote here
      rw [same]
      rfl
    · obtain rfl := List.mem_singleton.1 nothing
      simp
  unfold splitLineString
  simp only [body]
  split
  · have quotes := contains_quotes
    simp only [List.all_cons, Bool.and_eq_true] at quotes
    refine ⟨_, rfl, List.forall_mem_cons.2 ⟨quotes.1, contains_of_mem_nonempty ?_⟩⟩
    simp [slice, quotes]
  · rename_i none
    rw [List.head?_eq_none_iff] at none
    rw [none] at division
    cases division

theorem contains_splitMultiLineString (lexeme : Lexeme) :
    ∀ part ∈ splitMultiLineString lexeme, vocabulary.contains part.terminal = true := by
  have quotes := contains_quotes
  simp only [List.all_cons, Bool.and_eq_true] at quotes
  refine List.forall_mem_cons.2 ⟨quotes.2.2.2.1, contains_of_mem_nonempty ?_⟩
  simp [slice, quotes]

/-- Every text is laid out, and the layout leaves terminals of the vocabulary only. -/
theorem exists_layoutWithin {lexemes : List Lexeme}
    (found : ∀ lexeme ∈ lexemes, lexicon.Finds lexeme.toReading) (due : List String) :
    ∃ laid, layoutWithin due lexemes = .ok laid ∧
      ∀ lexeme ∈ laid, vocabulary.contains lexeme.terminal = true := by
  induction lexemes generalizing due with
  | nil => exact ⟨[], rfl, by simp⟩
  | cons lexeme rest ih =>
      have later := fun due => ih (fun lexeme member => found lexeme (List.mem_cons_of_mem _ member)) due
      have finds := found lexeme List.mem_cons_self
      rw [layoutWithin]
      by_cases line : lexeme.terminal = "LINE_STRING"
      · obtain ⟨laid, made, known⟩ := later due
        obtain ⟨rule, member, cs, size, matched, same⟩ := finds
        have named : "LINE_STRING" = rule.terminalOf (cs.take size) := by
          rw [← line, same]
        have pattern := pattern_of_lineString member (named ▸ rule.terminalOf_mem _)
        obtain ⟨parts, split, knownParts⟩ :=
          exists_splitLineString (pattern ▸ matched) (congrArg Reading.text same)
        rw [if_pos line, split, made]
        refine ⟨parts ++ laid, rfl, ?_⟩
        intro lexeme member
        exact (List.mem_append.1 member).elim (knownParts lexeme) (known lexeme)
      · rw [if_neg line]
        by_cases lines : lexeme.terminal = "MULTI_LINE_STRING"
        · obtain ⟨laid, made, known⟩ := later due
          rw [if_pos lines, made]
          refine ⟨splitMultiLineString lexeme ++ laid, rfl, ?_⟩
          intro part member
          exact (List.mem_append.1 member).elim (contains_splitMultiLineString lexeme part)
            (known part)
        · rw [if_neg lines]
          split
          · obtain ⟨laid, made, known⟩ := later due
            rw [made]
            refine ⟨{ lexeme with terminal := "WS" } :: laid, rfl, ?_⟩
            intro part member
            rcases List.mem_cons.1 member with rfl | member
            · exact List.all_eq_true.1 contains_quotes "WS" (by simp)
            · exact known part member
          · obtain ⟨laid, made, known⟩ := later (closersAfter due lexeme.terminal)
            rw [made]
            refine ⟨lexeme :: laid, rfl, ?_⟩
            intro part member
            rcases List.mem_cons.1 member with rfl | member
            · obtain ⟨rule, listed, terminal⟩ := finds.exists_rule
              have either := List.all_eq_true.1
                (List.all_eq_true.1 contains_terminals rule listed) _ terminal
              simpa [divided, line, lines] using either
            · exact known part member

theorem exists_tokenize (text : String) :
    ∃ stream, grammar.tokenize text = .ok stream ∧ stream.Indexed := by
  obtain ⟨laid, made, known⟩ := exists_layoutWithin
    (fun lexeme => Lexicon.finds_of_mem_scanUpTo) ([] : List String)
  exact Grammar.exists_tokenize made known

end Script

end Language

end Typeahead
