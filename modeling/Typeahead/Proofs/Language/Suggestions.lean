import Typeahead.Proofs.Language.Agreement
import Typeahead.Proofs.Matching

namespace Typeahead

/-!
The suggestions for architecture descriptions.  Each of them is the name of a terminal in lowercase,
which tells the names apart, so the words at a caret are the terminals that a derivation puts
there.
-/

namespace Text

/-- From the first capital letter to the last small one. -/
def isLetter (c : Char) : Bool := 65 ≤ c.toNat && c.toNat ≤ 122

/-- Whether a text has capital letters and underscores, and nothing beyond them. -/
def isCapital (text : String) : Bool := text.toList.all fun c => 65 ≤ c.toNat && c.toNat ≤ 95

theorem forall_char_of_lt {bound : Nat} {P : Char → Prop}
    (holds : ∀ n : Nat, n < bound → P (Char.ofNat n)) {c : Char} (less : c.toNat < bound) : P c := by
  have same := holds c.toNat less
  rwa [Char.ofNat_toNat] at same

theorem toNat_lt_of_isLetter {c : Char} (letter : isLetter c = true) : c.toNat < 123 := by
  rw [isLetter, Bool.and_eq_true, decide_eq_true_eq, decide_eq_true_eq] at letter
  omega

theorem toLower_of_isLetter {c : Char} (letter : isLetter c = true) :
    isLetter c.toLower = true ∧ c.toLower.toLower = c.toLower := by
  have all : ∀ n : Nat, n < 123 → isLetter (Char.ofNat n) = true →
      isLetter (Char.ofNat n).toLower = true ∧
        (Char.ofNat n).toLower.toLower = (Char.ofNat n).toLower := by
    decide
  exact forall_char_of_lt (P := fun c => isLetter c = true → isLetter c.toLower = true ∧
    c.toLower.toLower = c.toLower) all (toNat_lt_of_isLetter letter) letter

theorem toUpper_toLower {c : Char} (capital : (65 ≤ c.toNat && c.toNat ≤ 95) = true) :
    c.toLower.toUpper = c := by
  have all : ∀ n : Nat, n < 96 → (65 ≤ (Char.ofNat n).toNat && (Char.ofNat n).toNat ≤ 95) = true →
      (Char.ofNat n).toLower.toUpper = Char.ofNat n := by
    decide
  have less : c.toNat < 96 := by
    rw [Bool.and_eq_true, decide_eq_true_eq, decide_eq_true_eq] at capital
    omega
  exact forall_char_of_lt (P := fun c => (65 ≤ c.toNat && c.toNat ≤ 95) = true →
    c.toLower.toUpper = c) all less capital

theorem toLower_of_not_capital {c : Char} (apart : ¬(65 ≤ c.toNat ∧ c.toNat ≤ 90)) :
    c.toLower = c := by
  have same : c.toNat = c.val.toNat := rfl
  have bounds : 'A'.val.toNat = 65 ∧ 'Z'.val.toNat = 90 := ⟨rfl, rfl⟩
  refine dif_neg ?_
  rw [ge_iff_le, UInt32.le_iff_toNat_le, UInt32.le_iff_toNat_le]
  omega

/-- Of the characters of ASCII only the capital letters have a small form, and besides theirs only
that of the Kelvin sign is in ASCII. -/
theorem lowercaseRuns_beyond : (lowercaseRuns.all fun (first, last, _, image) =>
    (first == 0x41 && last == 0x5a && image == 0x61) || (first == 0x212a && last == 0x212a) ||
      (123 ≤ first && 128 ≤ image)) = true := by
  decide

theorem lowercaseChar_of_lt {c : Char} (plain : c.toNat < 123) : lowercaseChar c = [c.toLower] := by
  have other : c ≠ '\u0130' := by
    rintro rfl
    exact absurd plain (by decide)
  rw [lowercaseChar, if_neg other]
  split
  · rename_i first last step image found
    have run := List.all_eq_true.1 lowercaseRuns_beyond _ (List.mem_of_find?_eq_some found)
    have inside := List.find?_some found
    simp only [Bool.and_eq_true, decide_eq_true_eq, beq_iff_eq, Bool.or_eq_true] at run inside
    have capitals : first = 0x41 ∧ last = 0x5a ∧ image = 0x61 := by omega
    obtain ⟨rfl, rfl, rfl⟩ := capitals
    have all : ∀ n : Nat, n < 91 → 65 ≤ n →
        Char.ofNat (0x61 + (n - 0x41)) = (Char.ofNat n).toLower := by
      decide
    rw [all c.toNat (by omega) (by omega), Char.ofNat_toNat]
  · rename_i missing
    have none := List.find?_eq_none.1 missing (0x41, 0x5a, 1, 0x61) List.mem_cons_self
    rw [toLower_of_not_capital]
    simpa [Nat.mod_one] using none

theorem lowercaseAfter_eq_map (before : List Char) {cs : List Char}
    (plain : ∀ c ∈ cs, c.toNat < 123) : lowercaseAfter before cs = cs.map Char.toLower := by
  induction cs generalizing before with
  | nil => rfl
  | cons c rest ih =>
      rw [List.forall_mem_cons] at plain
      have other : c ≠ 'Σ' := by
        intro same
        rw [same] at plain
        exact absurd plain.1 (by decide)
      rw [lowercaseAfter, if_neg other, ih _ plain.2, lowercaseChar_of_lt plain.1]
      rfl

section Capital

variable {first second : String} (capital : isCapital first = true)

include capital

theorem isLetter_of_isCapital : ∀ c ∈ first.toList, isLetter c = true := by
  intro c member
  have bounds := List.all_eq_true.1 capital c member
  simp only [isLetter, Bool.and_eq_true, decide_eq_true_eq] at bounds ⊢
  omega

theorem toList_lowercase : (lowercase first).toList = first.toList.map Char.toLower := by
  rw [lowercase, String.toList_ofList, lowercaseAfter_eq_map]
  exact fun c member => toNat_lt_of_isLetter (isLetter_of_isCapital capital c member)

theorem lowercase_lowercase : lowercase (lowercase first) = lowercase first := by
  have letters : ∀ c ∈ first.toList.map Char.toLower, isLetter c = true := by
    intro c member
    obtain ⟨own, listed, rfl⟩ := List.mem_map.1 member
    exact (toLower_of_isLetter (isLetter_of_isCapital capital own listed)).1
  have again : (first.toList.map Char.toLower).map Char.toLower = first.toList.map Char.toLower := by
    rw [List.map_map]
    apply List.map_congr_left
    intro c member
    exact (toLower_of_isLetter (isLetter_of_isCapital capital c member)).2
  apply String.toList_inj.1
  rw [toList_lowercase capital, lowercase, toList_lowercase capital, String.toList_ofList,
    lowercaseAfter_eq_map [] fun c member => toNat_lt_of_isLetter (letters c member), again]

/-- Capital letters are told apart by their small forms. -/
theorem lowercase_inj (other : isCapital second = true)
    (same : lowercase first = lowercase second) : first = second := by
  have back : ∀ {text : String}, isCapital text = true →
      (lowercase text).toList.map Char.toUpper = text.toList := by
    intro text capital
    rw [toList_lowercase capital, List.map_map]
    conv_rhs => rw [← List.map_id text.toList]
    apply List.map_congr_left
    intro c member
    exact toUpper_toLower (List.all_eq_true.1 capital c member)
  apply String.toList_inj.1
  rw [← back capital, ← back other, same]

end Capital

end Text

namespace Candidates

theorem nodup_tokens_report {table : RuleTable} {vocabulary : Vocabulary} {ignored : List Int}
    {candidates : Candidates} (distinct : (candidates.tokens.map (·.1)).Nodup) (meeting : Meeting) :
    ((report table vocabulary ignored candidates meeting).tokens.map (·.1)).Nodup := by
  cases meeting with
  | preferredRule name => exact distinct
  | rule name => exact distinct
  | terminal name rest =>
      simp only [report]
      split
      · exact distinct
      · rename_i type _
        split
        · exact distinct
        · rename_i fresh
          rw [List.map_append, List.nodup_append]
          simp only [Bool.or_eq_true, List.any_eq_true, beq_iff_eq, not_or, not_exists,
            not_and] at fresh
          refine ⟨distinct, by simp, ?_⟩
          intro known listed other single same
          obtain ⟨pair, member, rfl⟩ := List.mem_map.1 listed
          obtain rfl : other = type := by simpa using single
          exact fresh.2 pair member same

theorem nodup_tokens_foldl {table : RuleTable} {vocabulary : Vocabulary} {ignored : List Int}
    {candidates : Candidates} (distinct : (candidates.tokens.map (·.1)).Nodup)
    (meetings : List Meeting) :
    ((meetings.foldl (report table vocabulary ignored) candidates).tokens.map (·.1)).Nodup := by
  induction meetings generalizing candidates with
  | nil => exact distinct
  | cons meeting meetings ih => exact ih (nodup_tokens_report distinct meeting)

/-- No token type is a candidate twice. -/
theorem nodup_tokens_after (table : RuleTable) (vocabulary : Vocabulary) (filter : CandidateFilter)
    (chart : Chart) : ((after table vocabulary filter chart).tokens.map (·.1)).Nodup := by
  have empty : (((⟨[], ∅⟩ : Candidates).tokens).map (·.1)).Nodup := List.nodup_nil
  exact nodup_tokens_foldl empty _

end Candidates

namespace Vocabulary

variable {names : List String} {name : String} {type other : Int}

theorem type_inj (distinct : names.Nodup)
    (first : (⟨names.map some⟩ : Vocabulary).symbolicName? type = some name)
    (second : (⟨names.map some⟩ : Vocabulary).symbolicName? other = some name) : type = other := by
  unfold symbolicName? at first second
  split at first
  · split at second
    · have here := Option.join_eq_some_iff.1 first
      have there := Option.join_eq_some_iff.1 second
      have inside := (List.getElem?_eq_some_iff.1 here).1
      have listed : (names.map some).Nodup := distinct.map (Option.some_injective _)
      have same := (List.getElem?_inj inside listed).1 (here.trans there.symm)
      omega
    · cases second
  · cases first

theorem symbolicName?_eq_iff (distinct : names.Nodup) {known : Int}
    (found : (⟨names.map some⟩ : Vocabulary).type? name = some known) :
    (⟨names.map some⟩ : Vocabulary).symbolicName? type = some name ↔ type = known := by
  have named := symbolicName?_of_type? found
  constructor
  · intro own
    exact type_inj distinct own named
  · intro same
    rw [same, named]

end Vocabulary

namespace Language.Architecture

theorem nodup_terminalNames : terminalNames.Nodup := by
  decide +kernel

theorem isCapital_terminalNames : ∀ name ∈ terminalNames, Text.isCapital name = true := by
  decide +kernel

theorem byType_renderings : support.renderings.byType vocabulary = .ok [(57, none)] := by
  rfl

theorem mem_terminalNames_of_symbolicName? {type : Int} {name : String}
    (named : vocabulary.symbolicName? type = some name) : name ∈ terminalNames := by
  have listed := Vocabulary.mem_names_of_symbolicName? named
  simpa [vocabulary] using listed

theorem type?_lineEnd : vocabulary.type? "NL" = some 5 := rfl

theorem type?_identifier : vocabulary.type? "ID" = some 57 := rfl

theorem wordFor?_eq_some_iff {type : Int} {word : String} :
    wordFor? vocabulary [(57, none)] type = some word ↔
      type ≠ 57 ∧ ∃ name, vocabulary.symbolicName? type = some name ∧ Text.lowercase name = word := by
  unfold wordFor?
  by_cases identifier : type = 57
  · simp [identifier]
  · have other : ((57 : Int) == type) = false := by simpa using Ne.symm identifier
    simp [other, identifier]

theorem ignored_eq : support.ignored = [5] := rfl

/-- What counts as typed at a position: nothing on a line end. -/
def typedAt (tree : ParseTree) (position : TokenPosition) : String :=
  if (tree.token? position.context).any (grammar.terminalOf · == "NL") then "" else position.text

theorem textToMatch_eq (tree : ParseTree) (position : TokenPosition) :
    (match tree.node? position.context with
      | some node => textToMatch support.ignored node.label position.text
      | none => position.text) = typedAt tree position := by
  have onLineEnd : ∀ token : Token, (grammar.terminalOf token == "NL") =
      support.ignored.contains token.type := by
    intro token
    have named : grammar.terminalOf token = "NL" ↔
        vocabulary.symbolicName? token.type = some "NL" := by
      show (vocabulary.symbolicName? token.type).getD "" = "NL" ↔ _
      cases vocabulary.symbolicName? token.type with
      | none => simp
      | some name => simp
    rw [Bool.eq_iff_iff, beq_iff_eq, named, ignored_eq, List.contains_iff_mem, List.mem_singleton]
    exact Vocabulary.symbolicName?_eq_iff nodup_terminalNames type?_lineEnd
  unfold typedAt ParseTree.token?
  cases tree.node? position.context with
  | none => rfl
  | some node =>
      obtain ⟨parent, label, children⟩ := node
      cases label with
      | rule name => rfl
      | bare => rfl
      | token token =>
          show textToMatch support.ignored (.token token) position.text =
            if (grammar.terminalOf token == "NL") = true then "" else position.text
          rw [onLineEnd]
          rfl

theorem wordSuggestions_eq (tree : ParseTree) (candidates : Candidates) (position : TokenPosition)
    (matcher : Matcher) :
    support.wordSuggestions tree candidates position matcher =
      .ok (matcher (typedAt tree position)
        ((candidates.tokens.map (·.1)).filterMap (wordFor? vocabulary [(57, none)]))) := by
  have words : support.renderings.words support.grammar.vocabulary (candidates.tokens.map (·.1)) =
      .ok ((candidates.tokens.map (·.1)).filterMap (wordFor? vocabulary [(57, none)])) := by
    rw [Renderings.words]
    show (support.renderings.byType vocabulary >>= _) = _
    rw [byType_renderings]
    rfl
  rw [LanguageSupport.wordSuggestions, words, ← textToMatch_eq]
  rfl

/-- The words at a position of a description. -/
def wordsAt (stream : TokenStream) (position : TokenPosition) : List String :=
  ((Candidates.after grammar.table vocabulary support.filter
    (grammar.chartBefore stream position.index)).tokens.map (·.1)).filterMap
      (wordFor? vocabulary [(57, none)])

theorem exists_suggestAt (matcher : Matcher) (stream : TokenStream) (tree : ParseTree)
    (caret : Caret) (position : TokenPosition) :
    ∃ completion, support.suggestAt matcher stream tree caret position = .ok completion ∧
      completion.suggestions = matcher (typedAt tree position) (wordsAt stream position) := by
  have unnamed : ∀ candidates, support.variableSuggestions tree candidates position matcher =
      ⟨[], []⟩ := fun _ => rfl
  simp only [LanguageSupport.suggestAt, wordSuggestions_eq, unnamed]
  exact ⟨_, rfl, rfl⟩

theorem nodup_wordsAt (stream : TokenStream) (position : TokenPosition) :
    (wordsAt stream position).Nodup := by
  refine List.Nodup.filterMap ?_ (Candidates.nodup_tokens_after _ _ _ _)
  intro type other word first second
  obtain ⟨-, name, named, lowered⟩ := wordFor?_eq_some_iff.1 first
  obtain ⟨-, name', named', rfl⟩ := wordFor?_eq_some_iff.1 second
  have same := Text.lowercase_inj
    (isCapital_terminalNames name (mem_terminalNames_of_symbolicName? named))
    (isCapital_terminalNames name' (mem_terminalNames_of_symbolicName? named')) lowered
  subst same
  exact Vocabulary.type_inj nodup_terminalNames named named'

theorem mem_wordsAt {stream : TokenStream} {position : TokenPosition} {word : String} :
    word ∈ wordsAt stream position ↔
      ∃ name ∈ grammar.table.terminals, name ≠ "NL" ∧ name ≠ "ID" ∧
        (∃ after, grammar.table.Derives [startRule]
          ((grammar.chartBefore stream position.index).kept
            ((stream.visibleBefore position.index).map grammar.terminalOf) ++ name :: after)) ∧
        Text.lowercase name = word := by
  have disjoint := sound_grammar.proper.disjoint
  simp only [wordsAt, List.mem_filterMap, wordFor?_eq_some_iff]
  constructor
  · intro given
    obtain ⟨type, listed, other, name, named, rfl⟩ := given
    obtain ⟨own, isTerminal, typed, allowed, expects⟩ :=
      (Candidates.mem_tokens_iff_expects disjoint).1 listed
    have same : own = name :=
      Option.some.inj ((Vocabulary.symbolicName?_of_type? typed).symm.trans named)
    subst same
    refine ⟨own, OrderedSet.contains_iff.1 isTerminal, ?_, ?_,
      RuleTable.opens_iff_derives.1 expects.opens, rfl⟩
    · intro lineEnd
      subst lineEnd
      rw [type?_lineEnd] at typed
      exact allowed (by simp [ignored_eq, ← Option.some.inj typed])
    · intro identifier
      subst identifier
      rw [type?_identifier] at typed
      exact other (Option.some.inj typed).symm
  · intro given
    obtain ⟨name, terminal, lineEnd, identifier, derives, rfl⟩ := given
    have isTerminal := OrderedSet.contains_iff.2 terminal
    obtain ⟨type, typed⟩ := legible_grammar.typed name isTerminal
    have expects := legible_grammar.expects disjoint isTerminal
      (RuleTable.opens_iff_derives.2 derives)
    have named : vocabulary.symbolicName? type = some name :=
      Vocabulary.symbolicName?_of_type? typed
    refine ⟨type, (Candidates.mem_tokens_iff_expects disjoint).2
      ⟨name, isTerminal, typed, ?_, expects⟩, ?_, name, named, rfl⟩
    · intro listed
      rw [ignored_eq, List.mem_singleton] at listed
      rw [listed, Vocabulary.symbolicName?_of_type? type?_lineEnd] at named
      exact lineEnd (Option.some.inj named).symm
    · intro same
      rw [same, Vocabulary.symbolicName?_of_type? type?_identifier] at named
      exact identifier (Option.some.inj named).symm

theorem lowercase_terminal {name : String} (terminal : name ∈ grammar.table.terminals) :
    Text.lowercase (Text.lowercase name) = Text.lowercase name := by
  obtain ⟨type, typed⟩ := legible_grammar.typed name (OrderedSet.contains_iff.2 terminal)
  have named : vocabulary.symbolicName? type = some name :=
    Vocabulary.symbolicName?_of_type? typed
  exact Text.lowercase_lowercase
    (isCapital_terminalNames name (mem_terminalNames_of_symbolicName? named))

theorem exists_suggest {text : String} {stream : TokenStream} {parse : Parse}
    (tokenized : grammar.tokenize text = .ok stream) (parsed : grammar.parse stream = .ok parse)
    (caret : Caret) (matcher : Matcher) :
    ∃ completion, ({ language := .structurizr, matcher } : Engine).suggest text caret =
        .ok completion ∧
      completion.suggestions = (parse.tree.locate stream caret).position?.elim [] fun position =>
        matcher (typedAt parse.tree position) (wordsAt stream position) := by
  show ∃ completion, support.suggest matcher .default text caret = .ok completion ∧ _
  have tokenized' : support.grammar.tokenize text = .ok stream := tokenized
  have parsed' : support.grammar.parse stream = .ok parse := parsed
  simp only [LanguageSupport.suggest, tokenized', parsed', PositionMapper.default,
    Grammar.ok_bind]
  cases (parse.tree.locate stream caret).position? with
  | none => exact ⟨_, rfl, rfl⟩
  | some position =>
      obtain ⟨completion, suggested, words⟩ :=
        exists_suggestAt matcher stream parse.tree caret position
      simp only [suggested, Grammar.ok_bind]
      exact ⟨_, rfl, words⟩

/-- Every caret in every description gets an answer.  On no token it is empty.  At a position the
words are, each once, the lowercase names of the terminals that the start derives behind the kept
terminals in front of it, except line ends and identifiers, as far as they start with what has been
typed. -/
theorem suggestions_iff_derives (text : String) (caret : Caret) :
    ∃ stream parse completion, grammar.tokenize text = .ok stream ∧
      grammar.parse stream = .ok parse ∧
      ({ language := .structurizr, matcher := .startsWith } : Engine).suggest text caret =
        .ok completion ∧
      match (parse.tree.locate stream caret).position? with
      | none => completion.suggestions = []
      | some position =>
          completion.suggestions.Nodup ∧
          ∀ word, word ∈ completion.suggestions ↔
            ∃ name ∈ grammar.table.terminals, name ≠ "NL" ∧ name ≠ "ID" ∧
              (∃ after, grammar.table.Derives ["structurizr_file"]
                ((grammar.chartBefore stream position.index).kept
                  ((stream.visibleBefore position.index).map grammar.terminalOf) ++
                    name :: after)) ∧
              word = Text.lowercase name ∧
              (Text.allBlank (typedAt parse.tree position) = true ∨
                (Text.lowercase (typedAt parse.tree position)).toList <+:
                  (Text.lowercase name).toList) := by
  obtain ⟨stream, tokenized, -⟩ := tokenizes .structurizr text
  obtain ⟨parse, _, _, parsed, -⟩ := Grammar.exists_parse sound_grammar stream
  obtain ⟨completion, suggested, suggestions⟩ := exists_suggest tokenized parsed caret .startsWith
  refine ⟨stream, parse, completion, tokenized, parsed, suggested, ?_⟩
  cases located : (parse.tree.locate stream caret).position? with
  | none => rw [suggestions, located, Option.elim_none]
  | some position =>
      rw [suggestions, located, Option.elim_some]
      refine ⟨Matcher.nodup_startsWith (nodup_wordsAt stream position) _, ?_⟩
      intro word
      rw [Matcher.mem_startsWith, mem_wordsAt]
      constructor
      · intro given
        obtain ⟨⟨name, terminal, lineEnd, identifier, derives, rfl⟩, fits⟩ := given
        rw [lowercase_terminal terminal] at fits
        exact ⟨name, terminal, lineEnd, identifier, derives, rfl, fits⟩
      · intro given
        obtain ⟨name, terminal, lineEnd, identifier, derives, rfl, fits⟩ := given
        rw [lowercase_terminal terminal]
        exact ⟨⟨name, terminal, lineEnd, identifier, derives, rfl⟩, fits⟩

end Language.Architecture

end Typeahead
