import Typeahead.Proofs.Language.Answering
import Typeahead.Proofs.Language.Suggestions

namespace Typeahead

/-!
Words in architecture descriptions.  Letters, digits and underscores that follow each other belong to
one token, with few exceptions: a number may stand right in front of a word, and so may a keyword
that begins with an exclamation mark or with a letter beyond ASCII.
-/

open Typeahead.Language (isWordStart isWordPart)

namespace Text

variable {c : Char} {cs ds : List Char}

theorem isWordPart_iff : isWordPart c = true ↔ isWordStart c = true ∨ c.isDigit = true := by
  simp only [isWordStart, isWordPart, Char.isAlphanum, Bool.or_eq_true]
  tauto

theorem toNat_lt_of_isWordPart (part : isWordPart c = true) : c.toNat < 123 := by
  simp only [isWordPart, Char.isAlphanum, Char.isDigit] at part
  delta Char.isAlpha Char.isUpper Char.isLower at part
  simp only [Bool.or_eq_true, Bool.and_eq_true, decide_eq_true_eq, beq_iff_eq, ge_iff_le,
    UInt32.le_iff_toNat_le] at part
  have same : c.toNat = c.val.toNat := rfl
  have bounds : 'Z'.val.toNat = 90 ∧ 'z'.val.toNat = 122 ∧ '9'.val.toNat = 57 := by decide
  rcases part with (upper | digit) | rfl
  · omega
  · omega
  · decide

theorem not_isWordStart_of_isDigit (digit : c.isDigit = true) : isWordStart c = false := by
  have all : ∀ n : Nat, n < 123 → (Char.ofNat n).isDigit = true →
      isWordStart (Char.ofNat n) = false := by
    decide
  exact forall_char_of_lt (P := fun c => c.isDigit = true → isWordStart c = false) all
    (toNat_lt_of_isWordPart (isWordPart_iff.2 (.inr digit))) digit

theorem ne_of_isWordPart {d : Char} (part : isWordPart c = true) (apart : isWordPart d = false) :
    c ≠ d := by
  rintro rfl
  rw [part] at apart
  cases apart

theorem not_isLineEnd_of_isWordPart (part : isWordPart c = true) :
    Language.isLineEnd c = false := by
  simp [Language.isLineEnd, ne_of_isWordPart part (d := '\r') (by decide),
    ne_of_isWordPart part (d := '\n') (by decide)]

/-- A property that no change of letter case can affect. -/
theorem holds_toLower {holds : Char → Bool}
    (all : ∀ n : Nat, n < 123 → holds (Char.ofNat n).toLower = holds (Char.ofNat n)) (c : Char) :
    holds c.toLower = holds c := by
  by_cases less : c.toNat < 123
  · exact forall_char_of_lt (P := fun c => holds c.toLower = holds c) all less
  · rw [toLower_of_not_capital (by omega)]

theorem isWordStart_toLower (c : Char) : isWordStart c.toLower = isWordStart c :=
  holds_toLower (by decide) c

theorem isWordPart_toLower (c : Char) : isWordPart c.toLower = isWordPart c :=
  holds_toLower (by decide) c

theorem isBlank_of_isWordPart (part : isWordPart c = true) : isBlank c = false := by
  have all : ∀ n : Nat, n < 123 → isWordPart (Char.ofNat n) = true →
      isBlank (Char.ofNat n) = false := by
    decide
  exact forall_char_of_lt (P := fun c => isWordPart c = true → isBlank c = false) all
    (toNat_lt_of_isWordPart part) part

theorem lowercase_of_isWordPart (parts : ∀ c ∈ cs, isWordPart c = true) :
    (lowercase (.ofList cs)).toList = cs.map Char.toLower := by
  rw [lowercase, String.toList_ofList, String.toList_ofList, lowercaseAfter_eq_map]
  exact fun c member => toNat_lt_of_isWordPart (parts c member)

theorem isWordStart_or_eq_kelvin (starts : ∀ d ∈ lowercaseChar c, isWordStart d = true) :
    isWordStart c = true ∨ c = '\u212a' := by
  unfold lowercaseChar at starts
  split at starts
  · exact absurd (starts '\u0307' (by simp)) (by decide)
  · split at starts
    · rename_i first last step image found
      have run := List.all_eq_true.1 lowercaseRuns_beyond _ (List.mem_of_find?_eq_some found)
      have inside := List.find?_some found
      simp only [Bool.and_eq_true, decide_eq_true_eq, beq_iff_eq, Bool.or_eq_true] at run inside
      rcases run with (⟨⟨rfl, rfl⟩, rfl⟩ | ⟨rfl, rfl⟩) | ⟨-, beyond⟩
      · refine .inl ?_
        have all : ∀ n : Nat, n < 91 → 65 ≤ n → isWordStart (Char.ofNat n) = true := by decide
        have own := all c.toNat (by omega) (by omega)
        rwa [Char.ofNat_toNat] at own
      · refine .inr ?_
        have same : c.toNat = 0x212a := by omega
        rw [← Char.ofNat_toNat c, same]
      · have start := starts (Char.ofNat (image + (c.toNat - first))) (by simp)
        have low := toNat_lt_of_isWordPart (isWordPart_iff.2 (.inl start))
        by_cases valid : (image + (c.toNat - first)).isValidChar
        · have same : Char.ofNat (image + (c.toNat - first)) = Char.ofNatAux _ valid :=
            dif_pos valid
          have counted : (Char.ofNatAux (image + (c.toNat - first)) valid).toNat =
              image + (c.toNat - first) := rfl
          rw [same, counted] at low
          omega
        · have zero : Char.ofNat (image + (c.toNat - first)) = Char.ofNat 0 := dif_neg valid
          rw [zero] at start
          exact absurd start (by decide)
    · exact .inl (starts c (by simp))

/-- The word that ends a text, if any. -/
def wordBefore (cs : List Char) : List Char := (cs.reverse.takeWhile isWordPart).reverse

theorem isWordPart_of_mem_wordBefore (member : c ∈ wordBefore cs) : isWordPart c = true :=
  List.all_eq_true.1 List.all_takeWhile c (List.mem_reverse.1 member)

theorem wordBefore_suffix (cs : List Char) : wordBefore cs <:+ cs := by
  have front := List.takeWhile_prefix isWordPart (l := cs.reverse)
  rwa [← List.reverse_suffix, List.reverse_reverse] at front

theorem wordBefore_append (cs : List Char) (parts : ∀ c ∈ ds, isWordPart c = true) :
    wordBefore (cs ++ ds) = wordBefore cs ++ ds := by
  rw [wordBefore, List.reverse_append, List.takeWhile_append_of_pos, List.reverse_append,
    List.reverse_reverse, ← wordBefore]
  exact fun c member => parts c (List.mem_reverse.1 member)

theorem wordBefore_append_cons {d : Char} (apart : isWordPart d = false)
    (parts : ∀ c ∈ ds, isWordPart c = true) : wordBefore (cs ++ d :: ds) = ds := by
  have nothing : wordBefore (cs ++ [d]) = [] := by
    simp [wordBefore, apart]
  rw [List.append_cons, wordBefore_append _ parts, nothing, List.nil_append]

theorem exists_eq_append_wordBefore (member : c ∈ cs) (apart : isWordPart c = false) :
    ∃ front d, cs = front ++ d :: wordBefore cs ∧ isWordPart d = false := by
  have split := List.takeWhile_append_dropWhile (p := isWordPart) (l := cs.reverse)
  have stops := List.head?_dropWhile_not isWordPart cs.reverse
  cases rest : cs.reverse.dropWhile isWordPart with
  | nil =>
      rw [rest, List.append_nil] at split
      have inside : c ∈ cs.reverse.takeWhile isWordPart := by
        rw [split]
        exact List.mem_reverse.2 member
      rw [List.all_eq_true.1 List.all_takeWhile c inside] at apart
      cases apart
  | cons d later =>
      rw [rest] at split stops
      refine ⟨later.reverse, d, ?_, stops⟩
      have back := congrArg List.reverse split
      rw [List.reverse_reverse, List.reverse_append, ← wordBefore, List.reverse_cons,
        List.append_assoc] at back
      exact back.symm

end Text

namespace Pattern

variable {cs : List Char} {size : Nat}

theorem forall₂_of_startsBy {same : Char → Char → Bool} {text : List Char}
    (starts : startsBy same text cs = true) :
    List.Forall₂ (fun k c => same k c = true) text (cs.take text.length) := by
  induction text generalizing cs with
  | nil => simp
  | cons k text ih =>
      cases cs with
      | nil => cases starts
      | cons c cs =>
          obtain ⟨own, later⟩ := Bool.and_eq_true_iff.1 starts
          exact .cons own (ih later)

theorem prefix_of_startsBy {text : List Char} (starts : startsBy (· == ·) text cs = true) :
    text <+: cs := by
  have same := forall₂_of_startsBy starts
  simp only [beq_iff_eq, List.forall₂_eq_eq_eq] at same
  rw [same]
  exact List.take_prefix _ _

theorem mem_lengths_both {first second : Pattern} : size ∈ (both first second).lengths cs ↔
    ∃ front ∈ first.lengths cs, ∃ back ∈ second.lengths (cs.drop front), front + back = size := by
  simp [lengths]

/-- Every character that the pattern matches is of the class. -/
def Within (holds : Char → Bool) : Pattern → Prop
  | .one own | .run own => ∀ c, own c = true → holds c = true
  | .word text => ∀ c ∈ text, holds c = true
  | .both first second | .either first second => first.Within holds ∧ second.Within holds
  | .maybe pattern | .many pattern => pattern.Within holds
  | .unless _ => True
  | .caseless _ | .through _ => False

theorem within_literal {holds : Char → Bool} {text : String}
    (all : text.toList.all holds = true) : (literal text).Within holds :=
  List.all_eq_true.1 all

theorem forall_mem_take_add {P : Char → Prop} {front back : Nat} (here : ∀ c ∈ cs.take front, P c)
    (there : ∀ c ∈ (cs.drop front).take back, P c) : ∀ c ∈ cs.take (front + back), P c := by
  intro c member
  rw [List.take_add, List.mem_append] at member
  exact member.elim (here c) (there c)

theorem Within.forall_mem_take {holds : Char → Bool} {pattern : Pattern}
    (within : pattern.Within holds) (member : size ∈ pattern.lengths cs) :
    ∀ c ∈ cs.take size, holds c = true := by
  induction pattern generalizing cs size with
  | one own =>
      cases cs with
      | nil => simp
      | cons c cs =>
          simp only [lengths] at member
          split at member
          · rename_i found
            obtain rfl := List.mem_singleton.1 member
            simpa using within c found
          · cases member
  | word text =>
      simp only [lengths] at member
      split at member
      · rename_i starts
        obtain rfl := List.mem_singleton.1 member
        rw [← List.prefix_iff_eq_take.1 (prefix_of_startsBy starts)]
        exact within
      · cases member
  | run own =>
      simp only [lengths, List.mem_reverse, List.mem_range] at member
      intro c inside
      have part : cs.take size <+: cs.takeWhile own :=
        List.prefix_of_prefix_length_le (List.take_prefix _ _) (List.takeWhile_prefix _)
          (by rw [List.length_take]; omega)
      exact within c (List.all_eq_true.1 List.all_takeWhile c (part.subset inside))
  | both first second ihFirst ihSecond =>
      obtain ⟨front, here, back, there, rfl⟩ := mem_lengths_both.1 member
      exact forall_mem_take_add (ihFirst within.1 here) (ihSecond within.2 there)
  | either first second ihFirst ihSecond =>
      rcases List.mem_append.1 member with here | there
      · exact ihFirst within.1 here
      · exact ihSecond within.2 there
  | maybe pattern ih =>
      rcases List.mem_append.1 member with here | nothing
      · exact ih within here
      · simp [List.mem_singleton.1 nothing]
  | many pattern ih =>
      rw [lengths] at member
      generalize cs.length = fuel at member
      induction fuel generalizing cs size with
      | zero => simp [List.mem_singleton.1 member]
      | succ fuel again =>
          rcases List.mem_append.1 member with here | nothing
          · obtain ⟨front, first, member⟩ := List.mem_flatMap.1 here
            obtain ⟨back, there, rfl⟩ := List.mem_map.1 member
            exact forall_mem_take_add (ih within (List.mem_filter.1 first).1) (again there)
          · simp [List.mem_singleton.1 nothing]
  | caseless text => cases within
  | through closer => cases within
  | _ =>
      simp only [lengths] at member
      split at member
      · simp [List.mem_singleton.1 member]
      · cases member

theorem head?_run (holds : Char → Bool) (cs : List Char) :
    ((run holds).lengths cs).head? = some (cs.takeWhile holds).length := by
  simp [lengths, List.range_succ]

/-- If the second part never fails, then the preferred match is made of the preferred ones. -/
theorem exists_head?_both {first second : Pattern} (ready : ∀ cs, second.lengths cs ≠ [])
    (found : ((both first second).lengths cs).head? = some size) :
    ∃ front back, (first.lengths cs).head? = some front ∧
      (second.lengths (cs.drop front)).head? = some back ∧ front + back = size := by
  cases here : first.lengths cs with
  | nil => simp [lengths, here] at found
  | cons front others =>
      cases there : second.lengths (cs.drop front) with
      | nil => exact absurd there (ready _)
      | cons back more =>
          refine ⟨front, back, rfl, ?_, ?_⟩
          · rw [there, List.head?_cons]
          · simpa [lengths, here, there] using found

theorem repeated_ne_nil (own : List Char → List Nat) (fuel : Nat) (cs : List Char) :
    repeated own fuel cs ≠ [] := by
  cases fuel <;> simp [repeated]

theorem lengths_many_ne_nil (pattern : Pattern) (cs : List Char) :
    (many pattern).lengths cs ≠ [] :=
  repeated_ne_nil _ _ _

theorem lengths_both_ne_nil {first second : Pattern} (here : first.lengths cs ≠ [])
    (there : ∀ rest, second.lengths rest ≠ []) : (both first second).lengths cs ≠ [] := by
  obtain ⟨front, others, same⟩ := List.exists_cons_of_ne_nil here
  simp [lengths, same, there]

/-- Repetition goes on as long as the pattern matches something. -/
theorem filter_lengths_eq_nil {own : List Char → List Nat} (ended : (own []).filter (0 < ·) = [])
    {fuel : Nat} (enough : cs.length ≤ fuel)
    (found : (repeated own fuel cs).head? = some size) :
    (own (cs.drop size)).filter (0 < ·) = [] := by
  induction fuel generalizing cs size with
  | zero =>
      obtain rfl := List.length_eq_zero_iff.1 (Nat.le_zero.1 enough)
      rwa [List.drop_nil]
  | succ fuel ih =>
      cases some : (own cs).filter (0 < ·) with
      | nil =>
          simp only [repeated, some, List.flatMap_nil, List.nil_append, List.head?_cons,
            Option.some.injEq] at found
          rw [← found, List.drop_zero, some]
      | cons front others =>
          have positive : 0 < front := by
            have member : front ∈ (own cs).filter (0 < ·) := by simp [some]
            simpa using (List.mem_filter.1 member).2
          obtain ⟨back, more, there⟩ : ∃ back more,
              repeated own fuel (cs.drop front) = back :: more :=
            List.exists_cons_of_ne_nil (repeated_ne_nil own fuel _)
          simp only [repeated, some, List.flatMap_cons, there, List.map_cons, List.cons_append,
            List.head?_cons, Option.some.injEq] at found
          rw [← found, ← List.drop_drop]
          refine ih ?_ (by rw [there, List.head?_cons])
          rw [List.length_drop]
          omega

/-- Where the preferred match ends in a word's character, the word ends. -/
def SparesWords (pattern : Pattern) : Prop :=
  ∀ (front rest : List Char) (last next : Char),
    (pattern.lengths (front ++ last :: next :: rest)).head? = some (front.length + 1) →
      isWordPart last = true → isWordPart next = false

section Cut

variable {front rest : List Char} {last next : Char}

theorem take_cut : (front ++ last :: next :: rest).take (front.length + 1) = front ++ [last] := by
  simp [List.take_append]

theorem drop_cut : (front ++ last :: next :: rest).drop (front.length + 1) = next :: rest := by
  simp [List.drop_append]

end Cut

theorem sparesWords_of_within {pattern : Pattern}
    (within : pattern.Within fun c => !isWordPart c) : pattern.SparesWords := by
  intro front rest last next found part
  have apart := within.forall_mem_take (List.mem_of_head? found) last (by simp [take_cut])
  simp [part] at apart

theorem sparesWords_both_run {first : Pattern} {holds : Char → Bool}
    (wide : ∀ c, isWordPart c = true → holds c = true) :
    (both first (run holds)).SparesWords := by
  intro front rest last next found part
  obtain ⟨here, there, -, ran, size⟩ := exists_head?_both (by simp [lengths]) found
  rw [head?_run, Option.some.injEq] at ran
  have stops := List.head?_dropWhile_not holds
    ((front ++ last :: next :: rest).drop here)
  have behind : ((front ++ last :: next :: rest).drop here).dropWhile holds = next :: rest := by
    have whole := List.takeWhile_append_dropWhile (p := holds)
      (l := (front ++ last :: next :: rest).drop here)
    have cut := congrArg (List.drop there) whole
    rw [List.drop_drop, size, drop_cut, ← ran, List.drop_left] at cut
    exact cut
  rw [behind] at stops
  rw [Bool.eq_false_iff]
  intro part'
  exact absurd (wide next part') (by simpa using stops)

theorem lengthThrough_cases (closer cs : List Char) : lengthThrough closer cs = cs.length ∨
    ∃ front, lengthThrough closer cs = front + closer.length ∧ closer <+: cs.drop front := by
  induction cs with
  | nil => exact .inl rfl
  | cons c cs ih =>
      rw [lengthThrough]
      split
      · rename_i starts
        exact .inr ⟨0, by omega, prefix_of_startsBy starts⟩
      · rcases ih with whole | ⟨front, size, here⟩
        · exact .inl (by rw [whole, List.length_cons])
        · exact .inr ⟨front + 1, by omega, here⟩

theorem sparesWords_both_through {first : Pattern} {closer : List Char} {c : Char}
    (apart : isWordPart c = false) : (both first (through (closer ++ [c]))).SparesWords := by
  intro front rest last next found part
  obtain ⟨here, -, there, member, size⟩ := mem_lengths_both.1 (List.mem_of_head? found)
  obtain rfl := List.mem_singleton.1 member
  rcases lengthThrough_cases (closer ++ [c]) ((front ++ last :: next :: rest).drop here) with
    whole | ⟨middle, stop, closes⟩
  · rw [List.length_drop, List.length_append, List.length_cons, List.length_cons] at whole
    omega
  · rw [List.length_append, List.length_singleton] at stop
    rw [List.drop_drop] at closes
    obtain ⟨behind, same⟩ := closes
    have cut := congrArg (List.drop closer.length) same
    rw [List.append_assoc, List.drop_left, List.drop_drop,
      show here + middle + closer.length = front.length by omega, List.drop_left] at cut
    rw [(List.cons.inj cut).1, part] at apart
    cases apart

end Pattern

/-- Each lexeme is found at the front of some text, and those behind it go on from there. -/
theorem Lexicon.exists_reading?_of_getElem? {lexicon : Lexicon} {fuel index : Nat}
    {counter : Text.LineCounter} {cs : List Char} {lexeme : Lexeme}
    (found : (lexicon.scanUpTo fuel counter cs)[index]? = some lexeme) :
    ∃ rest, lexicon.reading? rest = some lexeme.toReading ∧
      ((lexicon.scanUpTo fuel counter cs).drop (index + 1)).flatMap (·.text) <+:
        rest.drop lexeme.text.length := by
  induction fuel generalizing counter cs index with
  | zero => simp [scanUpTo] at found
  | succ fuel ih =>
      rw [scanUpTo] at found ⊢
      cases first : lexicon.reading? cs with
      | none => simp [first] at found
      | some own =>
          simp only [first] at found ⊢
          split at found
          · cases found
          · rename_i filled
            rw [if_neg filled]
            cases index with
            | zero =>
                obtain rfl := Option.some.inj found
                exact ⟨cs, first, (lexicon.written_scanUpTo fuel _ _).texts⟩
            | succ index => exact ih found

namespace Language.Architecture

theorem reading?_eq_none {rule : LexicalRule} {cs : List Char}
    (nothing : rule.pattern.lengths cs = []) : rule.reading? cs = none := by
  simp [LexicalRule.reading?, nothing]

/-- What begins as a word is a word as a whole. -/
theorem text_of_isWordStart {c : Char} {cs : List Char} {reading : Reading}
    (start : isWordStart c = true) (found : lexicon.reading? (c :: cs) = some reading) :
    reading.text = c :: cs.takeWhile isWordPart := by
  have other : ∀ d, isWordStart d = false → (d == c) = false := by
    intro d apart
    rw [beq_eq_false_iff_ne]
    rintro rfl
    rw [start] at apart
    cases apart
  have hash := other '#' (by decide)
  have slash := other '/' (by decide)
  -- the three terminals that are tried before words
  have color : hexColor.lengths (c :: cs) = [] := by
    simp [hexColor, Pattern.inOrder, Pattern.literal, Pattern.lengths, Pattern.startsBy, hash]
  have block : (Pattern.both (.literal "/*") (.through ['*', '/'])).lengths (c :: cs) = [] := by
    simp [Pattern.literal, Pattern.lengths, Pattern.startsBy, slash]
  have line : (Pattern.both (.either (.literal "//") (.literal "#"))
      (.run fun c => !isLineEnd c)).lengths (c :: cs) = [] := by
    simp [Pattern.literal, Pattern.lengths, Pattern.startsBy, slash, hash]
  obtain ⟨rest, rules⟩ : ∃ rest, lexicon.rules =
      { terminal := "HEX_COLOR", pattern := hexColor } ::
      { terminal := "BLOCK_COMMENT", pattern := .both (.literal "/*") (.through ['*', '/']) } ::
      { terminal := "LINE_COMMENT"
        pattern := .both (.either (.literal "//") (.literal "#"))
          (.run fun c => !isLineEnd c) } ::
      { terminal := "ID"
        pattern := .both (.one isWordStart) (.run isWordPart)
        reserved := keywordPatterns } :: rest := ⟨_, rfl⟩
  rw [Lexicon.reading?, rules, List.findSome?_cons, reading?_eq_none color, List.findSome?_cons,
    reading?_eq_none block, List.findSome?_cons, reading?_eq_none line, List.findSome?_cons] at found
  have size : ((Pattern.both (.one isWordStart) (.run isWordPart)).lengths (c :: cs)).head? =
      some (1 + (cs.takeWhile isWordPart).length) := by
    simp [Pattern.lengths, start, List.range_succ]
  simp only [LexicalRule.reading?, size, Option.some.injEq] at found
  rw [← found, Nat.add_comm, List.take_succ_cons]
  rw [← List.prefix_iff_eq_take.1 (List.takeWhile_prefix isWordPart)]

theorem sparesWords_hexColor : hexColor.SparesWords := by
  intro front rest last next found part
  obtain ⟨hash, -, middle, behind, size⟩ := Pattern.mem_lengths_both.1 (List.mem_of_head? found)
  obtain ⟨digits, -, nothing, ending, rfl⟩ := Pattern.mem_lengths_both.1 behind
  simp only [Pattern.inOrder, Pattern.lengths, List.drop_drop] at ending
  split at ending
  · rename_i ends
    obtain rfl := List.mem_singleton.1 ending
    rw [show hash + digits = front.length + 1 by omega, Pattern.drop_cut, List.isEmpty_iff,
      Pattern.lengths] at ends
    by_contra part'
    simp [part'] at ends
  · cases ending

/-- A string takes in the characters of words. -/
theorem sparesWords_string : string.SparesWords := by
  intro front rest last next found part
  have ready : ∀ cs, (Pattern.maybe (.one (· == '"'))).lengths cs ≠ [] := by
    simp [Pattern.lengths]
  obtain ⟨opened, _, -, inside, size⟩ := Pattern.exists_head?_both
    (fun cs => Pattern.lengths_both_ne_nil (Pattern.lengths_many_ne_nil _ cs) ready) found
  obtain ⟨taken, close, repeats, closes, rfl⟩ := Pattern.exists_head?_both ready inside
  have stops := Pattern.filter_lengths_eq_nil (by rfl) (Nat.le_refl _) repeats
  rw [List.drop_drop] at closes stops
  cases close with
  | zero =>
      rw [show opened + taken = front.length + 1 by omega, Pattern.drop_cut] at stops
      rw [Bool.eq_false_iff]
      intro part'
      have plain : next ≠ '"' ∧ next ≠ '\\' ∧ isLineEnd next = false :=
        ⟨Text.ne_of_isWordPart part' (by decide), Text.ne_of_isWordPart part' (by decide),
          Text.not_isLineEnd_of_isWordPart part'⟩
      simp [Pattern.lengths, plain] at stops
  | succ more =>
      exfalso
      cases behind : (front ++ last :: next :: rest).drop (opened + taken) with
      | nil => simp [behind, Pattern.lengths] at closes
      | cons c others =>
          by_cases same : c = '"'
          · have single : more = 0 := by simpa [behind, same, Pattern.lengths] using closes.symm
            rw [show opened + taken = front.length by omega, List.drop_left] at behind
            rw [(List.cons.inj behind).1, same] at part
            exact absurd part (by decide)
          · simp [behind, same, Pattern.lengths] at closes

theorem within_lineEnd : (Pattern.anyOf [.literal "\r\n", .literal "\n", .literal "\r"]).Within
    fun c => !isWordPart c :=
  ⟨Pattern.within_literal (by decide), Pattern.within_literal (by decide),
    Pattern.within_literal (by decide)⟩

section Beside

variable {front rest : List Char} {last next : Char} {reading : Reading}
  (found : lexicon.reading? (front ++ last :: next :: rest) = some reading)
  (text : reading.text = front ++ [last]) (part' : isWordPart next = true)

include found text part'

theorem not_isWordStart_of_cut {c : Char} (first : reading.text.head? = some c) :
    isWordStart c = false := by
  rw [Bool.eq_false_iff]
  intro start
  obtain ⟨others, same⟩ := List.head?_eq_some_iff.1 first
  have whole : front ++ last :: next :: rest = c :: (others ++ next :: rest) := by
    rw [← List.cons_append, ← same, text]
    simp
  rw [whole] at found
  have words := text_of_isWordStart start found
  rw [same, List.cons.injEq] at words
  have behind := List.takeWhile_append_dropWhile (p := isWordPart) (l := others ++ next :: rest)
  rw [← words.2, List.append_cancel_left_eq] at behind
  have stops := List.head?_dropWhile_not isWordPart (others ++ next :: rest)
  rw [behind] at stops
  simp [part'] at stops

/-- A reading that ends in the middle of a word is a number, or else a keyword that does not begin as
a word. -/
theorem digit_or_keyword (part : isWordPart last = true) :
    last.isDigit = true ∨ ∃ keyword ∈ keywords,
      List.Forall₂ (fun k c => Pattern.sameLetter k c = true) keyword.2.toList reading.text := by
  obtain ⟨rule, member, matched⟩ := List.exists_of_findSome?_eq_some found
  unfold LexicalRule.reading? at matched
  split at matched
  · rename_i size preferred
    have taken : (front ++ last :: next :: rest).take size = front ++ [last] := by
      rw [← text, ← Option.some.inj matched]
    obtain rfl : size = front.length + 1 := by
      have sizes := congrArg List.length taken
      simp only [List.length_take, List.length_append, List.length_cons, List.length_nil] at sizes
      omega
    have unspared : ¬rule.pattern.SparesWords := by
      intro spares
      rw [spares front rest last next preferred part] at part'
      cases part'
    have inside := List.mem_of_head? preferred
    simp only [lexicon, lexicalRules, List.cons_append, List.nil_append, List.mem_cons,
      List.mem_append, List.mem_map, List.not_mem_nil, or_false] at member
    rcases member with rfl | rfl | rfl | rfl | rfl | rfl | rfl | member
    · exact absurd sparesWords_hexColor unspared
    · exact absurd (@Pattern.sparesWords_both_through _ ['*'] '/' (by decide)) unspared
    · exact absurd (Pattern.sparesWords_both_run fun _ own => by
        simp [Text.not_isLineEnd_of_isWordPart own]) unspared
    · exact absurd (Pattern.sparesWords_both_run fun _ own => own) unspared
    · exact absurd sparesWords_string unspared
    · have digits : number.Within fun c => c.isDigit || c == '.' := by
        simp +contextual [number, Pattern.atLeastOne, Pattern.literal, Pattern.Within]
      have own := digits.forall_mem_take inside last (by simp [Pattern.take_cut])
      rw [Bool.or_eq_true, beq_iff_eq] at own
      exact .inl (own.resolve_right (Text.ne_of_isWordPart part (by decide)))
    · refine absurd (Pattern.sparesWords_of_within ?_) unspared
      have apart : ∀ c, isSpacing c = true → (!isWordPart c) = true := by
        intro c space
        simp only [isSpacing, Bool.or_eq_true, beq_iff_eq] at space
        rcases space with (rfl | rfl) | rfl <;> decide
      exact ⟨apart, apart⟩
    · rcases member with ⟨named, listed, rfl⟩ | member
      · obtain ⟨keyword, known, rfl⟩ := List.mem_map.1 listed
        refine .inr ⟨keyword, known, ?_⟩
        simp only [Pattern.lengths] at inside
        split at inside
        · rename_i starts
          rw [text, ← taken, List.mem_singleton.1 inside]
          exact Pattern.forall₂_of_startsBy starts
        · cases inside
      · have sign : ∀ mark : String, (mark.toList.all fun c => !isWordPart c) = true →
            (Pattern.literal mark).SparesWords :=
          fun mark apart => Pattern.sparesWords_of_within (Pattern.within_literal apart)
        rcases member with rfl | rfl | rfl | rfl | rfl | rfl | rfl
        · exact absurd (Pattern.sparesWords_of_within within_lineEnd) unspared
        · exact absurd (sign "->" (by decide)) unspared
        · exact absurd (sign "\x7b" (by decide)) unspared
        · exact absurd (sign "\x7d" (by decide)) unspared
        · exact absurd (sign "=" (by decide)) unspared
        · exact absurd (sign "*" (by decide)) unspared
        · have single : front = [] := by
            cases front with
            | nil => rfl
            | cons c front =>
                simp only [Pattern.lengths, List.cons_append] at inside
                split at inside
                · simp at inside
                · cases inside
          have start := not_isWordStart_of_cut found text part' (c := last) (by simp [text, single])
          rw [Text.isWordPart_iff, start] at part
          exact .inl (part.resolve_left (by simp))
  · cases matched

end Beside

/-- Whether a letter of a keyword can be written with a character that is not in words. -/
def irregular (k : Char) : Bool :=
  !isWordPart k || k.toLower == 's' || k.toLower == 'i' || k.toLower == 'k'

theorem sameLetter_cases {k c : Char} (same : Pattern.sameLetter k c = true) :
    k.toLower = c.toLower ∨ irregular k = true ∧ isWordPart c = false := by
  rw [Pattern.sameLetter, Bool.or_eq_true, beq_iff_eq] at same
  refine same.imp_right ?_
  intro special
  split at special
  · rename_i form
    refine ⟨by simp [irregular, form], ?_⟩
    rw [beq_iff_eq.1 special]
    decide
  · rename_i form
    refine ⟨by simp [irregular, form], ?_⟩
    rw [Bool.or_eq_true, beq_iff_eq, beq_iff_eq] at special
    rcases special with rfl | rfl <;> decide
  · rename_i form
    refine ⟨by simp [irregular, form], ?_⟩
    rw [beq_iff_eq.1 special]
    decide
  · cases special

theorem irregular_of_sameLetter {k c : Char} (same : Pattern.sameLetter k c = true)
    (apart : isWordPart c = false) : irregular k = true := by
  rcases sameLetter_cases same with lower | ⟨own, -⟩
  · rw [← Text.isWordPart_toLower, ← lower, Text.isWordPart_toLower] at apart
    simp [irregular, apart]
  · exact own

/-- What is left of a text behind each character that can be irregular. -/
def tails : List Char → List (List Char)
  | [] => []
  | k :: rest => if irregular k then rest :: tails rest else tails rest

theorem mem_tails {front tail : List Char} {k : Char} (own : irregular k = true) :
    tail ∈ tails (front ++ k :: tail) := by
  induction front with
  | nil => simp [tails, own]
  | cons c front ih =>
      rw [List.cons_append, tails]
      split
      · exact List.mem_cons_of_mem _ ih
      · exact ih

theorem all_isWordStart_keywords : (keywords.all fun keyword =>
    keyword.2.toList.all fun k => !isWordPart k || isWordStart k) = true := by
  decide +kernel

theorem all_isWordStart_terminalNames : (terminalNames.all fun name =>
    name.toList.all isWordStart) = true := by
  decide +kernel

theorem keyword_tails_shorter : (keywords.all fun keyword =>
    !keyword.2.toList.head?.any irregular || (tails keyword.2.toList).all fun tail =>
      tail.isEmpty || terminalNames.all fun name =>
        !(tail.map Char.toLower).isPrefixOf (name.toList.map Char.toLower) ||
          decide (name.toList.length ≤ tail.length)) = true := by
  decide +kernel

/-- What is left of a keyword behind a letter that can be irregular does not begin a longer name, if
the keyword's first letter can be irregular too. -/
theorem length_le_of_tail {keyword : String × String} (listed : keyword ∈ keywords)
    (first : keyword.2.toList.head?.any irregular = true) {front tail : List Char} {k : Char}
    (split : keyword.2.toList = front ++ k :: tail) (own : irregular k = true)
    (filled : tail ≠ []) {name : String} (known : name ∈ terminalNames)
    (begins : tail.map Char.toLower <+: name.toList.map Char.toLower) :
    name.toList.length ≤ tail.length := by
  have checked := List.all_eq_true.1 keyword_tails_shorter keyword listed
  rw [first, Bool.not_true, Bool.false_or, split] at checked
  have shorter := List.all_eq_true.1 checked tail (mem_tails own)
  rw [List.isEmpty_eq_false_iff.2 filled, Bool.false_or] at shorter
  have bound := List.all_eq_true.1 shorter name known
  rwa [List.isPrefixOf_iff_prefix.2 begins, Bool.not_true, Bool.false_or, decide_eq_true_iff]
    at bound

theorem isWordStart_of_mem_lowercase {name : String} (known : name ∈ terminalNames) {c : Char}
    (member : c ∈ name.toList.map Char.toLower) : isWordStart c = true := by
  obtain ⟨own, inside, rfl⟩ := List.mem_map.1 member
  rw [Text.isWordStart_toLower]
  exact List.all_eq_true.1 (List.all_eq_true.1 all_isWordStart_terminalNames name known) own inside

theorem map_toLower_eq {letters word : List Char}
    (same : List.Forall₂ (fun k c => Pattern.sameLetter k c = true) letters word)
    (parts : ∀ c ∈ word, isWordPart c = true) :
    letters.map Char.toLower = word.map Char.toLower := by
  induction same with
  | nil => rfl
  | cons own _ ih =>
      rw [List.forall_mem_cons] at parts
      rcases sameLetter_cases own with lower | ⟨-, apart⟩
      · rw [List.map_cons, List.map_cons, lower, ih parts.2]
      · rw [parts.1] at apart
        cases apart

/-- If a keyword does not begin as a word, then the word that it ends in is not the start of a name
that goes on. -/
theorem not_prefix_of_keyword {keyword : String × String} (listed : keyword ∈ keywords)
    {text typed : List Char}
    (same : List.Forall₂ (fun k c => Pattern.sameLetter k c = true) keyword.2.toList text)
    {c : Char} (first : text.head? = some c) (start : isWordStart c = false)
    (ending : Text.wordBefore text ≠ []) (before : List Char) (filled : typed ≠ [])
    {name : String} (known : name ∈ terminalNames) :
    ¬(Text.wordBefore (before ++ text) ++ typed).map Char.toLower <+:
      name.toList.map Char.toLower := by
  intro begins
  obtain ⟨others, rfl⟩ := List.head?_eq_some_iff.1 first
  obtain ⟨k, rest, here, -, word⟩ := List.forall₂_cons_right_iff.1 same
  have apart : isWordPart c = false := by
    rcases sameLetter_cases here with lower | ⟨-, apart⟩
    · rw [Bool.eq_false_iff]
      intro part
      rw [← Text.isWordPart_toLower, ← lower, Text.isWordPart_toLower] at part
      have own := List.all_eq_true.1
        (List.all_eq_true.1 all_isWordStart_keywords keyword listed) k (by simp [word])
      rw [part, Bool.not_true, Bool.false_or] at own
      rw [← Text.isWordStart_toLower, lower, Text.isWordStart_toLower, start] at own
      cases own
    · exact apart
  obtain ⟨front, d, split, apart'⟩ :=
    Text.exists_eq_append_wordBefore (List.mem_cons_self (l := others)) apart
  have alone : Text.wordBefore (before ++ c :: others) = Text.wordBefore (c :: others) := by
    conv_lhs => rw [split, ← List.append_assoc]
    exact Text.wordBefore_append_cons apart' fun _ => Text.isWordPart_of_mem_wordBefore
  rw [alone] at begins
  obtain ⟨k', tail, own, behind, dropped⟩ := List.forall₂_cons_right_iff.1
    (List.forall₂_drop_append _ front _ (split ▸ same))
  have parted := List.take_append_drop front.length keyword.2.toList
  rw [dropped] at parted
  have lower := map_toLower_eq behind fun _ => Text.isWordPart_of_mem_wordBefore
  have short := length_le_of_tail listed
    (by simpa [word] using irregular_of_sameLetter here apart) parted.symm
    (irregular_of_sameLetter own apart')
    (by rintro rfl; exact ending (List.forall₂_nil_left_iff.1 behind)) known
    (by
      rw [lower]
      rw [List.map_append] at begins
      exact (List.prefix_append _ _).trans begins)
  have long := begins.length_le
  have more := List.length_pos_iff.2 filled
  rw [List.length_map, List.length_map, List.length_append, ← behind.length_eq] at long
  omega

/-- Where a reading ends in the middle of a word, no name begins with that word. -/
theorem not_prefix_of_cut {front rest : List Char} {last next : Char} {reading : Reading}
    (found : lexicon.reading? (front ++ last :: next :: rest) = some reading)
    (text : reading.text = front ++ [last]) (part : isWordPart last = true)
    (part' : isWordPart next = true) (before : List Char) {typed : List Char} (filled : typed ≠ [])
    {name : String} (known : name ∈ terminalNames) :
    ¬(Text.wordBefore (before ++ reading.text) ++ typed).map Char.toLower <+:
      name.toList.map Char.toLower := by
  have ends : ∀ before, Text.wordBefore (before ++ reading.text) =
      Text.wordBefore (before ++ front) ++ [last] := by
    intro before
    rw [text, ← List.append_assoc]
    exact Text.wordBefore_append _ (by simpa using part)
  rcases digit_or_keyword found text part' part with digit | ⟨keyword, listed, same⟩
  · intro begins
    rw [ends] at begins
    have own := isWordStart_of_mem_lowercase known
      (begins.subset (List.mem_map_of_mem (a := last) (by simp)))
    rw [Text.isWordStart_toLower, Text.not_isWordStart_of_isDigit digit] at own
    cases own
  · cases first : reading.text.head? with
    | none => simp [text] at first
    | some c =>
        have start := not_isWordStart_of_cut found text part' first
        refine not_prefix_of_keyword listed same first start ?_ before filled known
        have alone := ends []
        rw [List.nil_append] at alone
        simp [alone]

end Language.Architecture

end Typeahead
