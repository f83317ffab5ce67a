import Typeahead.Proofs.Language.Offsets

namespace Typeahead

/-!
Carets in comments.  Between two characters of a comment there are no suggestions.  At its end the
caret is on the next token as well, and a terminal goes before a comment: what is suggested there is
what may stand in place of that terminal.
-/

theorem Located.eq_found_of_position? {located : Located} {position : TokenPosition}
    (own : located.position? = some position) : located = .found position := by
  cases located with
  | found other => exact congrArg Located.found (Option.some.inj own)
  | inComment => cases own
  | unplaced => cases own
  | nowhere => cases own

theorem TokenStream.shown_of_mem_visible {stream : TokenStream} {token : Token}
    (visible : token ∈ stream.visible) : token.hidden = false ∧ token ≠ stream.eof := by
  have shown := (List.mem_filter.1 visible).2
  simp only [Token.isVisible, Bool.and_eq_true, Bool.not_eq_true', bne_iff_ne] at shown
  refine ⟨shown.1, ?_⟩
  rintro rfl
  exact shown.2 stream.type_eof

namespace Grammar.Covers

variable {grammar : Grammar} {text : String} {stream : TokenStream} {parse : Parse}
  {skipped gained : List Nat} {tree : SyntaxTree} {outline : Outline} {caret : Caret}
  {token : Token} (covers : grammar.Covers stream parse skipped gained tree outline)

include covers

theorem not_mem_streamed (tokenized : grammar.tokenize text = .ok stream)
    (hidden : token.hidden = true) : token ∉ outline.streamed := by
  intro member
  rcases covers.visible_or_eof member with visible | rfl
  · simp [Token.isVisible, hidden] at visible
  · rw [(eof_of_tokenize tokenized).2.1] at hidden
    cases hidden

theorem mem_streamed (spells : stream.Spells text.toList) (known : token ∈ stream.tokens.toList)
    (inside : token ∈ parse.tree.tokens 0) : token ∈ outline.streamed := by
  rw [covers.closed.tokens_eq] at inside
  exact List.mem_filter.2 ⟨inside, by simp [Token.conjured, spells.index_eq known]⟩

/-- The tree has the terminals of the stream and no other tokens of it. -/
theorem mem_streamed_iff (spells : stream.Spells text.toList) :
    token ∈ outline.streamed ↔ token ∈ stream.terminals := by
  rw [TokenStream.terminals, List.mem_append, List.mem_singleton]
  constructor
  · intro member
    refine (covers.visible_or_eof member).imp_left fun visible => ?_
    exact List.mem_filter.2 ⟨covers.draws.members token member, visible⟩
  · intro listed
    rcases listed with visible | rfl
    · exact covers.mem_streamed spells (List.mem_filter.1 visible).1
        (covers.mem_tokens_of_mem_visible visible)
    · exact covers.mem_streamed spells stream.eof_mem
        (List.mem_of_getLast? covers.closed.getLast?_tokens)

/-- If no trial has left a trace, then the tree has the terminals of the stream in their order. -/
theorem holds (spells : stream.Spells text.toList) (same : tree.indices = gained) :
    parse.tree.Holds stream := by
  refine ⟨⟨outline, covers.closed.place, covers.closed.depicts, covers.closed.distinct⟩, ?_⟩
  have ordered := (covers.pairwise_indices_iff spells.indexed).2 same
  rw [covers.closed.tokens_eq, List.pairwise_filterMap] at ordered
  rw [covers.closed.tokens_eq, ← Outline.streamed]
  have sorted : outline.streamed.Pairwise fun first second => first.position < second.position := by
    rw [Outline.streamed, List.pairwise_filter]
    refine ordered.imp_of_mem ?_
    intro first second member member' less placed placed'
    have known := covers.draws.members first (List.mem_filter.2 ⟨member, placed⟩)
    have known' := covers.draws.members second (List.mem_filter.2 ⟨member', placed'⟩)
    exact less _ (spells.index_eq known) _ (spells.index_eq known')
  have sorted' := spells.pairwise_position.sublist stream.terminals_sublist
  have perm : outline.streamed.Perm stream.terminals := by
    rw [List.perm_ext_iff_of_nodup (sorted.imp (by rintro _ _ less rfl; omega))
      (sorted'.imp (by rintro _ _ less rfl; omega))]
    exact fun token => covers.mem_streamed_iff spells
  refine perm.eq_of_pairwise ?_ sorted sorted'
  intro first second _ _ less less'
  omega

/-- At the root the end token comes last, and there are visible tokens in front of it. -/
theorem exists_root (spells : stream.Spells text.toList) :
    ∃ name before here, outline = .rule 0 name (before ++ [.terminal here stream.eof]) ∧
      ∀ child ∈ before, ∀ token ∈ child.streamed, token ∈ stream.visible := by
  have once := covers.count_eof spells.indexed
  rw [covers.closed.tokens_eq] at once
  obtain ⟨-, root, ⟨_, label⟩, -, ⟨here, last⟩⟩ := covers.closed
  cases outline with
  | terminal spot other => cases label
  | rule spot name children =>
      obtain ⟨before, rfl⟩ : ∃ before, children = before ++ [.terminal here stream.eof] :=
        List.getLast?_eq_some_iff.1 last
      obtain rfl : spot = 0 := root
      refine ⟨name, before, here, rfl, ?_⟩
      intro child member token listed
      have whole := Outline.streamed_subset
        (List.mem_append_left [.terminal here stream.eof] member) 0 name listed
      rcases covers.visible_or_eof whole with visible | rfl
      · exact List.mem_filter.2 ⟨covers.draws.members token whole, visible⟩
      · have twice : 0 < (before.flatMap Outline.tokens).count stream.eof :=
          List.count_pos_iff.2 (List.mem_flatMap.2 ⟨child, member, (List.mem_filter.1 listed).1⟩)
        rw [Outline.tokens_rule, List.flatMap_append, List.count_append, List.flatMap_singleton,
          Outline.tokens_terminal, List.count_singleton_self] at once
        omega

/-- The end token is found if it is under the caret and no visible token is. -/
theorem exists_locate_eof (spells : stream.Spells text.toList)
    (under : stream.eof.covers caret.line caret.column = true)
    (clear : ∀ token ∈ stream.visible, token.covers caret.line caret.column = false) :
    ∃ node, parse.tree.locate stream caret = stream.eof.locatedAt caret node := by
  obtain ⟨name, before, here, rfl, seen⟩ := covers.exists_root spells
  have draws := covers.draws
  obtain ⟨depth, size⟩ : ∃ depth, parse.tree.size = depth + 2 := by
    have enough := draws.depicts.length_places_le draws.distinct
    have smaller := Outline.length_places_lt 0 name
      (List.mem_append_right before (List.mem_singleton_self (Outline.terminal here stream.eof)))
    rw [Outline.places_terminal, List.length_singleton] at smaller
    exact Nat.exists_eq_add_of_le' (by omega)
  have placed : stream.eof.conjured = false := by
    simp [Token.conjured, spells.index_eq stream.eof_mem]
  refine ⟨here, ?_⟩
  rw [ParseTree.locate, size, draws.locateBelow_last spells placed under ?_ depth, Option.getD_some]
  intro child member token listed
  have visible := seen child member token listed
  have known := (List.mem_filter.1 visible).1
  have none := clear token visible
  refine ⟨?_, none⟩
  have bound := spells.position_le_eof known
  have different : token.position ≠ stream.eof.position := by
    intro same
    rw [spells.eq_of_position_eq known stream.eof_mem same, under] at none
    cases none
  omega

end Grammar.Covers

theorem TokenStream.Spells.exists_next {code : List Char} {stream : TokenStream} {token : Token}
    (spells : stream.Spells code) (member : token ∈ stream.tokens.toList)
    (inner : token ≠ stream.eof) :
    ∃ index behind, stream.tokens[index]? = some token ∧
      stream.tokens[index + 1]? = some behind ∧ behind ∈ stream.tokens.toList ∧
      behind.position = token.position + 1 := by
  obtain ⟨index, found, place⟩ := spells.exists_getElem? member
  have bound := spells.position_le_eof member
  have different : token.position ≠ stream.eof.position := fun same =>
    inner (spells.eq_of_position_eq member stream.eof_mem same)
  have inside : index + 1 < stream.tokens.size := by
    obtain ⟨last, found', place'⟩ := spells.exists_getElem? stream.eof_mem
    have less := (Array.getElem?_eq_some_iff.1 found').1
    omega
  have next : stream.tokens[index + 1]? = some stream.tokens[index + 1] :=
    Array.getElem?_eq_getElem inside
  refine ⟨index, _, found, next, Array.mem_toList_iff.2 (Array.mem_of_getElem? next), ?_⟩
  rw [place, Token.position, spells.indexed _ _ next, Option.getD_some]
  rfl

namespace Language

variable (language : Language) {text : String} {stream : TokenStream} {parse : Parse}
  {skipped gained : List Nat} {tree : SyntaxTree} {outline : Outline} {caret : Caret}

/-- A caret with a position is on a token that is no comment. -/
theorem exists_token_of_locate (tokenized : language.support.grammar.tokenize text = .ok stream)
    (covers : language.support.grammar.Covers stream parse skipped gained tree outline)
    {position : TokenPosition} (found : parse.tree.locate stream caret = .found position) :
    ∃ token ∈ stream.tokens.toList, token.covers caret.line caret.column = true ∧
      token.comment = false ∧ token.locatedAt caret position.context = .found position ∧
      parse.tree.StopsAt stream caret outline token position.context := by
  have spells := language.spells tokenized
  have answered := covers.draws.locate_cases covers.closed.place spells caret
  rw [found] at answered
  rcases answered with nowhere | answers
  · cases nowhere
  · obtain ⟨token, known, under, located, -, plain, stops⟩ := answers.exists_token spells
    refine ⟨token, known, under, ?_, located, stops⟩
    cases stops with
    | terminal _ member =>
        rw [Bool.eq_false_iff]
        intro comment
        exact covers.not_mem_streamed tokenized
          (language.hidden_of_comment tokenized known comment) member
    | between rule => exact plain rule

section AtComment

variable (tokenized : language.support.grammar.tokenize text = .ok stream)
  (covers : language.support.grammar.Covers stream parse skipped gained tree outline)
  {comment behind : Token} {offset : Nat} (addresses : caret.Addresses text.toList offset)
  (known : comment ∈ stream.tokens.toList) (marked : comment.comment = true)
  (after : comment.start < offset)

include tokenized covers addresses known marked after

theorem not_found_inside (before : offset < comment.stop) (position : TokenPosition) :
    parse.tree.locate stream caret ≠ .found position := by
  intro found
  obtain ⟨token, known', under, plain, -⟩ :=
    language.exists_token_of_locate tokenized covers found
  rw [(language.spells tokenized).eq_of_covers_inside addresses known known' after before under,
    marked] at plain
  cases plain

variable (ending : offset = comment.stop) (known' : behind ∈ stream.tokens.toList)
  (next : behind.position = comment.position + 1)

include ending known' next

theorem eq_behind_of_locate {position : TokenPosition}
    (found : parse.tree.locate stream caret = .found position) :
    behind.locatedAt caret position.context = .found position ∧
      parse.tree.StopsAt stream caret outline behind position.context := by
  have spells := language.spells tokenized
  obtain ⟨token, member, under, plain, located, stops⟩ :=
    language.exists_token_of_locate tokenized covers found
  rcases spells.eq_or_next_of_covers addresses known member after ending under with rfl | later
  · rw [marked] at plain
    cases plain
  · obtain rfl := spells.eq_of_position_eq member known' (by omega)
    exact ⟨located, stops⟩

/-- With a hidden token behind it, the end of a comment on one line is as silent as its inside. -/
theorem not_found_before_hidden (flat : '\n' ∉ comment.text.toList)
    (hidden : behind.hidden = true) (position : TokenPosition) :
    parse.tree.locate stream caret ≠ .found position := by
  intro found
  have spells := language.spells tokenized
  obtain ⟨-, stops⟩ := language.eq_behind_of_locate tokenized covers addresses known marked
    after ending known' next found
  cases stops with
  | terminal _ member => exact covers.not_mem_streamed tokenized hidden member
  | @between _ first _ member _ above below least =>
      have different : first.position ≠ behind.position := by
        intro same
        rw [spells.eq_of_position_eq (covers.draws.members first member) known' same] at member
        exact covers.not_mem_streamed tokenized hidden member
      have under : comment.covers caret.line caret.column = true := by
        rw [Token.stop] at ending
        refine addresses.covers_of_flat (spells.stands _ known) ending.symm (Nat.le_refl _) ?_
        rwa [List.take_length]
      have bound := least comment known (by omega) (by omega) under
      omega

/-- A terminal behind a comment has the caret at the comment's end, if it is the end token or no
trial of the parser has left a trace. -/
theorem exists_locate_behind (under : behind.covers caret.line caret.column = true)
    (shown : behind.hidden = false) (whole : behind = stream.eof ∨ tree.indices = gained) :
    ∃ context, parse.tree.locate stream caret = behind.locatedAt caret context := by
  have spells := language.spells tokenized
  have only : ∀ token ∈ stream.tokens.toList, token.hidden = false →
      token.covers caret.line caret.column = true → token = behind := by
    intro token member shown' under'
    rcases spells.eq_or_next_of_covers addresses known member after ending under' with rfl | later
    · rw [language.hidden_of_comment tokenized known marked] at shown'
      cases shown'
    · exact spells.eq_of_position_eq member known' (by omega)
  rcases whole with rfl | same
  · refine covers.exists_locate_eof spells under ?_
    intro token visible
    obtain ⟨shown', inner⟩ := TokenStream.shown_of_mem_visible visible
    rw [Bool.eq_false_iff]
    intro under'
    exact inner (only token (List.mem_filter.1 visible).1 shown' under')
  · have leftmost : stream.terminals.find? (·.covers caret.line caret.column) = some behind := by
      rw [Token.find?_eq_some_iff_least
        (spells.pairwise_position.sublist stream.terminals_sublist)]
      refine ⟨spells.mem_terminals known' shown, under, ?_⟩
      intro token listed under'
      have shown' : token.hidden = false := by
        rcases List.mem_append.1 listed with visible | ending
        · exact (TokenStream.shown_of_mem_visible visible).1
        · rw [List.mem_singleton.1 ending, (Grammar.eof_of_tokenize tokenized).2.1]
      rw [only token (stream.terminals_sublist.subset listed) shown' under']
    obtain ⟨node, -, -, located⟩ := (covers.holds spells same).exists_locate_terminal spells leftmost
    exact ⟨node, located⟩

end AtComment

/-- The suggestions are those at the start of the token, with nothing typed. -/
def SuggestsBefore (matcher : Matcher) (stream : TokenStream) (tree : ParseTree) (caret : Caret)
    (token : Token) (completion : Completion) : Prop :=
  ∃ context here, tree.locate stream caret = .found ⟨token.position, context, ""⟩ ∧
    language.support.suggestAt matcher stream tree caret ⟨token.position, context, ""⟩ =
      .ok here ∧ completion.suggestions = here.suggestions

/-- There are no suggestions between two characters of a comment.  At its end there are none if the
next token is hidden and the comment is on one line; else there are none or those at the start of
the next token.  They are given there if that token is the end token, or if it is visible and no
trial of the parser has left a trace. -/
theorem suggest_in_comment (language : Language) (matcher : Matcher) (text : String) :
    ∃ stream parse, language.support.grammar.tokenize text = .ok stream ∧
      language.support.grammar.parse stream = .ok parse ∧
      ∀ comment ∈ stream.tokens.toList, comment.comment = true →
        ∀ (caret : Caret) (offset : Nat), caret.Addresses text.toList offset →
          comment.start < offset → offset ≤ comment.stop →
          ∃ behind ∈ stream.tokens.toList, behind.position = comment.position + 1 ∧
            ∃ completion, ({ language, matcher } : Engine).suggest text caret = .ok completion ∧
              (offset < comment.stop → completion.suggestions = []) ∧
              (offset = comment.stop → '\n' ∉ comment.text.toList → behind.hidden = true →
                completion.suggestions = []) ∧
              (offset = comment.stop → completion.suggestions = [] ∨
                language.SuggestsBefore matcher stream parse.tree caret behind completion) ∧
              (offset = comment.stop → behind.hidden = false →
                behind = stream.eof ∨ language.support.grammar.undisturbed stream.visiblePlaced
                  .initial = true →
                language.SuggestsBefore matcher stream parse.tree caret behind completion) := by
  obtain ⟨stream, tokenized, indexed⟩ := language.tokenizes text
  obtain ⟨parse, _, _, _, outline, parsed, covers, traceless⟩ := language.exists_covers tokenized
  obtain ⟨byType, rendered⟩ := language.exists_byType
  have spells := language.spells tokenized
  refine ⟨stream, parse, tokenized, parsed, ?_⟩
  intro comment known marked caret offset addresses after before
  have inner : comment ≠ stream.eof := by
    intro same
    rw [same, (Grammar.eof_of_tokenize tokenized).2.2] at marked
    cases marked
  obtain ⟨index, behind, found, found', known', next⟩ := spells.exists_next known inner
  have start := language.start_eq_stop tokenized found found'
  obtain ⟨completion, suggested, answer⟩ :=
    LanguageSupport.exists_suggest rendered tokenized parsed matcher caret
  have silent : (∀ position, parse.tree.locate stream caret ≠ .found position) →
      completion.suggestions = [] := by
    intro never
    cases located : (parse.tree.locate stream caret).position? with
    | none => simpa only [located] using answer
    | some position => exact absurd (Located.eq_found_of_position? located) (never position)
  have spoken : offset = comment.stop → ∀ context,
      parse.tree.locate stream caret = behind.locatedAt caret context →
      language.SuggestsBefore matcher stream parse.tree caret behind completion := by
    intro ending context located
    rw [addresses.locatedAt_start (spells.stands _ known') (spells.index_eq known')
      (start.trans ending.symm)] at located
    rw [located] at answer
    obtain ⟨here, made, same⟩ := answer
    exact ⟨context, here, located, made, same⟩
  refine ⟨behind, known', next, completion, suggested, ?_, ?_, ?_, ?_⟩
  · intro inside
    exact silent (language.not_found_inside tokenized covers addresses known marked after inside)
  · intro ending flat hidden
    exact silent (language.not_found_before_hidden tokenized covers addresses known marked after
      ending known' next flat hidden)
  · intro ending
    by_cases found : ∃ position, parse.tree.locate stream caret = .found position
    · obtain ⟨position, found⟩ := found
      obtain ⟨same, -⟩ := language.eq_behind_of_locate tokenized covers addresses known marked
        after ending known' next found
      exact .inr (spoken ending position.context (found.trans same.symm))
    · exact .inl (silent (not_exists.1 found))
  · intro ending shown whole
    have under := addresses.covers_of_start (spells.stands _ known') (start.trans ending.symm)
    obtain ⟨context, located⟩ := language.exists_locate_behind tokenized covers addresses known
      marked after ending known' next under shown (whole.imp_right traceless.2)
    exact spoken ending context located

end Language

end Typeahead
