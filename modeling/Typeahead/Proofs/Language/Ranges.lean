import Typeahead.Proofs.Language.Comments

namespace Typeahead

/-!
Carets on tokens that are no comments.  The end token closes the range of the root, but nothing
opens it: the range begins with the first terminal of the stream.  So a caret has a position just if
a token under it stands at a terminal or behind one.  What is hidden in front of the first terminal
is in no range.
-/

namespace Grammar.Covers

variable {grammar : Grammar} {text : String} {stream : TokenStream} {parse : Parse}
  {skipped gained : List Nat} {tree : SyntaxTree} {outline : Outline} {caret : Caret}
  {token first : Token} (covers : grammar.Covers stream parse skipped gained tree outline)
  (spells : stream.Spells text.toList)

include covers spells

theorem head_le (heading : outline.streamed.head? = some first)
    (listed : token ∈ stream.terminals) : first.position ≤ token.position := by
  have member := (covers.mem_streamed_iff spells).2 listed
  have known := covers.draws.members token member
  have known' := covers.draws.members first (List.mem_of_head? heading)
  have least : outline.indices.head? = some first.position := by
    rw [Outline.indices, Token.head?_filterMap_index, ← Outline.streamed, heading]
    exact spells.index_eq known'
  have inside : token.position ∈ outline.indices :=
    List.mem_filterMap.2 ⟨token, (List.mem_filter.1 member).1, spells.index_eq known⟩
  exact covers.headed_indices spells.indexed _ least _ inside

theorem getLast?_streamed : outline.streamed.getLast? = some stream.eof := by
  obtain ⟨name, before, here, rfl, -⟩ := covers.exists_root spells
  have placed : stream.eof.conjured = false := by
    simp [Token.conjured, spells.index_eq stream.eof_mem]
  simp [Outline.streamed, placed]

/-- The root answers for every token under the caret at or behind a terminal. -/
theorem exists_locateBelow (known : token ∈ stream.tokens.toList)
    (under : token.covers caret.line caret.column = true) (listed : first ∈ stream.terminals)
    (above : first.position ≤ token.position) :
    ∃ located, parse.tree.locateBelow stream caret parse.tree.size 0 = some located := by
  have root := covers.draws.depicts.lt_size outline.place_mem_places
  obtain ⟨depth, size⟩ := Nat.exists_eq_add_of_le' (Nat.zero_lt_of_lt root)
  have ending := covers.getLast?_streamed spells
  cases heading : outline.streamed.head? with
  | none =>
      rw [List.head?_eq_none_iff.1 heading] at ending
      cases ending
  | some least =>
      have bound := covers.head_le spells heading listed
      obtain ⟨name, before, here, rfl, -⟩ := covers.exists_root spells
      rw [size]
      exact covers.draws.exists_locateBelow spells heading ending known under
        (Int.le_trans bound above) (spells.position_le_eof known) depth

end Grammar.Covers

namespace Language

/-- A caret on tokens that are no comments has a position just if one of them stands at a terminal
or behind one. -/
theorem exists_position_iff (language : Language) (text : String) :
    ∃ stream parse, language.support.grammar.tokenize text = .ok stream ∧
      language.support.grammar.parse stream = .ok parse ∧
      ∀ caret : Caret,
        (∀ token ∈ stream.tokens.toList, token.covers caret.line caret.column = true →
          token.comment = false) →
        ((∃ position, parse.tree.locate stream caret = .found position) ↔
          ∃ token ∈ stream.tokens.toList, token.covers caret.line caret.column = true ∧
            ∃ first ∈ stream.terminals, first.position ≤ token.position) := by
  obtain ⟨stream, tokenized, indexed⟩ := language.tokenizes text
  obtain ⟨parse, _, _, _, outline, parsed, covers, -⟩ := language.exists_covers tokenized
  have spells := language.spells tokenized
  refine ⟨stream, parse, tokenized, parsed, ?_⟩
  intro caret plain
  constructor
  · intro found
    obtain ⟨position, found⟩ := found
    obtain ⟨token, known, under, -, -, stops⟩ :=
      language.exists_token_of_locate tokenized covers found
    refine ⟨token, known, under, ?_⟩
    cases stops with
    | terminal _ member =>
        exact ⟨token, (covers.mem_streamed_iff spells).1 member, Int.le_refl _⟩
    | between _ member _ above _ _ =>
        exact ⟨_, (covers.mem_streamed_iff spells).1 member, above⟩
  · intro standing
    obtain ⟨token, known, under, first, listed, above⟩ := standing
    obtain ⟨located, found⟩ := covers.exists_locateBelow spells known under listed above
    have answers : parse.tree.Answers stream caret outline located :=
      covers.draws.answers spells (covers.closed.place ▸ found)
    obtain ⟨position, rfl⟩ := answers.exists_found spells plain
    exact ⟨position, by rw [ParseTree.locate, found, Option.getD_some]⟩

end Language

end Typeahead
