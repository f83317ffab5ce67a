import Typeahead.Completion
import Typeahead.Proofs.Language.Sound
import Typeahead.Proofs.Parsing.Closing
import Typeahead.Proofs.Parsing.Deriving
import Typeahead.Proofs.Parsing.Disturbance

namespace Typeahead.Language

/-! The trees of texts. -/

theorem sound (language : Language) : language.support.grammar.Sound := by
  cases language with
  | structurizr => exact Architecture.sound_grammar
  | kotlin => exact Script.sound_grammar

theorem tokenizes (language : Language) (text : String) :
    ∃ stream, language.support.grammar.tokenize text = .ok stream ∧ stream.Indexed := by
  cases language with
  | structurizr => exact Architecture.exists_tokenize text
  | kotlin => exact Script.exists_tokenize text

theorem spells (language : Language) {text : String} {stream : TokenStream}
    (tokenized : language.support.grammar.tokenize text = .ok stream) :
    stream.Spells text.toList := by
  obtain ⟨stream', tokenized', indexed⟩ := language.tokenizes text
  obtain rfl := Except.ok.inj (tokenized'.symm.trans tokenized)
  refine Grammar.spells_of_tokenize indexed tokenized ?_
  intro lexemes read
  cases language with
  | structurizr => exact Architecture.written_lexemes read
  | kotlin => exact Script.written_lexemes read

/-- Every text has a tree with all its visible tokens.  Each terminal of the tree is the token of
the stream at its own position or was made up, and the end token is there once, as the root's last
child. -/
theorem exists_tree_covering (language : Language) (text : String) :
    ∃ stream parse, language.support.grammar.tokenize text = .ok stream ∧
      language.support.grammar.parse stream = .ok parse ∧
      (parse.tree.walk 0).Perm (List.range parse.tree.size) ∧
      (∀ token ∈ stream.visible, token ∈ parse.tree.tokens 0) ∧
      (∀ i token, parse.tree.token? i = some token →
        (∃ index : Nat, token.index = some (index : Int) ∧ stream.tokens[index]? = some token) ∨
          token.index = none ∧ token.text = "") ∧
      (parse.tree.tokens 0).count stream.eof = 1 ∧
      (parse.tree.children 0).getLast?.bind parse.tree.token? = some stream.eof := by
  obtain ⟨stream, tokenized, indexed⟩ := language.tokenizes text
  have traceable := (language.spells tokenized).traceable
  have standing := Grammar.standing_initial language.support.grammar
  obtain ⟨_, _, stepped, advances⟩ :=
    Grammar.exists_steps language.sound stream.visiblePlaced standing
  obtain ⟨_, _, _, passage, sublist, perm⟩ := advances.passage language.sound standing
  obtain ⟨parse, _, _, parsed, -, covers⟩ :=
    Grammar.exists_covers language.sound traceable stepped passage sublist perm
  refine ⟨stream, parse, tokenized, parsed, covers.closed.walk_perm,
    fun _ => covers.mem_tokens_of_mem_visible, ?_, covers.count_eof indexed,
    covers.closed.getLast?_children⟩
  intro i token found
  have inside : i < parse.tree.size := by
    obtain ⟨node, here, -⟩ := Option.bind_eq_some_iff.1 found
    exact (Array.getElem?_eq_some_iff.1 here).1
  have reached : i ∈ parse.tree.walk 0 :=
    covers.closed.walk_perm.symm.subset (List.mem_range.2 inside)
  have member : token ∈ parse.tree.tokens 0 := List.mem_filterMap.2 ⟨i, reached, found⟩
  rcases covers.mem_tokens_cases member with ⟨index, placed⟩ | bare
  · exact .inl ⟨index, indexed _ _ placed, placed⟩
  · exact .inr bare

/-- In the tree of a text no token of the stream stands twice just when no trial of the parser that
came to nothing has left a trace.  Just then the tokens stand in the order of the stream, with the
end token last. -/
theorem tokens_ordered_iff_undisturbed (language : Language) (text : String) :
    ∃ stream parse, language.support.grammar.tokenize text = .ok stream ∧
      language.support.grammar.parse stream = .ok parse ∧
      ((∀ token ∈ stream.tokens, (parse.tree.tokens 0).count token ≤ 1) ↔
        language.support.grammar.undisturbed stream.visiblePlaced .initial = true) ∧
      (((parse.tree.tokens 0).filterMap (·.index)).Pairwise (· < ·) ∧
          (parse.tree.tokens 0).getLast? = some stream.eof ↔
        language.support.grammar.undisturbed stream.visiblePlaced .initial = true) := by
  obtain ⟨stream, tokenized, indexed⟩ := language.tokenizes text
  have traceable := (language.spells tokenized).traceable
  have standing := Grammar.standing_initial language.support.grammar
  obtain ⟨_, _, stepped, advances⟩ :=
    Grammar.exists_steps language.sound stream.visiblePlaced standing
  obtain ⟨_, _, _, passage, sublist, perm, verdict⟩ :=
    advances.verdict language.sound standing List.Pairwise.nil (by intro value ending; cases ending)
  obtain ⟨parse, tree, _, parsed, finishes, covers⟩ :=
    Grammar.exists_covers language.sound traceable stepped passage sublist perm
  have exactly := verdict.indices_iff finishes
  refine ⟨stream, parse, tokenized, parsed, ?_, ?_⟩
  · rw [covers.count_le_one_iff indexed, exactly]
  · rw [covers.pairwise_indices_iff indexed, exactly]
    exact and_iff_left covers.closed.getLast?_tokens

/-- Every stream has a tree.  Where the parser takes all visible tokens and, with the terminals
`conjured` made up, reaches the end, the tree is that of a derivation of their names from the start,
with the end token behind it: the condensed derivation is laid out from place 0 on.  Its terminals
are traced back to the stream; in a text each has the token at its own position. -/
theorem tree_condenses_derivation (language : Language) (stream : TokenStream) :
    ∃ parse, language.support.grammar.parse stream = .ok parse ∧
      ∀ conjured : List String, parse.repairs = conjured.map .closed →
        ∃ (full : SyntaxTree) (children : List SyntaxTree),
          language.support.grammar.Completes (language.support.grammar.leafName stream)
            (stream.leavesWith conjured) (.node language.support.grammar.table.start children)
            full ∧
          (full.derivation (language.support.grammar.leafName stream)).frontier =
            stream.visible.map language.support.grammar.terminalOf ++ conjured ∧
          parse.tree.size = SyntaxTree.sizes children + 2 ∧
          parse.tree.Depicts (.rule 0 language.support.grammar.table.start
            (SyntaxTree.outlines (language.support.grammar.tracedToken stream []) 1 children ++
              [.terminal (SyntaxTree.sizes children + 1) stream.eof])) ∧
          ∀ text, language.support.grammar.tokenize text = .ok stream →
            parse.tree.Depicts (.rule 0 language.support.grammar.table.start
              (SyntaxTree.outlines (stream.leafToken language.support.grammar.vocabulary) 1
                  children ++
                [.terminal (SyntaxTree.sizes children + 1) stream.eof])) := by
  obtain ⟨parse, _, _, parsed, -⟩ := Grammar.exists_parse language.sound stream
  refine ⟨parse, parsed, ?_⟩
  intro conjured closed
  obtain ⟨full, children, completes, tree⟩ :=
    Grammar.exists_completes language.sound parsed closed
  have frontier := SyntaxTree.frontier_derivation
    (language.support.grammar.leafName stream) full
  rw [completes.leaves, Grammar.map_leafName_leavesWith] at frontier
  obtain ⟨size, depicts⟩ := ParseTree.depicts_ofLeaves
    (language.support.grammar.tracedToken stream []) stream.eof
    language.support.grammar.table.start children
  have traced : parse.tree = .ofLeaves (language.support.grammar.tracedToken stream []) stream.eof
      [] (.node language.support.grammar.table.start children) := tree
  refine ⟨full, children, completes, frontier, traced ▸ size, traced ▸ depicts, ?_⟩
  intro text tokenized
  have traceable := (language.spells tokenized).traceable
  have same : ∀ leaf ∈ (SyntaxTree.node language.support.grammar.table.start children).leaves,
      language.support.grammar.tracedToken stream [] leaf =
        stream.leafToken language.support.grammar.vocabulary leaf := by
    intro leaf member
    apply Grammar.tracedToken_eq_leafToken traceable
    intro index own
    rw [completes.condensed, SyntaxTree.leaves_condense, completes.leaves] at member
    exact ⟨TokenStream.index_visible_of_mem_leavesWith member own, List.not_mem_nil⟩
  rw [traced, ParseTree.ofLeaves_congr same]
  exact (ParseTree.depicts_ofLeaves _ stream.eof _ children).2

open Architecture.Extending in
theorem tree_condenses_begun :
    Architecture.grammar.tokenize "workspace extends" = .ok begun ∧
      ∃ parse, Architecture.grammar.parse begun = .ok parse ∧
        parse.repairs = ["STRING", "LBRACE", "RBRACE"].map .closed ∧
        ∃ (full : SyntaxTree) (children : List SyntaxTree),
          Architecture.grammar.Completes (Architecture.grammar.leafName begun)
            (begun.leavesWith ["STRING", "LBRACE", "RBRACE"])
            (.node Architecture.startRule children) full ∧
          (full.derivation (Architecture.grammar.leafName begun)).frontier =
            ["WORKSPACE", "EXTENDS", "STRING", "LBRACE", "RBRACE"] ∧
          parse.tree.Depicts (.rule 0 Architecture.startRule
            (SyntaxTree.outlines (begun.leafToken Architecture.grammar.vocabulary) 1 children ++
              [.terminal (SyntaxTree.sizes children + 1) begun.eof])) := by
  have tokenized : Architecture.grammar.tokenize "workspace extends" = .ok begun := rfl
  obtain ⟨parser, last, stepped, conjures, ready⟩ := exists_conjures_begun
  have sound := Architecture.sound_grammar
  obtain ⟨tree, accepts⟩ := ready.exists_accepts sound.unread sound.start_ne 3
  have finished : Architecture.grammar.finish 3 parser =
      .ok (tree, ["STRING", "LBRACE", "RBRACE"].map .closed) :=
    conjures.finish (show 29 + 3 = Grammar.maxRepairs from rfl)
      (Grammar.finishWithin_of_accepts 28 ready accepts)
  obtain ⟨parse, parsed, condenses⟩ := tree_condenses_derivation .structurizr begun
  have repairs : parse.repairs = ["STRING", "LBRACE", "RBRACE"].map .closed := by
    have made : Architecture.grammar.parse begun = .ok parse := parsed
    have finished' : Architecture.grammar.finish (begun.size - 1) parser =
      .ok (tree, ["STRING", "LBRACE", "RBRACE"].map .closed) := finished
    simp only [Grammar.parse, stepped, Grammar.ok_bind, finished'] at made
    exact congrArg Parse.repairs (Except.ok.inj made).symm
  obtain ⟨full, children, completes, frontier, -, -, depicts⟩ := condenses _ repairs
  exact ⟨tokenized, parse, parsed, repairs, full, children, completes, frontier,
    depicts _ tokenized⟩

end Typeahead.Language
