import Typeahead.Proofs.ParseTree.Locating

namespace Typeahead

/-!
Where the search for a caret stops, in a tree that may have its tokens in any order and more than
once.  The answer is a terminal of the tree under the caret, or else the first token under the caret
between the first and the last token of a rule.
-/

namespace ParseTree

variable {code : List Char} {tree : ParseTree} {stream : TokenStream} {outline : Outline}
  {caret : Caret} {located : Located}

/-- The tree depicts the outline, and its tokens are made up or are those of the stream. -/
structure Draws (tree : ParseTree) (stream : TokenStream) (outline : Outline) : Prop where
  depicts : tree.Depicts outline
  distinct : outline.places.Nodup
  members : ∀ token ∈ outline.streamed, token ∈ stream.tokens.toList

theorem Draws.child {child : Outline} {place : Nat} {name : String} {children : List Outline}
    (draws : tree.Draws stream (.rule place name children)) (member : child ∈ children) :
    tree.Draws stream child where
  depicts := draws.depicts.child member
  distinct := nodup_places_of_mem draws.distinct member
  members := fun token inside =>
    draws.members token (Outline.streamed_subset member place name inside)

theorem Draws.ends_of_tokenRange? (draws : tree.Draws stream outline) {first last : Token}
    (range : tree.tokenRange? outline.place = some (first, last)) :
    outline.streamed.head? = some first ∧ outline.streamed.getLast? = some last := by
  rw [draws.depicts.tokenRange?_eq draws.distinct] at range
  obtain ⟨_, heading, rest⟩ := Option.bind_eq_some_iff.1 range
  obtain ⟨_, ending, same⟩ := Option.map_eq_some_iff.1 rest
  obtain ⟨rfl, rfl⟩ := Prod.mk.inj same
  exact ⟨heading, ending⟩

/-- The search stops at the token, with `node` as the node that holds the caret. -/
inductive StopsAt (tree : ParseTree) (stream : TokenStream) (caret : Caret) (outline : Outline)
    (token : Token) (node : Nat) : Prop where
  | terminal (own : tree.token? node = some token) (member : token ∈ outline.streamed)
  | between (rule : tree.token? node = none) {first last : Token}
      (member : first ∈ outline.streamed) (member' : last ∈ outline.streamed)
      (above : first.position ≤ token.position) (below : token.position ≤ last.position)
      (least : ∀ other ∈ stream.tokens.toList, first.position ≤ other.position →
        other.position ≤ last.position → other.covers caret.line caret.column = true →
        token.position ≤ other.position)

theorem StopsAt.mono {inner : Outline} {token : Token} {node : Nat}
    (stops : tree.StopsAt stream caret inner token node)
    (part : inner.streamed ⊆ outline.streamed) : tree.StopsAt stream caret outline token node := by
  cases stops with
  | terminal own member => exact .terminal own (part member)
  | between rule member member' above below least =>
      exact .between rule (part member) (part member') above below least

/-- What the search can answer: the token at which it stops, unless that is a comment between two
terminals. -/
inductive Answers (tree : ParseTree) (stream : TokenStream) (caret : Caret) (outline : Outline) :
    Located → Prop where
  | inComment {token : Token} {node : Nat} (known : token ∈ stream.tokens.toList)
      (covers : token.covers caret.line caret.column = true) (comment : token.comment = true)
      (stops : tree.StopsAt stream caret outline token node) :
      Answers tree stream caret outline .inComment
  | onToken {token : Token} {node : Nat} (known : token ∈ stream.tokens.toList)
      (covers : token.covers caret.line caret.column = true)
      (plain : tree.token? node = none → token.comment = false)
      (stops : tree.StopsAt stream caret outline token node) :
      Answers tree stream caret outline (token.locatedAt caret node)

theorem Answers.mono {inner : Outline} (answers : tree.Answers stream caret inner located)
    (part : inner.streamed ⊆ outline.streamed) : tree.Answers stream caret outline located := by
  cases answers with
  | inComment known covers comment stops => exact .inComment known covers comment (stops.mono part)
  | onToken known covers plain stops => exact .onToken known covers plain (stops.mono part)

theorem answers_of_locateInRange (spells : stream.Spells code)
    (members : ∀ token ∈ outline.streamed, token ∈ stream.tokens.toList) {node : Nat}
    (rule : tree.token? node = none) {first last : Token} (member : first ∈ outline.streamed)
    (member' : last ∈ outline.streamed)
    (found : locateInRange stream caret node first last = some located) :
    tree.Answers stream caret outline located := by
  have known := members first member
  have known' := members last member'
  unfold locateInRange at found
  simp only at found
  split at found
  · cases found
  · rename_i token leftmost
    obtain ⟨inside, covers, least⟩ := (Token.find?_eq_some_iff_least (spells.pairwise_between _ _)).1 leftmost
    obtain ⟨shown, above, below⟩ := (spells.mem_between known known').1 inside
    obtain rfl := Option.some.inj found
    have stops : tree.StopsAt stream caret outline token node := by
      refine .between rule member member' above below ?_
      intro other inside' above' below'
      exact least other ((spells.mem_between known known').2 ⟨inside', above', below'⟩)
    split
    · rename_i comment
      exact .inComment shown covers comment stops
    · rename_i plain
      exact .onToken shown covers (fun _ => Bool.eq_false_iff.2 plain) stops

theorem Draws.answers (draws : tree.Draws stream outline) (spells : stream.Spells code)
    {depth : Nat} (found : tree.locateBelow stream caret depth outline.place = some located) :
    tree.Answers stream caret outline located := by
  induction depth generalizing outline located with
  | zero => cases found
  | succ depth ih =>
      cases outline with
      | terminal place token =>
          have own : tree.token? place = some token := draws.depicts.token?_eq
          rw [Outline.place, locateBelow, own] at found
          simp only at found
          split at found
          · rename_i under
            obtain ⟨placed, covers⟩ := Bool.and_eq_true_iff.1 under
            obtain rfl := Option.some.inj found
            have member : token ∈ (Outline.terminal place token).streamed := by
              simpa [Outline.streamed] using placed
            refine .onToken (draws.members token member) covers ?_ (.terminal own member)
            intro none
            rw [own] at none
            cases none
          · cases found
      | rule place name children =>
          have own : tree.token? place = none := draws.depicts.token?_eq
          -- a child answers, or else the rule itself
          have below : (children.findSome? fun child =>
              tree.locateBelow stream caret depth child.place) = some located →
              tree.Answers stream caret (.rule place name children) located := by
            intro found
            obtain ⟨child, member, found⟩ := List.exists_of_findSome?_eq_some found
            exact (ih (draws.child member) found).mono
              (Outline.streamed_subset member place name)
          rw [Outline.place, draws.depicts.locateBelow_rule] at found
          cases range : tree.tokenRange? place with
          | none =>
              rw [range] at found
              exact below found
          | some ends =>
              obtain ⟨first, last⟩ := ends
              rw [range] at found
              simp only at found
              split at found
              · cases found
              · rcases Option.or_eq_some_iff.1 found with inside | ⟨-, here⟩
                · exact below inside
                · obtain ⟨heading, ending⟩ := draws.ends_of_tokenRange? range
                  exact answers_of_locateInRange spells draws.members own
                    (List.mem_of_head? heading) (List.mem_of_getLast? ending) here

/-- A rule has an answer if its terminals stand on both sides of a token under the caret. -/
theorem Draws.exists_locateBelow {place : Nat} {name : String} {children : List Outline}
    {first last token : Token} (draws : tree.Draws stream (.rule place name children))
    (spells : stream.Spells code)
    (heading : (Outline.rule place name children).streamed.head? = some first)
    (ending : (Outline.rule place name children).streamed.getLast? = some last)
    (known : token ∈ stream.tokens.toList)
    (under : token.covers caret.line caret.column = true)
    (above : first.position ≤ token.position) (below : token.position ≤ last.position)
    (depth : Nat) : ∃ located, tree.locateBelow stream caret (depth + 1) place = some located := by
  have member := draws.members first (List.mem_of_head? heading)
  have member' := draws.members last (List.mem_of_getLast? ending)
  have range := draws.depicts.tokenRange?_eq draws.distinct
  rw [heading, ending, Option.bind_some, Option.map_some, Outline.place] at range
  rw [draws.depicts.locateBelow_rule, range]
  simp only [if_neg (spells.not_outside member member' known above below under)]
  cases children.findSome? fun child => tree.locateBelow stream caret depth child.place with
  | some located => exact ⟨located, rfl⟩
  | none => exact spells.exists_locateInRange member member' known above below under place

/-- With a token behind it under the caret, a part of the tree with no terminal under the caret has
no answer. -/
theorem Draws.locateBelow_eq_none (draws : tree.Draws stream outline) (spells : stream.Spells code)
    {behind : Token} (known : behind ∈ stream.tokens.toList)
    (under : behind.covers caret.line caret.column = true)
    (before : ∀ token ∈ outline.streamed, token.position < behind.position)
    (clear : ∀ token ∈ outline.streamed, token.covers caret.line caret.column = false)
    (depth : Nat) : tree.locateBelow stream caret depth outline.place = none := by
  have never : ∀ token ∈ stream.tokens.toList, token.covers caret.line caret.column = true →
      ∀ node, ¬tree.StopsAt stream caret outline token node := by
    intro token known' covers node stops
    cases stops with
    | terminal _ member => simp [clear token member] at covers
    | @between _ _ last _ member _ below _ =>
        have known'' := draws.members last member
        have different : token.position ≠ last.position := by
          intro same
          rw [spells.eq_of_position_eq known' known'' same, clear last member] at covers
          cases covers
        have none := spells.not_covers_of_between known' known'' known (by omega)
          (before last member) covers
        simp [under] at none
  cases found : tree.locateBelow stream caret depth outline.place with
  | none => rfl
  | some located =>
      cases draws.answers spells found with
      | inComment known covers _ stops => exact absurd stops (never _ known covers _)
      | onToken known covers _ stops => exact absurd stops (never _ known covers _)

/-- A terminal under the caret is found at the end of a rule if the tokens of the rule in front of
it are not under the caret, in whatever order they stand. -/
theorem Draws.locateBelow_last {place here : Nat} {name : String} {before : List Outline}
    {behind : Token} (draws : tree.Draws stream (.rule place name
      (before ++ [.terminal here behind])))
    (spells : stream.Spells code) (placed : behind.conjured = false)
    (under : behind.covers caret.line caret.column = true)
    (earlier : ∀ child ∈ before, ∀ token ∈ child.streamed,
      token.position < behind.position ∧ token.covers caret.line caret.column = false)
    (depth : Nat) :
    tree.locateBelow stream caret (depth + 2) place = some (behind.locatedAt caret here) := by
  have own := draws.child (List.mem_append_right before List.mem_cons_self)
  have listed : behind ∈ (Outline.terminal here behind).streamed := by
    simp [Outline.streamed, placed]
  have known := own.members behind listed
  have terminal : tree.token? here = some behind := own.depicts.token?_eq
  have nothing : (before.findSome? fun child =>
      tree.locateBelow stream caret (depth + 1) child.place) = none := by
    rw [List.findSome?_eq_none_iff]
    intro child member
    exact (draws.child (List.mem_append_left _ member)).locateBelow_eq_none spells known under
      (fun token inside => (earlier child member token inside).1)
      (fun token inside => (earlier child member token inside).2) _
  have found : ((before ++ [Outline.terminal here behind]).findSome? fun child =>
      tree.locateBelow stream caret (depth + 1) child.place) =
        some (behind.locatedAt caret here) := by
    rw [List.findSome?_append, nothing, Option.none_or, List.findSome?_singleton, Outline.place,
      locateBelow, terminal]
    exact if_pos (by simp [placed, under])
  rw [draws.depicts.locateBelow_rule, found]
  cases range : tree.tokenRange? place with
  | none => rfl
  | some ends =>
      obtain ⟨first, last⟩ := ends
      obtain ⟨heading, ending⟩ := draws.ends_of_tokenRange? range
      have member := List.mem_of_head? heading
      have split : (Outline.rule place name (before ++ [.terminal here behind])).streamed =
          before.flatMap Outline.streamed ++ [behind] := by
        rw [Outline.streamed_rule, List.flatMap_append, List.flatMap_singleton]
        simp [Outline.streamed, placed]
      rw [split, List.getLast?_concat] at ending
      obtain rfl := Option.some.inj ending
      have above : first.position ≤ behind.position := by
        rw [split, List.mem_append, List.mem_flatMap, List.mem_singleton] at member
        rcases member with ⟨child, inside, listed⟩ | rfl
        · exact Int.le_of_lt (earlier child inside first listed).1
        · exact Int.le_refl _
      exact if_neg (spells.not_outside (draws.members first member) known known above
        (Int.le_refl _) under)

/-- Whatever the order of the tree, a caret is on no token, in a comment, or on a token of the
stream that is under it. -/
theorem Draws.locate_cases (draws : tree.Draws stream outline) (root : outline.place = 0)
    (spells : stream.Spells code) (caret : Caret) :
    tree.locate stream caret = .nowhere ∨
      tree.Answers stream caret outline (tree.locate stream caret) := by
  unfold locate
  cases found : tree.locateBelow stream caret tree.size 0 with
  | none => exact .inl rfl
  | some located =>
      rw [← root] at found
      exact .inr (draws.answers spells found)

namespace Answers

variable (spells : stream.Spells code)

include spells

theorem ne_unplaced (answers : tree.Answers stream caret outline located) :
    located ≠ .unplaced := by
  cases answers with
  | inComment => exact Located.noConfusion
  | onToken known _ _ _ =>
      rw [Token.locatedAt, spells.index_eq known]
      exact Located.noConfusion

theorem exists_found (answers : tree.Answers stream caret outline located)
    (plain : ∀ token ∈ stream.tokens.toList, token.covers caret.line caret.column = true →
      token.comment = false) : ∃ position, located = .found position := by
  cases answers with
  | inComment known covers comment _ =>
      rw [plain _ known covers] at comment
      cases comment
  | onToken known _ _ _ =>
      rw [Token.locatedAt, spells.index_eq known]
      exact ⟨_, rfl⟩

theorem exists_token {position : TokenPosition}
    (answers : tree.Answers stream caret outline (.found position)) :
    ∃ token ∈ stream.tokens.toList, token.covers caret.line caret.column = true ∧
      token.locatedAt caret position.context = .found position ∧
      position.index = token.position ∧
      (tree.token? position.context = none → token.comment = false) ∧
      tree.StopsAt stream caret outline token position.context := by
  generalize same : Located.found position = located at answers
  cases answers with
  | inComment => cases same
  | @onToken token node known covers plain stops =>
      have found := same
      rw [Token.locatedAt, spells.index_eq known] at found
      obtain rfl := Located.found.inj found
      exact ⟨token, known, covers, rfl, rfl, plain, stops⟩

end Answers

end ParseTree

end Typeahead
