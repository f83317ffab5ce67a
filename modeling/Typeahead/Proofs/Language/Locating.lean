import Typeahead.Proofs.Language.Trees
import Typeahead.Proofs.ParseTree.Stacked

namespace Typeahead

/-!
The token under a caret, told without the search.  The leftmost terminal under the caret is the
answer; where there is none, the leftmost hidden token behind the first visible one is, unless it is
a comment.  The tree decides only which node goes with the answer.
-/

namespace TokenStream

variable {code : List Char} {stream : TokenStream} {token : Token}

/-- The tokens that stand in a tree. -/
def terminals (stream : TokenStream) : List Token := stream.visible ++ [stream.eof]

/-- The hidden tokens behind the first visible one. -/
def gaps (stream : TokenStream) : List Token :=
  (stream.tokens.toList.dropWhile (!·.isVisible)).filter (·.hidden)

theorem exists_toList_eq (stream : TokenStream) :
    ∃ front, stream.tokens.toList = front ++ [stream.eof] := by
  have last := stream.getElem?_eof
  rw [← Array.getElem?_toList, size, ← Array.length_toList, ← List.getLast?_eq_getElem?] at last
  exact List.getLast?_eq_some_iff.1 last

theorem terminals_sublist (stream : TokenStream) :
    stream.terminals.Sublist stream.tokens.toList := by
  obtain ⟨front, tokens⟩ := stream.exists_toList_eq
  have ending : stream.eof.isVisible = false := by simp [Token.isVisible, stream.type_eof]
  have shown : stream.visible = front.filter Token.isVisible := by
    simp [visible, tokens, ending]
  rw [terminals, shown, tokens]
  exact List.filter_sublist.append_right _

theorem gaps_sublist (stream : TokenStream) : stream.gaps.Sublist stream.tokens.toList :=
  List.filter_sublist.trans (List.dropWhile_sublist _)

namespace Spells

variable (spells : stream.Spells code)

include spells

theorem mem_terminals (member : token ∈ stream.tokens.toList) (shown : token.hidden = false) :
    token ∈ stream.terminals := by
  rw [terminals, List.mem_append, List.mem_singleton]
  by_cases ending : token = stream.eof
  · exact .inr ending
  · refine .inl (List.mem_filter.2 ⟨member, ?_⟩)
    simp [Token.isVisible, shown, spells.typed token member ending]

theorem mem_gaps_iff : token ∈ stream.gaps ↔
    token ∈ stream.tokens.toList ∧ token.hidden = true ∧
      ∃ first ∈ stream.visible, first.position ≤ token.position := by
  have ordered := spells.pairwise_position
  rw [← List.takeWhile_append_dropWhile (p := (!·.isVisible)) (l := stream.tokens.toList),
    List.pairwise_append] at ordered
  obtain ⟨-, behind, across⟩ := ordered
  rw [gaps, List.mem_filter]
  constructor
  · intro found
    obtain ⟨inside, hidden⟩ := found
    have member := (List.dropWhile_sublist _).subset inside
    refine ⟨member, hidden, ?_⟩
    cases rest : stream.tokens.toList.dropWhile (!·.isVisible) with
    | nil =>
        rw [rest] at inside
        cases inside
    | cons first later =>
        have shown : first.isVisible = true := by
          have stopped := List.head?_dropWhile_not (!·.isVisible) stream.tokens.toList
          rw [rest] at stopped
          simpa using stopped
        have known : first ∈ stream.tokens.toList :=
          (List.dropWhile_sublist _).subset (rest ▸ List.mem_cons_self)
        refine ⟨first, List.mem_filter.2 ⟨known, shown⟩, ?_⟩
        rw [rest] at inside behind
        rcases List.mem_cons.1 inside with rfl | further
        · exact Int.le_refl _
        · exact Int.le_of_lt (List.rel_of_pairwise_cons behind further)
  · intro found
    obtain ⟨member, hidden, first, shown, bound⟩ := found
    obtain ⟨known, visible⟩ := List.mem_filter.1 shown
    refine ⟨?_, hidden⟩
    rw [← List.takeWhile_append_dropWhile (p := (!·.isVisible)) (l := stream.tokens.toList),
      List.mem_append] at member known
    rcases known with early | late
    · have invisible := List.all_eq_true.1 List.all_takeWhile first early
      simp [visible] at invisible
    · refine member.resolve_left ?_
      intro early
      have less := across token early first late
      omega

/-- The first and the last terminal stand around the terminals and the gaps, and around no other
token. -/
theorem spans_iff {outline : Outline} (same : outline.streamed = stream.terminals)
    (member : token ∈ stream.tokens.toList) :
    outline.Spans token ↔ token ∈ stream.terminals ∨ token ∈ stream.gaps := by
  rw [Outline.Spans, same]
  constructor
  · intro spans
    obtain ⟨first, here, -, -, above, -⟩ := spans
    cases hidden : token.hidden with
    | false => exact .inl (spells.mem_terminals member hidden)
    | true =>
        rcases List.mem_append.1 here with shown | ending
        · exact .inr (spells.mem_gaps_iff.2 ⟨member, hidden, first, shown, above⟩)
        · obtain rfl := List.mem_singleton.1 ending
          have bound := spells.position_le_eof member
          rw [spells.eq_of_position_eq member stream.eof_mem (by omega)]
          exact .inl (List.mem_append_right _ List.mem_cons_self)
  · intro either
    have ending : stream.eof ∈ stream.terminals := List.mem_append_right _ List.mem_cons_self
    have bound := spells.position_le_eof member
    rcases either with here | gap
    · exact ⟨token, here, stream.eof, ending, Int.le_refl _, bound⟩
    · obtain ⟨-, -, first, shown, above⟩ := spells.mem_gaps_iff.1 gap
      exact ⟨first, List.mem_append_left _ shown, stream.eof, ending, above, bound⟩

end Spells

end TokenStream

/-- The position tells the token's place in the stream, the node, and what the text has from the
start of the token to the caret. -/
structure TokenPosition.Marks (position : TokenPosition) (code : List Char) (caret : Caret)
    (token : Token) (node : Nat) : Prop where
  index : token.index = some position.index
  context : position.context = node
  text : ∃ offset : Nat,
    Text.Place.start.after (code.take offset) = ⟨offset, caret.line, caret.column⟩ ∧
      token.start ≤ offset ∧ position.text.toList = (code.take offset).drop token.start.toNat

/-- A caret under a token is so many characters behind its start as columns. -/
theorem Token.StandsBehind.after_take_of_covers {code front : List Char} {token : Token}
    {caret : Caret} {left : Nat} (stands : token.StandsBehind code front)
    (covers : token.covers caret.line caret.column = true)
    (part : (caret.column - token.column).toNat = left) :
    left ≤ token.text.toList.length ∧
      code.take (front.length + left) = front ++ token.text.toList.take left ∧
      Text.Place.start.after (code.take (front.length + left)) =
        ⟨front.length + left, caret.line, caret.column⟩ := by
  obtain ⟨line, after, before⟩ := covers_iff.1 covers
  -- the caret is on the first line of the token, so there is no line feed in front of it
  have inside : left ≤ (token.text.toList.takeWhile (· ≠ '\n')).length := by omega
  have prior : token.text.toList.take left <+: token.text.toList.takeWhile (· ≠ '\n') :=
    List.prefix_of_prefix_length_le (List.take_prefix _ _) (List.takeWhile_prefix _)
      (Nat.le_trans (List.length_take_le _ _) inside)
  have flat : (token.text.toList.take left).count '\n' = 0 := by
    rw [List.count_eq_zero]
    intro feed
    have none := List.all_eq_true.1 List.all_takeWhile _ (prior.subset feed)
    simp at none
  have short : left ≤ token.text.toList.length :=
    Nat.le_trans inside (List.takeWhile_prefix _).length_le
  have cut : code.take (front.length + left) = front ++ token.text.toList.take left := by
    obtain ⟨rest, same⟩ := stands.written
    rw [← same, List.append_assoc, List.take_length_add_append,
      List.take_append_of_le_length short]
  have size : (token.text.toList.take left).length = left := List.length_take_of_le short
  refine ⟨short, cut, ?_⟩
  have line' := stands.line
  have column := stands.column
  rw [cut, Text.Place.after_append, Text.Place.after_eq_of_flat flat, Text.Place.offset_after, size]
  simp only [Text.Place.mk.injEq, Text.Place.start] at *
  omega

theorem Token.exists_marks {code : List Char} {token : Token} {caret : Caret}
    (stands : token.Stands code) (placed : token.index = some token.position)
    (covers : token.covers caret.line caret.column = true) (node : Nat) :
    ∃ position, token.locatedAt caret node = .found position ∧
      position.Marks code caret token node := by
  obtain ⟨front, stands⟩ := stands
  obtain ⟨-, cut, place⟩ := stands.after_take_of_covers covers rfl
  rw [locatedAt, placed]
  refine ⟨_, rfl, placed, rfl, _, place, ?_, ?_⟩
  · have start := stands.start
    omega
  · rw [cut, stands.start, Int.toNat_natCast, List.drop_left, String.toList_ofList]

theorem TokenStream.Spells.exists_marks {code : List Char} {stream : TokenStream}
    {tokens : List Token} {token : Token} {caret : Caret} (spells : stream.Spells code)
    (part : tokens.Sublist stream.tokens.toList)
    (found : tokens.find? (·.covers caret.line caret.column) = some token) (node : Nat) :
    ∃ position, token.locatedAt caret node = .found position ∧
      position.Marks code caret token node := by
  have member := part.subset (List.mem_of_find?_eq_some found)
  have covers : token.covers caret.line caret.column = true := by
    simpa using List.find?_some found
  exact token.exists_marks (spells.stands _ member) (spells.index_eq member) covers node

namespace ParseTree

variable {code : List Char} {tree : ParseTree} {stream : TokenStream} {outline inner : Outline}
  {token : Token} {caret : Caret}

/-- The tree has the terminals of the stream, in their order, and made-up ones anywhere. -/
structure Holds (tree : ParseTree) (stream : TokenStream) : Prop where
  wellFormed : tree.WellFormed
  tokens : (tree.tokens 0).filter (!·.conjured) = stream.terminals

/-- The node is a rule's, and the stream position is in its range. -/
structure RuleAround (tree : ParseTree) (index : Int) (node : Nat) : Prop where
  reached : node ∈ tree.walk 0
  rule : (tree.rule? node).isSome = true
  range : ∃ first last, tree.indexRange? node = some (first, last) ∧ first ≤ index ∧ index ≤ last

theorem Depicts.isSome_rule? (depicts : tree.Depicts outline) :
    (tree.rule? outline.place).isSome = true ↔ ∃ place name children,
      outline = .rule place name children := by
  cases depicts with
  | mk found label _ _ =>
      rw [ParseTree.rule?, found, Option.bind_some, ParseNode.rule?, label]
      cases outline <;> simp [Outline.label]

theorem Depicts.exists_within (depicts : tree.Depicts outline) {place : Nat}
    (member : place ∈ outline.places) :
    ∃ inner : Outline, inner.Within outline ∧ inner.place = place := by
  induction depicts with
  | @mk outline _ _ _ _ _ ih =>
      cases outline with
      | terminal here token => exact ⟨_, .refl _, (List.mem_singleton.1 member).symm⟩
      | rule here name children =>
          rw [Outline.places_rule, List.mem_cons, List.mem_flatMap] at member
          rcases member with rfl | ⟨child, inside, member⟩
          · exact ⟨_, .refl _, rfl⟩
          · obtain ⟨inner, within, same⟩ := ih child inside member
            exact ⟨inner, .part inside within here name, same⟩

namespace Follows

theorem within (follows : tree.Follows stream outline) (part : inner.Within outline) :
    tree.Follows stream inner := by
  induction part with
  | refl => exact follows
  | part member _ _ _ ih => exact ih (follows.child member)

theorem exists_range_iff (follows : tree.Follows stream outline) (spells : stream.Spells code) :
    (∃ first last, tree.indexRange? outline.place = some (first, last) ∧
      first ≤ token.position ∧ token.position ≤ last) ↔ outline.Spans token := by
  rcases follows.tokenRange?_cases with
    ⟨nothing, empty⟩ | ⟨first, member, last, member', range, bounds⟩
  · simp [indexRange?, nothing, Outline.Spans, empty]
  · have ends : tree.indexRange? outline.place = some (first.position, last.position) := by
      simp [indexRange?, range, spells.index_eq (follows.members _ member),
        spells.index_eq (follows.members _ member')]
    simp [ends, bounds]

end Follows

namespace Holds

theorem exists_follows (holds : tree.Holds stream) (spells : stream.Spells code) :
    ∃ outline : Outline, outline.place = 0 ∧ tree.Follows stream outline ∧
      outline.streamed = stream.terminals := by
  obtain ⟨⟨outline, root, depicts, distinct⟩, tokens⟩ := holds
  rw [← root, depicts.tokens_eq distinct] at tokens
  have same : outline.streamed = stream.terminals := tokens
  refine ⟨outline, root, ⟨depicts, distinct, ?_, ?_⟩, same⟩
  · rw [same]
    exact fun token member => stream.terminals_sublist.subset member
  · rw [same]
    exact spells.pairwise_position.sublist stream.terminals_sublist

variable (holds : tree.Holds stream) (spells : stream.Spells code)

include holds spells

theorem exists_locate_terminal
    (found : stream.terminals.find? (·.covers caret.line caret.column) = some token) :
    ∃ node ∈ tree.walk 0, tree.token? node = some token ∧
      tree.locate stream caret = token.locatedAt caret node := by
  obtain ⟨outline, root, follows, same⟩ := holds.exists_follows spells
  rw [← same, Token.find?_eq_some_iff_least follows.ordered] at found
  obtain ⟨member, covers, least⟩ := found
  obtain ⟨node, reached, own, located⟩ := follows.exists_locateBelow_terminal spells
    (follows.members token member) covers (follows.depicts.length_places_le follows.distinct)
    member least
  rw [← root]
  refine ⟨node, ?_, own, ?_⟩
  · rw [follows.depicts.walk_eq follows.distinct]
    exact reached
  · rw [locate, ← root, located, Option.getD_some]

theorem exists_locate_gap
    (missed : stream.terminals.find? (·.covers caret.line caret.column) = none)
    (found : stream.gaps.find? (·.covers caret.line caret.column) = some token) :
    ∃ node, tree.RuleAround token.position node ∧
      (∀ other, tree.RuleAround token.position other → node ∈ tree.walk other) ∧
      tree.locate stream caret =
        if token.comment then .inComment else token.locatedAt caret node := by
  obtain ⟨outline, root, follows, same⟩ := holds.exists_follows spells
  rw [Token.find?_eq_some_iff_least (spells.pairwise_position.sublist stream.gaps_sublist)] at found
  obtain ⟨gap, covers, least⟩ := found
  rw [List.find?_eq_none] at missed
  have known := stream.gaps_sublist.subset gap
  have clear : ∀ other ∈ outline.streamed, other.covers caret.line caret.column = false := by
    rw [same]
    exact fun other member => Bool.eq_false_iff.2 (missed other member)
  have spans := (spells.spans_iff same known).2 (.inr gap)
  have leftmost : ∀ other ∈ stream.tokens.toList, outline.Spans other →
      other.covers caret.line caret.column = true → token.position ≤ other.position := by
    intro other known' spans' covers'
    rcases (spells.spans_iff same known').1 spans' with shown | gap'
    · exact absurd covers' (missed other shown)
    · exact least other gap' covers'
  obtain ⟨inner, part, innerSpans, deepest, located⟩ := follows.exists_locateBelow_deepest spells
    known covers spans clear leftmost (follows.depicts.length_places_le follows.distinct)
  have walk := follows.depicts.walk_eq follows.distinct
  have own := follows.within part
  rw [root] at walk
  refine ⟨inner.place, ⟨?_, ?_, (own.exists_range_iff spells).2 innerSpans⟩, ?_, ?_⟩
  · rw [walk]
    exact part.place_mem
  · exact own.depicts.isSome_rule?.2 (own.exists_eq_rule spells known covers innerSpans
      fun other member => clear other (part.streamed_subset member))
  · intro other around
    obtain ⟨reached, -, range⟩ := around
    rw [walk] at reached
    obtain ⟨outer, part', rfl⟩ := follows.depicts.exists_within reached
    have outerFollows := follows.within part'
    rw [outerFollows.depicts.walk_eq outerFollows.distinct]
    exact (deepest outer part' ((outerFollows.exists_range_iff spells).1 range)).place_mem
  · rw [locate, ← root, located, Option.getD_some]

theorem locate_eq_nowhere
    (missed : stream.terminals.find? (·.covers caret.line caret.column) = none)
    (missed' : stream.gaps.find? (·.covers caret.line caret.column) = none) :
    tree.locate stream caret = .nowhere := by
  obtain ⟨outline, root, follows, same⟩ := holds.exists_follows spells
  rw [List.find?_eq_none] at missed missed'
  have nothing : tree.locateBelow stream caret tree.size outline.place = none := by
    refine follows.locateBelow_eq_none spells ?_ tree.size
    intro token known spans
    rw [Bool.eq_false_iff]
    rcases (spells.spans_iff same known).1 spans with shown | gap
    · exact missed token shown
    · exact missed' token gap
  rw [locate, ← root, nothing, Option.getD_none]

end Holds

end ParseTree

/-- What an answer says apart from the node. -/
def Located.mark? (located : Located) : Option (Int × String) :=
  located.position?.map fun position => (position.index, position.text)

theorem Token.mark?_locatedAt (token : Token) (caret : Caret) (node other : Nat) :
    (token.locatedAt caret node).mark? = (token.locatedAt caret other).mark? := by
  unfold locatedAt
  cases token.index <;> rfl

namespace ParseTree.Holds

variable {code : List Char} {tree other : ParseTree} {stream : TokenStream}

theorem mark?_locate (holds : tree.Holds stream) (holds' : other.Holds stream)
    (spells : stream.Spells code) (caret : Caret) :
    (tree.locate stream caret).mark? = (other.locate stream caret).mark? := by
  cases found : stream.terminals.find? (·.covers caret.line caret.column) with
  | some token =>
      obtain ⟨node, -, -, located⟩ := holds.exists_locate_terminal spells found
      obtain ⟨node', -, -, located'⟩ := holds'.exists_locate_terminal spells found
      rw [located, located']
      exact token.mark?_locatedAt caret node node'
  | none =>
      cases found' : stream.gaps.find? (·.covers caret.line caret.column) with
      | some token =>
          obtain ⟨node, -, -, located⟩ := holds.exists_locate_gap spells found found'
          obtain ⟨node', -, -, located'⟩ := holds'.exists_locate_gap spells found found'
          rw [located, located']
          split
          · rfl
          · exact token.mark?_locatedAt caret node node'
      | none =>
          rw [holds.locate_eq_nowhere spells found found',
            holds'.locate_eq_nowhere spells found found']

end ParseTree.Holds

namespace Language

/-- The leftmost terminal under the caret is found, with its own node; or else the leftmost hidden
token behind the first visible one, with the deepest rule around it; or else nothing.  A stack of
nodes gives the same answer. -/
theorem locate_meets_leftmost (language : Language) {text : String} {stream : TokenStream}
    (tokenized : language.support.grammar.tokenize text = .ok stream) {tree : ParseTree}
    (holds : tree.Holds stream) (caret : Caret) :
    (match stream.terminals.find? (·.covers caret.line caret.column) with
      | some token =>
          ∃ node ∈ tree.walk 0, tree.token? node = some token ∧
            ∃ position, tree.locate stream caret = .found position ∧
              position.Marks text.toList caret token node
      | none =>
          match stream.gaps.find? (·.covers caret.line caret.column) with
          | some token =>
              if token.comment then tree.locate stream caret = .inComment
              else
                ∃ node, tree.RuleAround token.position node ∧
                  (∀ other, tree.RuleAround token.position other → node ∈ tree.walk other) ∧
                  ∃ position, tree.locate stream caret = .found position ∧
                    position.Marks text.toList caret token node
          | none => tree.locate stream caret = .nowhere) ∧
      (∀ other : ParseTree, other.Holds stream →
        (other.locate stream caret).mark? = (tree.locate stream caret).mark?) ∧
      ∀ steps, 2 * tree.size ≤ steps →
        (tree.locateStacked stream caret steps [(0, false)]).getD .nowhere =
          tree.locate stream caret := by
  have spells := language.spells tokenized
  refine ⟨?_, fun other holds' => holds'.mark?_locate holds spells caret,
    fun _ => holds.wellFormed.getD_locateStacked stream caret⟩
  cases found : stream.terminals.find? (·.covers caret.line caret.column) with
  | some token =>
      obtain ⟨node, reached, own, located⟩ := holds.exists_locate_terminal spells found
      rw [located]
      exact ⟨node, reached, own, spells.exists_marks stream.terminals_sublist found node⟩
  | none =>
      cases found' : stream.gaps.find? (·.covers caret.line caret.column) with
      | some token =>
          obtain ⟨node, around, deepest, located⟩ := holds.exists_locate_gap spells found found'
          rw [located]
          simp only
          split
          · rfl
          · exact ⟨node, around, deepest, spells.exists_marks stream.gaps_sublist found' node⟩
      | none => exact holds.locate_eq_nowhere spells found found'

namespace Braces

/-! Two braces with blanks between them, under a rule of their own. -/

def left : Token := ⟨6, "\x7b", some 0, 1, 0, 0, false, false⟩

def blanks : Token := ⟨1, "  ", some 1, 1, 1, 1, true, false⟩

def madeUp : Token := ⟨2, "", none, 1, 3, 3, false, false⟩

def right : Token := ⟨7, "\x7d", some 2, 1, 3, 3, false, false⟩

def final : Token := ⟨eofType, "", some 3, 1, 4, 4, false, false⟩

def stream : TokenStream := ⟨#[left, blanks, right, final], rfl⟩

def tree : ParseTree :=
  ⟨#[⟨none, .rule "outer", [1, 5]⟩, ⟨some 0, .rule "inner", [2, 3, 4]⟩, ⟨some 1, .token left, []⟩,
    ⟨some 1, .token madeUp, []⟩, ⟨some 1, .token right, []⟩, ⟨some 0, .token final, []⟩]⟩

theorem holds_tree : tree.Holds stream := by
  let body := [Outline.terminal 2 left, .terminal 3 madeUp, .terminal 4 right]
  have terminal : ∀ place token parent, tree.node? place = some ⟨some parent, .token token, []⟩ →
      tree.Depicts (.terminal place token) := by
    intro place token parent found
    exact .mk found rfl rfl (by simp [Outline.children])
  have inner : tree.Depicts (.rule 1 "inner" body) := by
    refine .mk rfl rfl rfl ?_
    simp only [Outline.children, body, List.forall_mem_cons]
    exact ⟨terminal 2 left 1 rfl, terminal 3 madeUp 1 rfl, terminal 4 right 1 rfl, by simp⟩
  refine ⟨⟨.rule 0 "outer" [.rule 1 "inner" body, .terminal 5 final], rfl, ?_, by simp [body]⟩,
    by decide⟩
  refine .mk rfl rfl rfl ?_
  simp only [Outline.children, List.forall_mem_cons]
  exact ⟨inner, terminal 5 final 0 rfl, by simp⟩

/-- Between the blanks the caret is in the inner rule. -/
theorem locate_between_blanks :
    Language.structurizr.support.grammar.tokenize "\x7b  \x7d" = .ok stream ∧ tree.Holds stream ∧
      ∃ node, tree.RuleAround 1 node ∧
        (∀ other, tree.RuleAround 1 other → node ∈ tree.walk other) ∧
        ∃ position, tree.locate stream ⟨1, 2⟩ = .found position ∧
          position.Marks "\x7b  \x7d".toList ⟨1, 2⟩ blanks node :=
  ⟨rfl, holds_tree, (locate_meets_leftmost .structurizr rfl holds_tree ⟨1, 2⟩).1⟩

end Braces

end Language

end Typeahead
