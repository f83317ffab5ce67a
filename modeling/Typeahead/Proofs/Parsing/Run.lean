import Typeahead.Proofs.Parsing.Advance

namespace Typeahead

/-!
The parser over a whole stream.  Every token is read or passed over, and the tree that is made in
the end holds the tokens that were read: where the parser accepts, below its last value, and
otherwise below what it has gathered.
-/

def SyntaxTree.indices (tree : SyntaxTree) : List Nat := tree.leaves.filterMap Leaf.index?

def Repair.skippedIndices (repairs : List Repair) : List Nat :=
  repairs.filterMap fun
    | .skipped index => some index
    | _ => none

theorem Repair.skippedIndices_append (first second : List Repair) :
    skippedIndices (first ++ second) = skippedIndices first ++ skippedIndices second :=
  List.filterMap_append

namespace Forest

theorem Leveled.flatMap_yield_spliced {level : Nat → Nat} {forest : Forest}
    (leveled : Leveled level forest) (depth : Nat) (branches : List Branch) :
    (forest.spliced depth branches).flatMap forest.yield = branches.flatMap forest.yield := by
  induction depth generalizing branches with
  | zero => rfl
  | succ depth ih =>
      rw [spliced, List.flatMap_assoc]
      apply List.flatMap_congr
      intro branch _
      cases branch with
      | leaf terminal => simp
      | node rule list =>
          by_cases inlined : isInlined rule = true
          · simp only [inlined, if_true, ih, leveled.yield_node]
          · simp [inlined]

theorem Leveled.indices_partialTree {level : Nat → Nat} {forest : Forest}
    (leveled : Leveled level forest) (rule : String) (row : List (String × Branch)) :
    (forest.partialTree rule (row.map (·.2))).indices = forest.rowIndices row := by
  have leaves : (forest.partialTree rule (row.map (·.2))).leaves =
      (row.map (·.2)).flatMap forest.yield := by
    rw [← leveled.flatMap_yield_spliced (forest.lists.size + 1), partialTree,
      SyntaxTree.leaves_node, List.flatMap_map]
    rfl
  rw [SyntaxTree.indices, leaves, List.flatMap_map, List.filterMap_flatMap]
  rfl

theorem exists_tree_node (forest : Forest) (rule : String) (list : Nat) :
    ∃ children, forest.tree (.node rule list) = .node rule children := by
  unfold tree
  cases forest.lists.size <;> exact ⟨_, rfl⟩

end Forest

namespace Grammar

variable {grammar : Grammar} {level : Nat → Nat} {symbols : List String} {parser : LiveParser}

/-- How the parser goes on over the tokens of a stream. -/
inductive Advances (grammar : Grammar) :
    List (Token × Nat) → LiveParser → LiveParser → List Repair → Prop where
  | nil {parser : LiveParser} : Advances grammar [] parser parser []
  | cons {token : Token} {index : Nat} {placed : List (Token × Nat)}
      {parser middle last : LiveParser} {repair : Option Repair} {repairs : List Repair}
      (stepped : grammar.step (grammar.terminalOf token) index parser = .ok (middle, repair))
      (advance : grammar.Advance (grammar.terminalOf token) index parser middle repair)
      (rest : Advances grammar placed middle last repairs) :
      Advances grammar ((token, index) :: placed) parser last (repair.toList ++ repairs)

theorem steps_append (front rest : List (Token × Nat)) (parser : LiveParser) :
    grammar.steps (front ++ rest) parser = do
      let (middle, before) ← grammar.steps front parser
      let (last, after) ← grammar.steps rest middle
      return (last, before ++ after) := by
  induction front generalizing parser with
  | nil => simp [steps, ok_bind]
  | cons head front ih => simp [steps, ih]

/-- The tree that is made when the parser stops, and what it has of the tokens below the stack. -/
structure Finishes (symbols : List String) (parser : LiveParser) (tree : SyntaxTree) : Prop where
  rooted : ∃ rule children, tree = .node rule children
  indices : (parser.indices symbols).Sublist tree.indices
  within : ∀ allowed : Nat → Prop, Forest.Within allowed parser.forest (parser.row symbols) →
    ∀ index ∈ tree.indices, allowed index
  unshared : parser.forest.Unshared (parser.row symbols) → tree.indices = parser.indices symbols
  front : ∀ index, Forest.InFront index parser.forest (parser.row symbols) →
    tree.indices.head? = some index

section Sound

variable (sound : grammar.Sound)

include sound

theorem exists_steps (placed : List (Token × Nat))
    (standing : grammar.Standing level symbols parser) :
    ∃ last repairs, grammar.steps placed parser = .ok (last, repairs) ∧
      grammar.Advances placed parser last repairs := by
  induction placed generalizing level symbols parser with
  | nil => exact ⟨parser, [], rfl, .nil⟩
  | cons head placed ih =>
      rcases head with ⟨token, index⟩
      obtain ⟨middle, repair, stepped, advance⟩ :=
        exists_advance sound (terminalOf_ne_endMarker sound token) index standing
      obtain ⟨_, _, passage⟩ :=
        advance.passage sound (terminalOf_ne_endMarker sound token) standing
      obtain ⟨last, repairs, rest, advances⟩ := ih passage.standing
      refine ⟨last, repair.toList ++ repairs, ?_, .cons stepped advance advances⟩
      simp only [steps, stepped, rest, ok_bind]
      rfl

omit sound in
theorem Advance.gained {terminal : String} {index : Nat} {next : LiveParser}
    {repair : Option Repair} (advance : grammar.Advance terminal index parser next repair)
    {repairs : List Repair} {positions gained : List Nat} (sublist : gained.Sublist positions)
    (perm : (Repair.skippedIndices repairs ++ gained).Perm positions) :
    (gainedBy index repair ++ gained).Sublist (index :: positions) ∧
      (Repair.skippedIndices (repair.toList ++ repairs) ++ (gainedBy index repair ++ gained)).Perm
        (index :: positions) := by
  cases advance with
  | skipped => exact ⟨sublist.cons _, perm.cons index⟩
  | taken => exact ⟨sublist.cons_cons _, List.perm_middle.trans (perm.cons index)⟩
  | inserted => exact ⟨sublist.cons_cons _, List.perm_middle.trans (perm.cons index)⟩

/-- Every token of the stream is below the stack in the end or was passed over. -/
theorem Advances.passage {placed : List (Token × Nat)} {last : LiveParser} {repairs : List Repair}
    (advances : grammar.Advances placed parser last repairs)
    (standing : grammar.Standing level symbols parser) :
    ∃ level' symbols' gained, grammar.Passage gained level symbols parser level' symbols' last ∧
      gained.Sublist (placed.map (·.2)) ∧
      (Repair.skippedIndices repairs ++ gained).Perm (placed.map (·.2)) := by
  induction advances generalizing level symbols with
  | nil => exact ⟨level, symbols, [], .refl standing, List.Sublist.slnil, List.Perm.nil⟩
  | @cons token index placed parser middle last repair repairs _ advance _ ih =>
      obtain ⟨_, _, first⟩ :=
        advance.passage sound (terminalOf_ne_endMarker sound token) standing
      obtain ⟨level', symbols', _, second, sublist, perm⟩ := ih first.standing
      exact ⟨level', symbols', _, first.trans second, advance.gained sublist perm⟩

end Sound

theorem finishes_partialParse (standing : grammar.Standing level symbols parser) :
    Finishes symbols parser (grammar.partialParse parser) := by
  have indices : (grammar.partialParse parser).indices = parser.indices symbols := by
    rw [partialParse, ← standing.linked.map_snd_row]
    exact standing.leveled.indices_partialTree grammar.table.start _
  refine ⟨⟨_, _, rfl⟩, by rw [indices], ?_, fun _ => indices, ?_⟩
  · intro allowed within index member
    rw [indices] at member
    exact within.of_mem_rowIndices standing.leveled member
  · intro index front
    rw [indices]
    exact front.head? standing.leveled

/-- What a passage that reads no tokens comes to, the parser came to before it. -/
theorem Passage.finishes {level' : Nat → Nat} {symbols' : List String} {parser' : LiveParser}
    {tree : SyntaxTree} (passage : grammar.Passage [] level symbols parser level' symbols' parser')
    (exactly : Exact [] symbols parser symbols' parser')
    (finishes : Finishes symbols' parser' tree) : Finishes symbols parser tree where
  rooted := finishes.rooted
  indices := by
    have kept := passage.indices
    rw [List.append_nil] at kept
    exact kept.trans finishes.indices
  within := fun allowed within => finishes.within allowed (passage.within allowed (by simp) within)
  unshared := by
    intro unshared
    obtain ⟨apart, same⟩ := exactly unshared
    rw [finishes.unshared apart, same, List.append_nil]
  front := fun index front => finishes.front index (passage.front.inFront (by simp) front)

section Finish

variable (sound : grammar.Sound)

include sound

theorem move?_endMarker (s : Nat) : grammar.automaton.states.move? s endMarker = none := by
  rw [grammar.automaton.states_eq]
  exact States.move?_eq_none sound.unread sound.start_ne s

/-- The value with which the parser accepts has all that is below the stack. -/
theorem Standing.accepted (standing : grammar.Standing level symbols parser) {leaf : Leaf}
    {forest : Forest} {value : Branch} {stack : List (Frame Branch)}
    (reads : grammar.Reads endMarker leaf parser (.accepted forest value stack)) :
    Finishes symbols parser (forest.tree value) := by
  cases reads with
  | @accepted middle _ middleStack rest frame run step ended final =>
      obtain ⟨_, middleSymbols, before, -⟩ := standing.run sound run
      obtain ⟨rfl, production, member, origin, -, -, made⟩ :=
        step.of_isFinal before.standing.linked final
      obtain ⟨_, symbols', passage, exactly⟩ := standing.run sound (run.tail step)
      apply passage.finishes exactly
      have row : ∃ symbol,
          (⟨forest, [frame]⟩ : LiveParser).row symbols' = [(symbol, frame.value)] := by
        have linked := passage.standing.linked
        cases linked with
        | @cons _ _ symbol _ move below =>
            cases below with
            | nil => exact ⟨symbol, rfl⟩
      obtain ⟨symbol, row⟩ := row
      have indices : (forest.tree frame.value).indices =
          (⟨forest, [frame]⟩ : LiveParser).indices symbols' := by
        rw [LiveParser.indices, row, Forest.rowIndices_singleton]
        rfl
      refine ⟨?_, by rw [indices], ?_, fun _ => indices, ?_⟩
      · have kept : grammar.transparent.contains production.origin = false := by
          rw [origin]
          exact sound.rooted
        obtain ⟨list, node⟩ := Forest.exists_node_of_reduce kept middle
          (middleStack.map (·.value)).reverse
        obtain ⟨children, tree⟩ := forest.exists_tree_node production.origin list
        exact ⟨_, children, by rw [made, node, tree]⟩
      · intro allowed within index listed
        rw [indices] at listed
        exact within.of_mem_rowIndices passage.standing.leveled listed
      · intro index front
        rw [indices]
        exact front.head? passage.standing.leveled

theorem exists_finishWithin (eof rounds : Nat)
    (standing : grammar.Standing level symbols parser) :
    ∃ tree repairs, grammar.finishWithin eof rounds parser = .ok (tree, repairs) ∧
      Repair.skippedIndices repairs = [] ∧ Finishes symbols parser tree := by
  induction rounds generalizing level symbols parser with
  | zero => exact ⟨_, _, rfl, rfl, finishes_partialParse standing⟩
  | succ rounds ih =>
      obtain ⟨names, listed, members⟩ :=
        Automaton.exists_acceptable sound.proper standing.linked
      by_cases ended : names.contains endMarker = true
      · obtain ⟨-, takes⟩ := (members endMarker).1 (List.contains_iff_mem.1 ended)
        obtain ⟨outcome, fed, reads, taken⟩ := Automaton.exists_feeds_of_takes sound.proper
          standing.linked takes (Forest.reduce grammar.transparent)
          (.leaf (.conjured endMarker eof)) parser.forest
        have fed' : grammar.feed endMarker (.conjured endMarker eof) parser = .ok outcome := fed
        cases outcome with
        | shifted forest stack =>
            cases reads with
            | shifted _ move =>
                rw [move?_endMarker sound] at move
                cases move
        | refused forest stack => cases taken
        | accepted forest value stack =>
            refine ⟨forest.tree value, [], ?_, rfl, standing.accepted sound reads⟩
            simp only [finishWithin, listed, ended, fed', lift_ok_bind, if_true]
            rfl
      · cases chosen : grammar.repairs.find? names.contains with
        | none =>
            refine ⟨_, [.incomplete], ?_, rfl, finishes_partialParse standing⟩
            simp only [finishWithin, listed, ended, chosen, lift_ok_bind]
            rfl
        | some name =>
            have acceptable := List.find?_some chosen
            obtain ⟨-, takes⟩ := (members name).1 (List.contains_iff_mem.1 acceptable)
            obtain ⟨outcome, fed, reads, taken⟩ := Automaton.exists_feeds_of_takes sound.proper
              standing.linked takes (Forest.reduce grammar.transparent)
              (.leaf (.conjured name eof)) parser.forest
            have fed' : grammar.feed name (.conjured name eof) parser = .ok outcome := fed
            cases outcome with
            | accepted forest value stack =>
                cases reads with
                | accepted _ _ same _ =>
                    exact absurd (same ▸ List.mem_of_find?_eq_some chosen) sound.repairs
            | refused forest stack => cases taken
            | shifted forest stack =>
                obtain ⟨_, _, passage, exactly, -⟩ := standing.shifted sound reads
                obtain ⟨tree, repairs, finished, unskipped, finishes⟩ := ih passage.standing
                refine ⟨tree, .closed name :: repairs, ?_, unskipped,
                  passage.finishes exactly finishes⟩
                simp only [finishWithin, listed, ended, chosen, fed', finished, lift_ok_bind]
                rfl

end Finish

/-- Every stream has a parse, and only tokens are passed over in it. -/
theorem exists_parse (sound : grammar.Sound) (stream : TokenStream) :
    ∃ parse last repairs, grammar.parse stream = .ok parse ∧
      grammar.steps stream.visiblePlaced .initial = .ok (last, repairs) ∧
      Repair.skippedIndices parse.repairs = Repair.skippedIndices repairs := by
  have standing := standing_initial grammar
  obtain ⟨last, repairs, stepped, advances⟩ := exists_steps sound stream.visiblePlaced standing
  obtain ⟨_, _, _, passage, -⟩ := advances.passage sound standing
  obtain ⟨tree, endRepairs, finished, unskipped, -⟩ :=
    exists_finishWithin sound (stream.size - 1) maxRepairs passage.standing
  simp only [parse, stepped, finish, finished, ok_bind]
  refine ⟨_, last, repairs, rfl, rfl, ?_⟩
  rw [Repair.skippedIndices_append, unskipped, List.append_nil]

end Grammar

end Typeahead
