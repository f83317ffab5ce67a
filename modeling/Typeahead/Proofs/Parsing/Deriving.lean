import Typeahead.Proofs.Forest.Condensing
import Typeahead.Proofs.Parsing.Coverage
import Typeahead.Proofs.Spelling

namespace Typeahead

/-!
The parser as a builder of derivations.  While it takes every token, its stack holds the condensed
trees of derivations that cover what it has read; where it accepts, they are below one node of the
start rule.
-/

/-- The visible tokens, with the terminals `conjured` behind them. -/
def TokenStream.leavesWith (stream : TokenStream) (conjured : List String) : List Leaf :=
  stream.visiblePositions.map .token ++ conjured.map fun name => .conjured name (stream.size - 1)

theorem TokenStream.index_visible_of_mem_leavesWith {stream : TokenStream}
    {conjured : List String} {leaf : Leaf} (member : leaf ∈ stream.leavesWith conjured)
    {index : Nat} (own : leaf.index? = some index) : index ∈ stream.visiblePositions := by
  rcases List.mem_append.1 member with read | added
  · obtain ⟨position, visible, rfl⟩ := List.mem_map.1 read
    exact Option.some.inj own ▸ visible
  · obtain ⟨name, -, rfl⟩ := List.mem_map.1 added
    cases own

namespace Grammar

/-- The terminal of a leaf. -/
def leafName (grammar : Grammar) (stream : TokenStream) : Leaf → String
  | .token index => (stream.tokens[index]?).elim "" grammar.terminalOf
  | .conjured terminal _ => terminal

variable {grammar : Grammar} {nameOf : Leaf → String} {read : List Leaf} {parser : LiveParser}
  {terminal : String} {leaf : Leaf} {forest : Forest} {stack : List (Frame Branch)}

/-- The parser has read the leaves and holds the derivations that cover them. -/
def Derives (grammar : Grammar) (nameOf : Leaf → String) (read : List Leaf)
    (parser : LiveParser) : Prop :=
  ∃ level symbols, grammar.automaton.Linked symbols parser.stack ∧
    Forest.Displays grammar.table nameOf grammar.transparent read level parser.forest
      (parser.row symbols)

/-- The tree is that of a derivation from the start, condensed. -/
structure Completes (grammar : Grammar) (nameOf : Leaf → String) (read : List Leaf)
    (tree full : SyntaxTree) : Prop where
  derived : (full.derivation nameOf).Derived grammar.table
  start : full.symbol nameOf = grammar.table.start
  leaves : full.leaves = read
  condensed : tree = full.condense grammar.transparent

/-- No terminal is made up at the end while there are tokens. -/
theorem Advances.ne_closed {placed : List (Token × Nat)} {last : LiveParser}
    {repairs : List Repair} (advances : grammar.Advances placed parser last repairs) :
    ∀ repair ∈ repairs, ∀ name, repair ≠ .closed name := by
  induction advances with
  | nil => simp
  | cons _ advance _ ih =>
      rw [List.forall_mem_append]
      refine ⟨?_, ih⟩
      cases advance with
      | taken => simp
      | inserted => simp
      | skipped => simp

namespace Derives

theorem initial (grammar : Grammar) (nameOf : Leaf → String) :
    grammar.Derives nameOf [] .initial :=
  ⟨_, [], .nil, .nil _ (standing_initial grammar).leveled⟩

theorem exists_standing (derives : grammar.Derives nameOf read parser) :
    ∃ level symbols, grammar.Standing level symbols parser := by
  obtain ⟨level, symbols, linked, displays⟩ := derives
  exact ⟨level, symbols, linked, displays.leveled, displays.fits⟩

section Sound

variable (sound : grammar.Sound) (derives : grammar.Derives nameOf read parser)

include sound derives

theorem run (run : Automaton.Runs (Forest.reduce grammar.transparent) terminal grammar.automaton
    parser.forest parser.stack forest stack) : grammar.Derives nameOf read ⟨forest, stack⟩ := by
  obtain ⟨level, symbols, linked, displays⟩ := derives
  have kept := run.row_induction linked
    (P := fun forest row => ∃ level,
      Forest.Displays grammar.table nameOf grammar.transparent read level forest row)
    ⟨level, displays⟩ ?_
  · obtain ⟨symbols', linked', level', displays'⟩ := kept
    exact ⟨level', symbols', linked', displays'⟩
  · intro forest below production branches member sized holds
    obtain ⟨level, displays⟩ := holds
    exact ⟨_, displays.reduce member sized sound.inlinable⟩

theorem shifted (reads : grammar.Reads (nameOf leaf) leaf parser (.shifted forest stack)) :
    grammar.Derives nameOf (read ++ [leaf]) ⟨forest, stack⟩ := by
  cases reads with
  | @shifted _ lastStack next run move =>
      obtain ⟨level, symbols, linked, displays⟩ := derives.run sound run
      have row : (⟨forest, ⟨next, .leaf leaf⟩ :: lastStack⟩ : LiveParser).row
          (nameOf leaf :: symbols) =
            (⟨forest, lastStack⟩ : LiveParser).row symbols ++ [(nameOf leaf, .leaf leaf)] :=
        Automaton.row_cons linked.length_eq
      refine ⟨level, nameOf leaf :: symbols, .cons move linked, ?_⟩
      rw [row]
      exact displays.leaf leaf

/-- The value with which the parser accepts is the condensed tree of a derivation from the start. -/
theorem accepted {value : Branch}
    (reads : grammar.Reads endMarker leaf parser (.accepted forest value stack)) :
    ∃ full, grammar.Completes nameOf read (forest.tree value) full := by
  cases reads with
  | @accepted middle _ middleStack rest frame run step ended final =>
      obtain ⟨_, _, linked, -⟩ := derives.run sound run
      obtain ⟨rfl, -⟩ := step.of_isFinal linked final
      obtain ⟨level, symbols, linked, displays⟩ := derives.run sound (run.tail step)
      cases linked with
      | @cons _ _ symbol _ move below =>
          obtain ⟨start, -⟩ := Automaton.contains_goal_of_isFinal final move
          cases below with
          | nil =>
              obtain ⟨trees, shown, leaves⟩ := displays.trees
              cases shown with
              | @cons full _ others _ head tail =>
                  cases tail with
                  | nil =>
                      rw [List.flatMap_singleton] at leaves
                      exact ⟨full, head.derived, head.symbol.trans start, leaves, head.condensed⟩

/-- A parser that takes every token has read them all. -/
theorem advances {placed : List (Token × Nat)} {last : LiveParser} {repairs : List Repair}
    (advances : grammar.Advances placed parser last repairs)
    (none : repairs = [])
    (names : ∀ token index, (token, index) ∈ placed →
      nameOf (.token index) = grammar.terminalOf token) :
    grammar.Derives nameOf (read ++ placed.map fun placed => .token placed.2) last := by
  induction advances generalizing read with
  | nil => simpa using derives
  | @cons token index placed parser middle last repair repairs _ advance _ ih =>
      obtain ⟨own, later⟩ := List.append_eq_nil_iff.1 none
      cases advance with
      | inserted => cases own
      | skipped => cases own
      | taken _ reads =>
          have name := names token index List.mem_cons_self
          rw [← name] at reads
          have rest := ih (derives.shifted sound reads) later
            fun token index member => names token index (List.mem_cons_of_mem _ member)
          rw [List.map_cons, ← List.singleton_append, ← List.append_assoc]
          exact rest

/-- A parser that accepts in the end, after it has made up the terminals `conjured`, has made a
derivation from the start. -/
theorem finishWithin {eof rounds : Nat} {conjured : List String} {tree : SyntaxTree}
    (names : ∀ name, nameOf (.conjured name eof) = name)
    (finished : grammar.finishWithin eof rounds parser = .ok (tree, conjured.map .closed)) :
    ∃ full, grammar.Completes nameOf (read ++ conjured.map fun name => .conjured name eof) tree
      full := by
  induction rounds generalizing read parser conjured with
  | zero =>
      have same := congrArg Prod.snd (Except.ok.inj finished)
      cases conjured with
      | nil => cases same
      | cons name conjured => cases same
  | succ rounds ih =>
      obtain ⟨_, _, standing⟩ := derives.exists_standing
      obtain ⟨acceptable, listed, -⟩ :=
        Automaton.exists_acceptable sound.proper standing.linked
      simp only [Grammar.finishWithin, listed, lift_ok_bind] at finished
      split at finished
      · obtain ⟨outcome, fed, reads⟩ :=
          exists_reads sound standing endMarker (.conjured endMarker eof)
        simp only [fed, lift_ok_bind] at finished
        cases outcome with
        | shifted forest stack => cases finished
        | refused forest stack => cases finished
        | accepted forest value stack =>
            obtain ⟨rfl, same⟩ := Prod.mk.inj (Except.ok.inj finished)
            obtain rfl : conjured = [] := List.map_eq_nil_iff.1 same.symm
            simpa using derives.accepted sound reads
      · cases chosen : grammar.repairs.find? acceptable.contains with
        | none =>
            rw [chosen] at finished
            have same := congrArg Prod.snd (Except.ok.inj finished)
            cases conjured with
            | nil => cases same
            | cons name conjured => cases same
        | some name =>
            simp only [chosen] at finished
            obtain ⟨outcome, fed, reads⟩ :=
              exists_reads sound standing name (.conjured name eof)
            simp only [fed, lift_ok_bind] at finished
            cases outcome with
            | accepted forest value stack => cases finished
            | refused forest stack => cases finished
            | shifted forest stack =>
                obtain ⟨⟨tree', repairs⟩, finished', made⟩ := exists_of_bind_eq_ok finished
                obtain ⟨rfl, same⟩ := Prod.mk.inj (Except.ok.inj made)
                obtain ⟨first, later, rfl, closed, rfl⟩ := List.map_eq_cons_iff.1 same.symm
                obtain rfl : name = first := (Repair.closed.inj closed).symm
                have reads' : grammar.Reads (nameOf (.conjured name eof)) (.conjured name eof)
                    parser (.shifted forest stack) := (names name).symm ▸ reads
                have rest := ih (derives.shifted sound reads') finished'
                rw [List.append_assoc] at rest
                exact rest

end Sound

end Derives

theorem Completes.rule_eq (sound : grammar.Sound) {rule : String} {children : List SyntaxTree}
    {full : SyntaxTree} (completes : grammar.Completes nameOf read (.node rule children) full) :
    rule = grammar.table.start := by
  have condensed := completes.condensed
  cases full with
  | leaf terminal => cases condensed
  | node own below =>
      obtain rfl : own = grammar.table.start := completes.start
      rw [SyntaxTree.condense, SyntaxTree.settle_of_not_transparent sound.rooted] at condensed
      exact (SyntaxTree.node.inj condensed).1

/-- A parse without repairs among the tokens in which the end is reached has made a derivation. -/
theorem exists_completes (sound : grammar.Sound) {stream : TokenStream} {parse : Parse}
    (parsed : grammar.parse stream = .ok parse) {conjured : List String}
    (closed : parse.repairs = conjured.map .closed) :
    ∃ full children, grammar.Completes (grammar.leafName stream) (stream.leavesWith conjured)
        (.node grammar.table.start children) full ∧
      parse.tree = .ofSyntaxTree stream grammar.vocabulary (grammar.leafTerminal stream)
        (grammar.positions stream []) [] (.node grammar.table.start children) := by
  obtain ⟨last, repairs, stepped, advances⟩ :=
    exists_steps sound stream.visiblePlaced (standing_initial grammar)
  simp only [Grammar.parse, stepped, ok_bind] at parsed
  obtain ⟨⟨tree, endRepairs⟩, finished, made⟩ := exists_of_bind_eq_ok parsed
  obtain rfl := Except.ok.inj made
  simp only at closed
  have none : repairs = [] := by
    rw [List.eq_nil_iff_forall_not_mem]
    intro repair member
    have listed : repair ∈ conjured.map Repair.closed := closed ▸ List.mem_append_left _ member
    obtain ⟨name, -, rfl⟩ := List.mem_map.1 listed
    exact advances.ne_closed _ member name rfl
  have names : ∀ token index, (token, index) ∈ stream.visiblePlaced →
      grammar.leafName stream (.token index) = grammar.terminalOf token := by
    intro token index member
    rw [leafName, (TokenStream.mem_visiblePlaced.1 member).1, Option.elim_some]
  subst none
  rw [List.nil_append] at closed
  subst closed
  have derives := (Derives.initial grammar _).advances sound advances rfl names
  obtain ⟨_, _, standing⟩ := derives.exists_standing
  obtain ⟨_, _, finished', -, finishes⟩ :=
    exists_finishWithin sound (stream.size - 1) maxRepairs standing
  obtain ⟨rfl, -⟩ := Prod.mk.inj (Except.ok.inj (finished'.symm.trans finished))
  obtain ⟨rule, children, rfl⟩ := finishes.rooted
  obtain ⟨full, completes⟩ := derives.finishWithin sound (fun _ => rfl) finished
  obtain rfl := completes.rule_eq sound
  refine ⟨full, children, ?_, rfl⟩
  rw [TokenStream.leavesWith, TokenStream.visiblePositions, List.map_map]
  exact completes

theorem map_leafName_leavesWith (grammar : Grammar) (stream : TokenStream)
    (conjured : List String) :
    (stream.leavesWith conjured).map (grammar.leafName stream) =
      stream.visible.map grammar.terminalOf ++ conjured := by
  rw [TokenStream.leavesWith, List.map_append, List.map_map, List.map_map,
    TokenStream.visiblePositions, List.map_map, ← stream.map_fst_visiblePlaced, List.map_map]
  congr 1
  · apply List.map_congr_left
    intro placed member
    obtain ⟨found, -⟩ := TokenStream.mem_visiblePlaced.1 member
    simp [leafName, found]
  · exact List.map_id conjured

end Grammar

end Typeahead
