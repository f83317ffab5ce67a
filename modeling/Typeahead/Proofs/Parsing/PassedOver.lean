import Typeahead.Proofs.Automaton.Trail
import Typeahead.Proofs.Forest.Outgrowing
import Typeahead.Proofs.Parsing.Run
import Typeahead.Proofs.Parsing.Trial
import Typeahead.Proofs.Tokenizing

namespace Typeahead

/-!
Tokens that are passed over.  The parser keeps the reductions that it made for such a token, and its
lists keep what the trials in front of the token have appended to them.  The trees on its stack are
the same as before just when all those reductions are silent and no trial appends to the list of a
value on the stack.  What it would take next is the same just when those reductions leave every
terminal as it was.
-/

/-- The trees of the values on the stack, the topmost first. -/
def LiveParser.trees (parser : LiveParser) : List SyntaxTree :=
  parser.stack.map fun frame => parser.forest.tree frame.value

namespace Grammar

/-- The flag stays as long as all reductions are silent. -/
def silentReduce (transparent : List String) : Marking :=
  fun silent production _ => (silent && production.isSilent transparent, false)

/-- Whether the reductions for a terminal that is refused are all silent. -/
def silentFor (grammar : Grammar) (terminal : String) (stack : List (Frame Branch)) : Bool :=
  match grammar.automaton.feed (silentReduce grammar.transparent) terminal false true
      (stack.map (Frame.map fun _ => false)) with
  | .ok (.refused silent _) => silent
  | _ => false

/-- The flag is set when something is appended to a marked list.  A production with one symbol hands
the list of an inlined value on. -/
def touchReduce (touched : Bool) (production : Production) : List Bool → Bool × Bool
  | [mark] => (touched, mark && production.symbols.head?.any isInlined)
  | marks => markReduce touched production marks

/-- Whether the trial to make up the terminal `name` in front of a token comes to nothing and
appends to the list of a value on the stack. -/
def touches (grammar : Grammar) (terminal : String) (stack : List (Frame Branch))
    (name : String) : Bool :=
  grammar.trial? touchReduce terminal name (stack.map (Frame.map Branch.namesList)) == some true

/-- Whether no trial in front of a token touches the stack. -/
def spares (grammar : Grammar) (terminal : String) (stack : List (Frame Branch)) : Bool :=
  match grammar.automaton.acceptable stack with
  | .ok names => !(grammar.repairs.filter names.contains).any (grammar.touches terminal stack)
  | .error _ => true

/-- Whether passing over a token leaves the trees on the stack as they are. -/
def keepsTrees (grammar : Grammar) (terminal : String) (index : Nat) (parser : LiveParser) : Bool :=
  match grammar.feed terminal (.token index) parser with
  | .ok (.refused _ stack) =>
      grammar.silentFor terminal parser.stack && grammar.spares terminal stack
  | _ => true

/-- Whether the reductions for a token that is refused leave all terminals as they were, taken or
not. -/
def keepsTaken (grammar : Grammar) (terminal : String) (index : Nat) (parser : LiveParser) : Bool :=
  match grammar.feed terminal (.token index) parser with
  | .ok (.refused _ stack) =>
      (grammar.automaton.choices (Automaton.topState parser.stack)).all
        (grammar.automaton.unaffected (grammar.automaton.trail terminal parser.stack) parser.stack
          stack)
  | _ => true

/-- Whether passing over a token changes neither the trees on the stack nor what the parser would
take. -/
def unnoticed (grammar : Grammar) (terminal : String) (index : Nat) (parser : LiveParser) : Bool :=
  grammar.keepsTrees terminal index parser && grammar.keepsTaken terminal index parser

/-- No transparent rule stands for an inlined symbol alone. -/
def Unwrapping (grammar : Grammar) : Prop :=
  ∀ production ∈ grammar.table.productions, ∀ symbol, production.symbols = [symbol] →
    isInlined symbol = true → grammar.transparent.contains production.origin = false

/-- No production uses the start. -/
def Topmost (grammar : Grammar) : Prop :=
  ∀ production ∈ grammar.table.productions, grammar.table.start ∉ production.symbols

variable {grammar : Grammar} {level : Nat → Nat} {symbols : List String} {parser : LiveParser}
  {terminal name : String} {leaf : Leaf} {index : Nat} {forest last : Forest}
  {stack : List (Frame Branch)} {weigh : String → Nat}

/-- A weight for the rules of the grammar that rises along productions with one symbol. -/
structure Weighs (grammar : Grammar) (weigh : String → Nat) : Prop where
  positive : ∀ rule, 0 < weigh rule
  rises : ∀ production ∈ grammar.table.productions, ∀ symbol, production.symbols = [symbol] →
    weigh symbol < weigh production.origin

theorem exists_weighs (sound : grammar.Sound) : ∃ weigh, grammar.Weighs weigh := by
  obtain ⟨rank, bounded, units⟩ := sound.proper.ranked
  refine ⟨fun rule => grammar.table.productions.size + 1 - rank rule, ?_, ?_⟩
  · intro rule
    have low := bounded rule
    omega
  · intro production member symbol single
    have low := bounded symbol
    have falls := units production member symbol single
    omega

/-- A parser at work whose inlined values are nodes of their rules. -/
structure Settled (grammar : Grammar) (level : Nat → Nat) (symbols : List String)
    (parser : LiveParser) : Prop where
  standing : grammar.Standing level symbols parser
  labeled : Forest.Labeled (parser.row symbols)

theorem settled_initial (grammar : Grammar) : grammar.Settled (fun _ => 0) [] .initial where
  standing := standing_initial grammar
  labeled := by
    intro symbol rule list member
    cases member

theorem rowTrees_row (linked : grammar.automaton.Linked symbols parser.stack) :
    parser.forest.rowTrees (parser.row symbols) = parser.trees.reverse := by
  have values := linked.map_snd_row
  have split : parser.forest.rowTrees (parser.row symbols) =
      ((parser.row symbols).map (·.2)).map parser.forest.tree := by
    simp [Forest.rowTrees]
  rw [split, LiveParser.row, values, ← List.map_reverse, List.map_map]
  simp [LiveParser.trees, Function.comp_def]

namespace Settled

section Sound

variable (sound : grammar.Sound) (settled : grammar.Settled level symbols parser)

include sound settled

theorem run (run : Automaton.Runs (Forest.reduce grammar.transparent) terminal grammar.automaton
    parser.forest parser.stack forest stack) :
    ∃ level' symbols', grammar.Settled level' symbols' ⟨forest, stack⟩ := by
  have kept := run.row_induction settled.standing.linked
    (P := fun forest row => ∃ level, Forest.Leveled level forest ∧
      Forest.RowFits level forest 0 row ∧ Forest.Labeled row)
    ⟨level, settled.standing.leveled, settled.standing.fits, settled.labeled⟩ ?_
  · obtain ⟨symbols', linked, level', leveled, fits, labeled⟩ := kept
    exact ⟨level', symbols', ⟨linked, leveled, fits⟩, labeled⟩
  · intro forest below production branches member sized holds
    obtain ⟨level, leveled, fits, labeled⟩ := holds
    have inlinable := sound.inlinable production member
    have carried := Forest.carried_reduce leveled fits sized inlinable
    exact ⟨_, carried.leveled, carried.fits,
      Forest.labeled_reduce forest labeled fun inlined => (inlinable inlined).2⟩

theorem shifted (reads : grammar.Reads terminal leaf parser (.shifted forest stack)) :
    ∃ level' symbols', grammar.Settled level' symbols' ⟨forest, stack⟩ := by
  cases reads with
  | @shifted _ lastStack next run move =>
      obtain ⟨level', symbols', settled⟩ := settled.run sound run
      have top : (⟨forest, ⟨next, .leaf leaf⟩ :: lastStack⟩ : LiveParser).row
          (terminal :: symbols') =
            (⟨forest, lastStack⟩ : LiveParser).row symbols' ++ [(terminal, .leaf leaf)] :=
        Automaton.row_cons settled.standing.linked.length_eq
      refine ⟨level', terminal :: symbols', ⟨.cons move settled.standing.linked,
        settled.standing.leveled, ?_⟩, ?_⟩
      · rw [top]
        exact Forest.rowFits_leaf _ _ settled.standing.fits
      · rw [top]
        apply Forest.labeled_concat settled.labeled
        intro rule list same
        cases same

theorem refused (reads : grammar.Reads terminal leaf parser (.refused forest stack)) :
    ∃ level' symbols', grammar.Settled level' symbols' ⟨forest, stack⟩ := by
  cases reads with
  | refused run _ => exact settled.run sound run

end Sound

variable (sound : grammar.Sound) (inner : terminal ≠ endMarker)

include sound inner

theorem discards {names : List String}
    (settled : grammar.Settled level symbols ⟨forest, stack⟩)
    (discards : grammar.Discards terminal index stack names forest last) :
    ∃ level', grammar.Settled level' symbols ⟨last, stack⟩ := by
  obtain ⟨level', passage⟩ := discards.passage sound inner settled.standing
  exact ⟨level', passage.standing, settled.labeled⟩

theorem advance {next : LiveParser} {repair : Option Repair}
    (settled : grammar.Settled level symbols parser)
    (advance : grammar.Advance terminal index parser next repair) :
    ∃ level' symbols', grammar.Settled level' symbols' next := by
  cases advance with
  | taken _ reads => exact settled.shifted sound reads
  | inserted _ reads _ discards inserts =>
      obtain ⟨_, _, settled⟩ := settled.refused sound reads
      obtain ⟨_, settled⟩ := settled.discards sound inner discards
      cases inserts with
      | mk _ conjures _ follows =>
          obtain ⟨_, _, settled⟩ := settled.shifted sound conjures
          exact settled.shifted sound follows
  | skipped _ reads _ discards =>
      obtain ⟨_, symbols', settled⟩ := settled.refused sound reads
      obtain ⟨level', settled⟩ := settled.discards sound inner discards
      exact ⟨level', symbols', settled⟩

omit inner

theorem advances {placed : List (Token × Nat)} {last : LiveParser} {repairs : List Repair}
    (settled : grammar.Settled level symbols parser)
    (advances : grammar.Advances placed parser last repairs) :
    ∃ level' symbols', grammar.Settled level' symbols' last := by
  induction advances generalizing level symbols with
  | nil => exact ⟨level, symbols, settled⟩
  | cons _ advance _ ih =>
      obtain ⟨_, _, settled⟩ := settled.advance sound (terminalOf_ne_endMarker sound _) advance
      exact ih settled

end Settled

/-- What reductions have made of a row whose trees were `before`: with the flag still set its trees
are the same, without it they have been outgrown. -/
structure Changes (weigh : String → Nat) (before : List SyntaxTree) (store : Forest × Bool)
    (row : List (String × Branch)) : Prop where
  settled : ∃ level, Forest.Leveled level store.1 ∧ Forest.RowFits level store.1 0 row ∧
    Forest.Labeled row
  silent : store.2 = true → store.1.rowTrees row = before
  loud : store.2 = false → SyntaxTree.Outgrown weigh before (store.1.rowTrees row)

section Silent

variable (sound : grammar.Sound) (unwrapping : grammar.Unwrapping) (weighs : grammar.Weighs weigh)

include sound unwrapping weighs

theorem Changes.reduce {before : List SyntaxTree} {store : Forest × Bool}
    {below : List (String × Branch)} {production : Production} {branches : List Branch}
    (changes : Changes weigh before store (below ++ production.symbols.zip branches))
    (member : production ∈ grammar.table.productions) (nonempty : production.symbols ≠ [])
    (sized : branches.length = production.symbols.length) :
    Changes weigh before ((store.1.reduce grammar.transparent production branches).1,
        store.2 && production.isSilent grammar.transparent)
      (below ++ [(production.origin,
        (store.1.reduce grammar.transparent production branches).2)]) := by
  obtain ⟨level, leveled, fits, labeled⟩ := changes.settled
  have inlinable := sound.inlinable production member
  have carried := Forest.carried_reduce leveled fits sized inlinable
  have single : ∀ symbol, production.symbols = [symbol] →
      weigh symbol < weigh production.origin ∧
        (isInlined symbol = true → grammar.transparent.contains production.origin = false) :=
    fun symbol alone =>
      ⟨weighs.rises production member symbol alone, unwrapping production member symbol alone⟩
  refine ⟨⟨_, carried.leveled, carried.fits,
    Forest.labeled_reduce store.1 labeled fun inlined => (inlinable inlined).2⟩, ?_, ?_⟩
  · intro silent
    obtain ⟨flag, own⟩ := Bool.and_eq_true_iff.1 silent
    rw [← changes.silent flag]
    exact Forest.rowTrees_reduce_of_silent leveled fits labeled sized weighs.positive single own
  · intro loud
    cases own : production.isSilent grammar.transparent with
    | true =>
        have same := Forest.rowTrees_reduce_of_silent leveled fits labeled sized weighs.positive
          single own
        rw [own, Bool.and_true] at loud
        rw [same]
        exact changes.loud loud
    | false =>
        have step := Forest.outgrown_reduce leveled fits labeled sized weighs.positive single
          nonempty own
        cases flag : store.2 with
        | true => exact changes.silent flag ▸ step
        | false => exact (changes.loud flag).trans step

/-- A refused terminal leaves the trees of the stack as they are if the reductions for it are
silent, and otherwise the stack has outgrown them. -/
theorem Settled.refused_cases (inner : terminal ≠ endMarker)
    (settled : grammar.Settled level symbols parser)
    (fed : grammar.feed terminal leaf parser = .ok (.refused forest stack)) :
    ∃ level' symbols', grammar.Settled level' symbols' ⟨forest, stack⟩ ∧
      (grammar.silentFor terminal parser.stack = true →
        forest.rowTrees (Automaton.row symbols' stack) =
          parser.forest.rowTrees (parser.row symbols)) ∧
      (grammar.silentFor terminal parser.stack = false →
        SyntaxTree.Outgrown weigh (parser.forest.rowTrees (parser.row symbols))
          (forest.rowTrees (Automaton.row symbols' stack))) := by
  have linked := linked_withMarks settled.standing.linked fun _ => false
  have fed' : grammar.feed terminal leaf ⟨parser.forest,
      (withMarks (fun _ => false) parser.stack).map (Frame.map (·.1))⟩ =
        .ok (.refused forest stack) := by
    rw [map_fst_withMarks]
    exact fed
  obtain ⟨paired, feeds, same, flagged⟩ :=
    exists_marked sound linked (silentReduce grammar.transparent) true fed'
  rw [map_snd_withMarks] at flagged
  cases paired with
  | shifted store stack => cases same
  | accepted store value stack => cases same
  | refused store marked =>
      rcases store with ⟨forest', silent⟩
      obtain ⟨rfl, rfl⟩ : forest' = forest ∧ marked.map (Frame.map (·.1)) = stack := by
        simpa [Outcome.map] using same
      have answer : grammar.silentFor terminal parser.stack = silent := by
        simp only [silentFor, flagged, Outcome.map]
      have row : (Automaton.row symbols (withMarks (fun _ => false) parser.stack)).map bare =
          parser.row symbols := by
        rw [← row_map_fst, map_fst_withMarks]
        rfl
      cases feeds with
      | refused run stuck =>
          have kept := run.row_induction_of_unread sound.proper inner linked
            (P := fun store row => Changes weigh (parser.forest.rowTrees (parser.row symbols)) store
              (row.map bare)) ?_ ?_ (Automaton.unread_of_stuck stuck)
          · obtain ⟨symbols', linked', changes⟩ := kept
            obtain ⟨level', leveled, fits, labeled⟩ := changes.settled
            rw [← row_map_fst] at fits labeled changes
            rw [answer]
            exact ⟨level', symbols', ⟨⟨linked'.map _, leveled, fits⟩, labeled⟩, changes.silent,
              changes.loud⟩
          · rw [row]
            exact ⟨⟨level, settled.standing.leveled, settled.standing.fits, settled.labeled⟩,
              fun _ => rfl, by simp⟩
          · intro store below production values member nonempty sized changes
            rw [List.map_append, map_bare_zip] at changes
            rw [List.map_append]
            exact changes.reduce sound unwrapping weighs member nonempty (by simpa using sized)

end Silent

/-- The mark that a production with one symbol hands on. -/
def handed : List (String × (Branch × Bool)) → Bool
  | [(symbol, _, mark)] => mark && isInlined symbol
  | _ => false

theorem touchReduce_eq (touched : Bool) {production : Production} {values : List (Branch × Bool)}
    (sized : values.length = production.symbols.length) :
    touchReduce touched production (values.map (·.2)) =
      (touched || marked (production.symbols.zip values),
        handed (production.symbols.zip values)) := by
  rcases production with ⟨origin, symbols⟩
  match symbols, values, sized with
  | [], [], _ => simp [touchReduce, markReduce, marked, handed]
  | [_], [_], _ => simp [touchReduce, marked, handed]
  | _ :: _ :: _, _ :: _ :: _, _ => simp [touchReduce, markReduce, marked, handed]

/-- A trial from the row `kept` of `forest`.  As long as nothing has been appended to the list of a
value in that row, a mark says that a value has such a list, and inlined values without one have
lists of the trial. -/
structure Touching (forest : Forest) (kept : List (String × Branch)) (store : Forest × Bool)
    (row : List (String × (Branch × Bool))) : Prop where
  fits : ∃ level, Forest.Leveled level store.1 ∧ Forest.RowFits level store.1 0 (row.map bare)
  extended : forest.Extends store.1
  shared : store.2 = false → ∀ value ∈ row, value.2.2 = true →
    ∃ symbol rule other list, (symbol, .node rule list) ∈ kept ∧ value.2.1 = .node other list
  alone : store.2 = false → ∀ value ∈ row, value.2.2 = false → isInlined value.1 = true →
    ∀ rule list, value.2.1 = .node rule list → forest.lists.size ≤ list
  untouched : store.2 = false →
    ∀ list < forest.lists.size, store.1.children list = forest.children list
  touched : store.2 = true → ∃ symbol rule list, (symbol, .node rule list) ∈ kept ∧
    (forest.children list).size < (store.1.children list).size

namespace Touching

variable {kept : List (String × Branch)} {store : Forest × Bool}
  {row : List (String × (Branch × Bool))}

theorem refl (leveled : Forest.Leveled level forest) (fits : Forest.RowFits level forest 0 kept) :
    Touching forest kept (forest, false) (kept.map live) where
  fits := ⟨level, leveled, by rwa [map_bare_live]⟩
  extended := .refl forest
  shared := by
    intro _ value member mark
    obtain ⟨⟨symbol, branch⟩, listed, rfl⟩ := List.mem_map.1 member
    cases branch with
    | leaf terminal => cases mark
    | node rule list => exact ⟨symbol, rule, rule, list, listed, rfl⟩
  alone := by
    intro _ value member unmarked _ rule list same
    obtain ⟨⟨symbol, branch⟩, -, rfl⟩ := List.mem_map.1 member
    cases branch with
    | leaf terminal => cases same
    | node other list => cases unmarked
  untouched := fun _ _ _ => rfl
  touched := by simp

theorem concat_leaf (touching : Touching forest kept store row) (symbol : String)
    (terminal : Leaf) : Touching forest kept store (row ++ [(symbol, .leaf terminal, false)]) where
  fits := by
    obtain ⟨level, leveled, fits⟩ := touching.fits
    rw [List.map_append]
    exact ⟨level, leveled, Forest.rowFits_leaf _ _ fits⟩
  extended := touching.extended
  shared := by
    intro untouched value member mark
    rcases List.mem_append.1 member with old | new
    · exact touching.shared untouched value old mark
    · rw [List.mem_singleton.1 new] at mark
      cases mark
  alone := by
    intro untouched value member unmarked inlined rule list same
    rcases List.mem_append.1 member with old | new
    · exact touching.alone untouched value old unmarked inlined rule list same
    · rw [List.mem_singleton.1 new] at same
      cases same
  untouched := touching.untouched
  touched := touching.touched

section Reduced

variable {below : List (String × (Branch × Bool))} {production : Production}
  {values : List (Branch × Bool)} {transparent : List String}
  (touching : Touching forest kept store (below ++ production.symbols.zip values))
  (untouched : store.2 = false)

include touching untouched

/-- An inlined first value that is neither appended to nor handed on has a list of the trial. -/
theorem size_le_of_unmarked {symbol rule : String} {list : Nat} {rest : List (String × Branch)}
    (split : production.symbols.zip (values.map (·.1)) = (symbol, .node rule list) :: rest)
    (inlined : isInlined symbol = true)
    (unmarked : marked (production.symbols.zip values) = false)
    (unhanded : handed (production.symbols.zip values) = false ∨ rest ≠ []) :
    forest.lists.size ≤ list := by
  rw [← map_bare_zip] at split
  obtain ⟨⟨symbol', branch, mark⟩, others, taken, same, rfl⟩ := List.map_eq_cons_iff.1 split
  obtain ⟨rfl, rfl⟩ := Prod.mk.inj same
  have here : (symbol', .node rule list, mark) ∈ below ++ production.symbols.zip values := by
    simp [taken]
  rw [taken] at unmarked unhanded
  have plain : mark = false := by
    cases others with
    | nil =>
        rcases unhanded with unhanded | filled
        · simpa [handed, inlined] using unhanded
        · exact absurd rfl filled
    | cons second others => simpa [marked, inlined] using unmarked
  exact touching.alone untouched _ here plain inlined rule list rfl

variable {height : Nat}
  (fitting : Forest.RowFits level store.1 height (production.symbols.zip (values.map (·.1))))

include fitting

theorem children_reduce (unmarked : marked (production.symbols.zip values) = false) {list : Nat}
    (inside : list < forest.lists.size) :
    (store.1.reduce transparent production (values.map (·.1))).1.children list =
      forest.children list := by
  rw [← touching.untouched untouched list inside]
  apply Forest.children_reduce fitting (Nat.lt_of_lt_of_le inside touching.extended.size_le)
  intro appended
  obtain ⟨symbol, rule, rest, split⟩ := Forest.exists_of_appendedTo? appended
  cases rest with
  | nil => simp [split, Forest.appendedTo?] at appended
  | cons second rest =>
      have inlined : isInlined symbol = true := by
        simpa [split, Forest.appendedTo?] using appended
      have own := size_le_of_unmarked touching untouched split inlined unmarked (.inr (by simp))
      omega

theorem exists_touched (trace : marked (production.symbols.zip values) = true) :
    ∃ symbol rule list, (symbol, .node rule list) ∈ kept ∧ (forest.children list).size <
      ((store.1.reduce transparent production (values.map (·.1))).1.children list).size := by
  match taken : production.symbols.zip values, trace with
  | (symbol, branch, mark) :: second :: rest, trace =>
      obtain ⟨rfl, inlined⟩ : mark = true ∧ isInlined symbol = true := by
        simpa [marked] using trace
      have here : (symbol, branch, true) ∈ below ++ production.symbols.zip values := by
        simp [taken]
      obtain ⟨named, rule, other, list, listed, same⟩ := touching.shared untouched _ here rfl
      obtain rfl : branch = .node other list := same
      have split : production.symbols.zip (values.map (·.1)) =
          (symbol, .node other list) :: bare second :: rest.map bare := by
        rw [← map_bare_zip, taken]
        rfl
      refine ⟨named, rule, list, listed, ?_⟩
      have longer : (store.1.children list).size <
          ((store.1.reduce transparent production (values.map (·.1))).1.children list).size :=
        Forest.size_children_lt_reduce fitting split inlined
      have shorter := (touching.extended.children_prefix list).length_le
      simp only [Array.length_toList] at shorter
      omega

theorem exists_shared (sized : values.length = production.symbols.length)
    (unwrapping : ∀ symbol, production.symbols = [symbol] → isInlined symbol = true →
      transparent.contains production.origin = false)
    (mark : handed (production.symbols.zip values) = true) :
    ∃ symbol rule other list, (symbol, .node rule list) ∈ kept ∧
      (store.1.reduce transparent production (values.map (·.1))).2 = .node other list := by
  match taken : production.symbols.zip values, mark with
  | [(symbol, branch, mark)], trace =>
      obtain ⟨rfl, inlined⟩ : mark = true ∧ isInlined symbol = true := by
        simpa [handed] using trace
      have here : (symbol, branch, true) ∈ below ++ production.symbols.zip values := by
        simp [taken]
      obtain ⟨named, rule, other, list, listed, same⟩ := touching.shared untouched _ here rfl
      obtain rfl : branch = .node other list := same
      have single : production.symbols = [symbol] := by
        have symbols := congrArg (List.map Prod.fst) taken
        rwa [List.map_fst_zip (Nat.le_of_eq sized.symm)] at symbols
      have split : production.symbols.zip (values.map (·.1)) = [(symbol, .node other list)] := by
        rw [← map_bare_zip, taken]
        rfl
      have made : (store.1.reduce transparent production (values.map (·.1))).2 =
          .node production.origin list := by
        rw [Forest.reduce_eq_node fitting (unwrapping symbol single inlined), split,
          Forest.assemble, if_pos inlined]
      exact ⟨named, rule, production.origin, list, listed, made⟩

theorem size_le_reduce (kept : transparent.contains production.origin = false)
    (unmarked : marked (production.symbols.zip values) = false)
    (unhanded : handed (production.symbols.zip values) = false) {rule : String} {list : Nat}
    (same : (store.1.reduce transparent production (values.map (·.1))).2 = .node rule list) :
    forest.lists.size ≤ list := by
  rw [Forest.reduce_eq_node fitting kept] at same
  obtain ⟨-, rfl⟩ := Branch.node.inj same
  rcases store.1.assemble_cases (production.symbols.zip (values.map (·.1))) with
    fresh | ⟨symbol, other, list, rest, split, inlined, appended⟩
  · rw [fresh]
    exact touching.extended.size_le
  · rw [appended]
    exact size_le_of_unmarked touching untouched split inlined unmarked (.inl unhanded)

end Reduced

theorem reduce {below : List (String × (Branch × Bool))} {production : Production}
    {values : List (Branch × Bool)} {transparent : List String}
    (touching : Touching forest kept store (below ++ production.symbols.zip values))
    (sized : values.length = production.symbols.length)
    (inlinable : isInlined production.origin = true →
      production.symbols ≠ [] ∧ transparent.contains production.origin = false)
    (unwrapping : ∀ symbol, production.symbols = [symbol] → isInlined symbol = true →
      transparent.contains production.origin = false) :
    Touching forest kept (pairReduce touchReduce transparent store production values).1
      (below ++ [(production.origin,
        (pairReduce touchReduce transparent store production values).2)]) := by
  obtain ⟨level, leveled, fits⟩ := touching.fits
  rw [List.map_append, map_bare_zip] at fits
  obtain ⟨-, fitting⟩ := Forest.rowFits_append.1 fits
  have counted : (values.map (·.1)).length = production.symbols.length := by
    rw [List.length_map, sized]
  have carried := Forest.carried_reduce leveled fits counted inlinable
  have grown : store.1.Extends (store.1.reduce transparent production (values.map (·.1))).1 :=
    (Forest.growth_reduce fitting).extended
  have made : pairReduce touchReduce transparent store production values =
      (((store.1.reduce transparent production (values.map (·.1))).1,
        store.2 || marked (production.symbols.zip values)),
        ((store.1.reduce transparent production (values.map (·.1))).2,
          handed (production.symbols.zip values))) := by
    simp only [pairReduce, touchReduce_eq store.2 sized]
  rw [made]
  refine ⟨⟨_, carried.leveled, ?_⟩, touching.extended.trans grown, ?_, ?_, ?_, ?_⟩
  · rw [List.map_append]
    exact carried.fits
  · intro clean value member mark
    obtain ⟨untouched, -⟩ := Bool.or_eq_false_iff.1 clean
    rcases List.mem_append.1 member with old | new
    · exact touching.shared untouched value (List.mem_append_left _ old) mark
    · rw [List.mem_singleton.1 new] at mark ⊢
      exact touching.exists_shared untouched fitting sized unwrapping mark
  · intro clean value member unhanded inlined rule list same
    obtain ⟨untouched, unmarked⟩ := Bool.or_eq_false_iff.1 clean
    rcases List.mem_append.1 member with old | new
    · exact touching.alone untouched value (List.mem_append_left _ old) unhanded inlined rule list
        same
    · rw [List.mem_singleton.1 new] at unhanded inlined same
      exact touching.size_le_reduce untouched fitting (inlinable inlined).2 unmarked unhanded same
  · intro clean list inside
    obtain ⟨untouched, unmarked⟩ := Bool.or_eq_false_iff.1 clean
    exact touching.children_reduce untouched fitting unmarked inside
  · intro trace
    cases flag : store.2 with
    | true =>
        obtain ⟨symbol, rule, list, listed, longer⟩ := touching.touched flag
        have kept := (grown.children_prefix list).length_le
        simp only [Array.length_toList] at kept
        exact ⟨symbol, rule, list, listed, Nat.lt_of_lt_of_le longer kept⟩
    | false =>
        rw [flag, Bool.false_or] at trace
        exact touching.exists_touched flag fitting trace

end Touching

section Spared

variable (sound : grammar.Sound) (unwrapping : grammar.Unwrapping) (weighs : grammar.Weighs weigh)

include sound unwrapping weighs

/-- A trial that comes to nothing leaves the trees of the stack as they are, unless it touches the
stack: then the stack has outgrown them. -/
theorem trial_cases {middle left : Forest} {trial stuck : List (Frame Branch)}
    (standing : grammar.Standing level symbols ⟨forest, stack⟩)
    (fed : grammar.feed name (.conjured name index) ⟨forest, stack⟩ = .ok (.shifted middle trial))
    (fedAgain : grammar.feed terminal (.token index) ⟨middle, trial⟩ = .ok (.refused left stuck)) :
    (grammar.touches terminal stack name = false →
      left.rowTrees (Automaton.row symbols stack) =
        forest.rowTrees (Automaton.row symbols stack)) ∧
    (grammar.touches terminal stack name = true →
      SyntaxTree.Outgrown weigh (forest.rowTrees (Automaton.row symbols stack))
        (left.rowTrees (Automaton.row symbols stack))) := by
  have linked := linked_withMarks standing.linked Branch.namesList
  have row : Automaton.row symbols (withMarks Branch.namesList stack) =
      (Automaton.row symbols stack).map live :=
    Automaton.row_map _ symbols stack
  rw [← map_fst_withMarks Branch.namesList stack] at fed
  obtain ⟨flag, last, answer, touching⟩ := trial_induction sound linked touchReduce fed fedAgain
    (P := Touching forest (Automaton.row symbols stack))
    (row ▸ .refl standing.leveled standing.fits)
    (fun _ _ touching => touching.concat_leaf name _)
    (fun _ _ production _ member sized touching => touching.reduce sized
      (sound.inlinable production member) (unwrapping production member))
  obtain ⟨level', leveled, -⟩ := touching.fits
  have same : grammar.touches terminal stack name = flag := by
    rw [touches, ← map_snd_withMarks, answer]
    cases flag <;> rfl
  rw [same]
  constructor
  · intro untouched
    exact Forest.rowTrees_congr standing.leveled standing.fits touching.extended.size_le
      (touching.untouched untouched)
  · intro touched
    obtain ⟨symbol, rule, list, listed, longer⟩ := touching.touched touched
    exact touching.extended.outgrown_of_longer weighs.positive standing.leveled leveled listed
      longer

theorem Discards.trees_cases (inner : terminal ≠ endMarker) {names : List String}
    (discards : grammar.Discards terminal index stack names forest last)
    (standing : grammar.Standing level symbols ⟨forest, stack⟩) :
    (names.any (grammar.touches terminal stack) = false →
      last.rowTrees (Automaton.row symbols stack) =
        forest.rowTrees (Automaton.row symbols stack)) ∧
    (names.any (grammar.touches terminal stack) = true →
      SyntaxTree.Outgrown weigh (forest.rowTrees (Automaton.row symbols stack))
        (last.rowTrees (Automaton.row symbols stack))) := by
  induction discards generalizing level with
  | nil => simp
  | @cons name names forest middle left last trial stuck fed conjures fedAgain refuses more ih =>
      obtain ⟨untouched, touched⟩ := trial_cases sound unwrapping weighs standing fed fedAgain
      obtain ⟨_, first⟩ := passage_of_trial sound inner standing conjures refuses
      obtain ⟨_, rest⟩ := more.passage sound inner first.standing
      obtain ⟨same, outgrown⟩ := ih first.standing
      rw [List.any_cons]
      cases here : grammar.touches terminal stack name with
      | true =>
          rw [Bool.true_or]
          exact ⟨by simp, fun _ => rest.growth.extended.outgrown (touched here)⟩
      | false =>
          rw [Bool.false_or, ← untouched here]
          exact ⟨same, outgrown⟩

/-- The trees on the stack are the same behind a token that is passed over just when the reductions
for it are silent and no trial touches the stack. -/
theorem Settled.trees_eq_iff (inner : terminal ≠ endMarker)
    (settled : grammar.Settled level symbols parser) {next : LiveParser} {repair : Nat}
    (advance : grammar.Advance terminal index parser next (some (.skipped repair))) :
    next.trees = parser.trees ↔ grammar.keepsTrees terminal index parser = true := by
  cases advance with
  | @skipped middle left stack tried fed reads tries discards =>
      obtain ⟨_, symbols', settled', silent, loud⟩ :=
        settled.refused_cases sound unwrapping weighs inner fed
      obtain ⟨spared, outgrown⟩ :=
        discards.trees_cases sound unwrapping weighs inner settled'.standing
      obtain ⟨_, passage⟩ := discards.passage sound inner settled'.standing
      have rows : (⟨left, stack⟩ : LiveParser).trees = parser.trees ↔
          left.rowTrees (Automaton.row symbols' stack) =
            parser.forest.rowTrees (parser.row symbols) := by
        rw [rowTrees_row settled.standing.linked, ← List.reverse_inj]
        have after : left.rowTrees (Automaton.row symbols' stack) =
            (⟨left, stack⟩ : LiveParser).trees.reverse := rowTrees_row passage.standing.linked
        rw [after]
      have answer : grammar.keepsTrees terminal index parser =
          (grammar.silentFor terminal parser.stack &&
            !tried.any (grammar.touches terminal stack)) := by
        obtain ⟨names, listed, rfl⟩ := tries
        simp only [keepsTrees, fed, spares, listed]
      rw [rows, answer]
      cases quiet : grammar.silentFor terminal parser.stack with
      | false =>
          have changed := passage.growth.extended.outgrown (loud quiet)
          simpa using changed.ne
      | true =>
          rw [← silent quiet, Bool.true_and]
          cases touched : tried.any (grammar.touches terminal stack) with
          | true => simpa using (outgrown touched).ne
          | false => simpa using spared touched

omit unwrapping weighs in
/-- The parser takes the same terminals behind a token that is refused just when the reductions for
it leave all of them as they were. -/
theorem keepsTaken_iff (topmost : grammar.Topmost) (inner : terminal ≠ endMarker)
    (standing : grammar.Standing level symbols parser)
    (fed : grammar.feed terminal (.token index) parser = .ok (.refused forest stack))
    {names others : List String}
    (before : grammar.automaton.acceptable parser.stack = .ok names)
    (after : grammar.automaton.acceptable stack = .ok others) :
    (∀ name, name ∈ others ↔ name ∈ names) ↔
      grammar.keepsTaken terminal index parser = true := by
  have unread := move?_endMarker sound
  have refuses := Automaton.Refuses.of_feedUpTo sound.proper topmost inner standing.linked fed
  obtain ⟨_, linked⟩ := refuses.exists_linked
  obtain ⟨_, same, members⟩ := Automaton.exists_acceptable sound.proper standing.linked
  obtain rfl := Except.ok.inj (before.symm.trans same)
  obtain ⟨_, same, members'⟩ := Automaton.exists_acceptable sound.proper linked
  obtain rfl := Except.ok.inj (after.symm.trans same)
  simp only [keepsTaken, fed, List.all_eq_true]
  constructor
  · intro alike name choice
    have isTerminal := Automaton.isTerminal_of_mem_choices choice
    refine (refuses.unaffected_iff sound.proper unread isTerminal).2 ⟨?_, ?_⟩
    · intro takes
      have listed := (members' name).2
        ⟨Automaton.mem_choices_of_takes unread isTerminal takes, takes⟩
      exact ((members name).1 ((alike name).1 listed)).2
    · intro takes
      exact ((members' name).1 ((alike name).2 ((members name).2 ⟨choice, takes⟩))).2
  · intro spared name
    constructor
    · intro listed
      obtain ⟨choice, takes⟩ := (members' name).1 listed
      have isTerminal := Automaton.isTerminal_of_mem_choices choice
      have choice' := refuses.mem_choices_of_takes sound.proper unread isTerminal takes
      have iff := (refuses.unaffected_iff sound.proper unread isTerminal).1 (spared name choice')
      exact (members name).2 ⟨choice', iff.1 takes⟩
    · intro listed
      obtain ⟨choice, takes⟩ := (members name).1 listed
      have isTerminal := Automaton.isTerminal_of_mem_choices choice
      have iff := (refuses.unaffected_iff sound.proper unread isTerminal).1 (spared name choice)
      have takes' := iff.2 takes
      exact (members' name).2 ⟨Automaton.mem_choices_of_takes unread isTerminal takes', takes'⟩

theorem Settled.unnoticed_iff (topmost : grammar.Topmost) (inner : terminal ≠ endMarker)
    (settled : grammar.Settled level symbols parser) {next : LiveParser} {repair : Nat}
    (advance : grammar.Advance terminal index parser next (some (.skipped repair)))
    {names others : List String}
    (before : grammar.automaton.acceptable parser.stack = .ok names)
    (after : grammar.automaton.acceptable next.stack = .ok others) :
    (∀ name, name ∈ others ↔ name ∈ names) ∧ next.trees = parser.trees ↔
      grammar.unnoticed terminal index parser = true := by
  rw [unnoticed, Bool.and_eq_true, settled.trees_eq_iff sound unwrapping weighs inner advance,
    and_comm]
  cases advance with
  | skipped fed _ _ _ =>
      rw [keepsTaken_iff sound topmost inner settled.standing fed before after]

end Spared

section Turn

variable (sound : grammar.Sound)

include sound

theorem Advances.not_mem_skippedIndices {placed : List (Token × Nat)} {last : LiveParser}
    {repairs : List Repair} (advances : grammar.Advances placed parser last repairs)
    (standing : grammar.Standing level symbols parser) (apart : index ∉ placed.map (·.2)) :
    index ∉ Repair.skippedIndices repairs := by
  obtain ⟨_, _, _, -, -, perm⟩ := advances.passage sound standing
  intro skipped
  exact apart (perm.subset (List.mem_append_left _ skipped))

/-- A token that a parse lists as passed over was passed over when its turn came. -/
theorem exists_skip {stream : TokenStream} {parse : Parse}
    (parsed : grammar.parse stream = .ok parse) {front rest : List (Token × Nat)} {token : Token}
    (split : stream.visiblePlaced = front ++ (token, index) :: rest)
    (listed : .skipped index ∈ parse.repairs) :
    ∃ parser repairs next, grammar.steps front .initial = .ok (parser, repairs) ∧
      grammar.Advances front .initial parser repairs ∧
      grammar.step (grammar.terminalOf token) index parser = .ok (next, some (.skipped index)) ∧
      grammar.Advance (grammar.terminalOf token) index parser next (some (.skipped index)) := by
  have inner := terminalOf_ne_endMarker sound token
  have start := standing_initial grammar
  obtain ⟨parser, before, stepped, advances⟩ := exists_steps sound front start
  obtain ⟨_, _, _, reached, -⟩ := advances.passage sound start
  obtain ⟨next, repair, onward, advance⟩ := exists_advance sound inner index reached.standing
  obtain ⟨_, _, passed⟩ := advance.passage sound inner reached.standing
  obtain ⟨last, after, later, rest'⟩ := exists_steps sound rest passed.standing
  have whole : grammar.steps stream.visiblePlaced .initial =
      .ok (last, before ++ (repair.toList ++ after)) := by
    rw [split, steps_append, stepped]
    simp only [steps, onward, later, ok_bind]
    rfl
  obtain ⟨_, _, _, parsed', whole', skips⟩ := exists_parse sound stream
  obtain rfl := Except.ok.inj (parsed'.symm.trans parsed)
  obtain ⟨-, rfl⟩ := Prod.mk.inj (Except.ok.inj (whole'.symm.trans whole))
  -- No other token has the position, so it is the step over this one that lists it.
  have distinct : (front.map (·.2) ++ index :: rest.map (·.2)).Nodup := by
    have positions := stream.pairwise_visiblePositions.imp Nat.ne_of_lt
    rw [TokenStream.visiblePositions, split, List.map_append] at positions
    exact positions
  have once := (List.nodup_cons.1 (List.nodup_middle.1 distinct)).1
  rw [List.mem_append, not_or] at once
  have early := advances.not_mem_skippedIndices sound start once.1
  have late := rest'.not_mem_skippedIndices sound passed.standing once.2
  have skipped : index ∈ Repair.skippedIndices repair.toList := by
    have among : index ∈ Repair.skippedIndices (before ++ (repair.toList ++ after)) :=
      skips ▸ List.mem_filterMap.2 ⟨_, listed, rfl⟩
    simpa [Repair.skippedIndices_append, early, late] using among
  cases advance with
  | taken => cases skipped
  | inserted => cases skipped
  | skipped fed reads tries discards =>
      exact ⟨parser, before, _, stepped, advances, onward, .skipped fed reads tries discards⟩

end Turn

end Grammar

end Typeahead
