import Typeahead.Proofs.Automaton.Selecting
import Typeahead.Proofs.Language.Sound
import Typeahead.Proofs.Parsing.Run
import Typeahead.Proofs.Spelling

namespace Typeahead

/-!
The end of a parse.  As long as the end is not acceptable, the first acceptable terminal of those
that may be made up is made up.  The parser looks for the end before each of them, but not behind
the last that it may make up: a text that lacks just as many is not completed.
-/

/-- What is found first among more is found first among fewer. -/
theorem find?_eq_some_of_imp {α : Type} {test test' : α → Bool} {as : List α} {a : α}
    (found : as.find? test = some a) (fewer : ∀ b, test' b = true → test b = true)
    (passes : test' a = true) : as.find? test' = some a := by
  obtain ⟨-, before, behind, split, fail⟩ := List.find?_eq_some_iff_append.1 found
  refine List.find?_eq_some_iff_append.2 ⟨passes, before, behind, split, ?_⟩
  intro b member
  have failed := fail b member
  rw [Bool.not_eq_true'] at failed ⊢
  rw [Bool.eq_false_iff] at failed ⊢
  exact fun holds => failed (fewer b holds)

namespace Automaton

variable {σ ν : Type} {automaton : Automaton} {reduce : σ → Production → List ν → σ × ν}
  {terminal name : String} {names : List String} {value : ν} {store : σ} {stack : List (Frame ν)}

theorem of_mem_filterAuxM {α ε : Type} {test : α → Except ε Bool} {as before all : List α}
    (filtered : as.filterAuxM test before = .ok all) {a : α} (member : a ∈ all) :
    a ∈ before ∨ test a = .ok true := by
  induction as generalizing before with
  | nil => exact .inl (Except.ok.inj filtered ▸ member)
  | cons first rest ih =>
      obtain ⟨verdict, tested, filtered⟩ := exists_of_bind_eq_ok filtered
      rcases ih filtered with earlier | holds
      · cases verdict with
        | false => exact .inl earlier
        | true =>
            rcases List.mem_cons.1 earlier with rfl | before
            · exact .inr tested
            · exact .inl before
      · exact .inr holds

/-- What is called acceptable would be taken. -/
theorem takes_of_mem_acceptable (listed : automaton.acceptable stack = .ok names)
    (member : name ∈ names) : automaton.takes stack name = .ok true := by
  obtain ⟨all, filtered, made⟩ := exists_of_bind_eq_ok listed
  have member' : name ∈ all := by
    rw [← Except.ok.inj made, List.mem_reverse] at member
    exact member
  rcases of_mem_filterAuxM filtered member' with none | takes
  · cases none
  · exact takes

/-- What came of a terminal: it was read by a move for it, or it was the end and was accepted. -/
theorem feedUpTo_cases {fuel : Nat} {outcome : Outcome σ ν}
    (fed : automaton.feedUpTo reduce terminal value fuel store stack = .ok outcome)
    (taken : outcome.taken = true) :
    (∃ last lastStack s next, outcome = .shifted last lastStack ∧
      automaton.states.move? s terminal = some next) ∨
    ∃ last top lastStack, outcome = .accepted last top lastStack ∧ terminal = endMarker := by
  induction fuel generalizing store stack with
  | zero => cases fed
  | succ fuel ih =>
      rw [feedUpTo] at fed
      cases action : automaton.action? (topState stack) terminal with
      | none =>
          rw [action] at fed
          obtain rfl := Except.ok.inj fed
          cases taken
      | some act =>
          rw [action] at fed
          cases act with
          | shift next =>
              obtain rfl := Except.ok.inj fed
              exact .inl ⟨_, _, _, next, rfl, action?_eq_shift_iff.1 action⟩
          | reduce p =>
              simp only at fed
              split at fed
              · cases fed
              · split at fed
                · next ended =>
                    obtain rfl := Except.ok.inj fed
                    rw [Bool.and_eq_true, decide_eq_true_eq] at ended
                    exact .inr ⟨_, _, _, rfl, ended.1⟩
                · exact ih fed

end Automaton

namespace Grammar

variable {grammar : Grammar} {eof rounds : Nat} {conjured : List String} {names : List String}
  {name : String} {parser last : LiveParser} {tree : SyntaxTree} {repairs : List Repair}

/-- The parser would accept at the end of the input. -/
def Ready (grammar : Grammar) (parser : LiveParser) : Prop :=
  ∃ names, grammar.automaton.acceptable parser.stack = .ok names ∧ endMarker ∈ names

/-- The parser would neither accept nor read a terminal that may be made up. -/
def Stuck (grammar : Grammar) (parser : LiveParser) : Prop :=
  ∃ names, grammar.automaton.acceptable parser.stack = .ok names ∧ endMarker ∉ names ∧
    grammar.repairs.find? names.contains = none

/-- The parser accepts at the end of the input, with `tree`. -/
def Accepts (grammar : Grammar) (eof : Nat) (parser : LiveParser) (tree : SyntaxTree) : Prop :=
  ∃ forest value stack, grammar.feed endMarker (.conjured endMarker eof) parser =
    .ok (.accepted forest value stack) ∧ tree = forest.tree value

/-- While the end is not acceptable, the parser is given the first acceptable terminal of those
that may be made up: the terminals `conjured`, one after the other. -/
inductive Conjures (grammar : Grammar) (eof : Nat) :
    (conjured : List String) → LiveParser → LiveParser → Prop where
  | nil (parser : LiveParser) : Conjures grammar eof [] parser parser
  | cons {names conjured : List String} {name : String} {parser last : LiveParser}
      {forest : Forest} {stack : List (Frame Branch)}
      (listed : grammar.automaton.acceptable parser.stack = .ok names)
      (unended : endMarker ∉ names) (chosen : grammar.repairs.find? names.contains = some name)
      (fed : grammar.feed name (.conjured name eof) parser = .ok (.shifted forest stack))
      (rest : Conjures grammar eof conjured ⟨forest, stack⟩ last) :
      Conjures grammar eof (name :: conjured) parser last

theorem exists_taken (listed : grammar.automaton.acceptable parser.stack = .ok names)
    (member : name ∈ names) (leaf : Leaf) :
    ∃ outcome, grammar.feed name leaf parser = .ok outcome ∧ outcome.taken = true := by
  have takes := Automaton.takes_of_mem_acceptable listed member
  rw [Automaton.takes_eq (Forest.reduce grammar.transparent) (.leaf leaf) parser.forest] at takes
  cases fed : grammar.feed name leaf parser with
  | error fault =>
      rw [feed] at fed
      rw [fed] at takes
      cases takes
  | ok outcome =>
      rw [feed] at fed
      rw [fed] at takes
      exact ⟨outcome, rfl, Except.ok.inj takes⟩

/-- A terminal that is called acceptable and is not the end is read. -/
theorem exists_shifted (listed : grammar.automaton.acceptable parser.stack = .ok names)
    (member : name ∈ names) (inner : name ≠ endMarker) (leaf : Leaf) :
    ∃ forest stack, grammar.feed name leaf parser = .ok (.shifted forest stack) := by
  obtain ⟨outcome, fed, taken⟩ := exists_taken listed member leaf
  rcases Automaton.feedUpTo_cases fed taken with ⟨forest, stack, -, -, rfl, -⟩ | ⟨-, -, -, -, ended⟩
  · exact ⟨forest, stack, fed⟩
  · exact absurd ended inner

theorem Conjures.trans {further : List String} {middle : LiveParser}
    (first : grammar.Conjures eof conjured parser middle)
    (second : grammar.Conjures eof further middle last) :
    grammar.Conjures eof (conjured ++ further) parser last := by
  induction first with
  | nil => exact second
  | cons listed unended chosen fed _ ih => exact .cons listed unended chosen fed (ih second)

theorem ready_or_stuck_or_conjures (listed : grammar.automaton.acceptable parser.stack = .ok names)
    (eof : Nat) : grammar.Ready parser ∨ grammar.Stuck parser ∨
      ∃ name next, grammar.Conjures eof [name] parser next := by
  by_cases ended : endMarker ∈ names
  · exact .inl ⟨names, listed, ended⟩
  · cases chosen : grammar.repairs.find? names.contains with
    | none => exact .inr (.inl ⟨names, listed, ended, chosen⟩)
    | some name =>
        have member : name ∈ names := List.contains_iff_mem.1 (List.find?_some chosen)
        have inner : name ≠ endMarker := fun same => ended (same ▸ member)
        obtain ⟨forest, stack, fed⟩ := exists_shifted listed member inner (.conjured name eof)
        exact .inr (.inr ⟨name, ⟨forest, stack⟩, .cons listed ended chosen fed (.nil _)⟩)

/-- The end is accepted if it is called acceptable and is no symbol of the grammar. -/
theorem Ready.exists_accepts
    (unread : ∀ production ∈ grammar.table.productions, endMarker ∉ production.symbols)
    (start_ne : grammar.table.start ≠ endMarker) (ready : grammar.Ready parser) (eof : Nat) :
    ∃ tree, grammar.Accepts eof parser tree := by
  obtain ⟨names, listed, member⟩ := ready
  obtain ⟨outcome, fed, taken⟩ := exists_taken listed member (.conjured endMarker eof)
  rcases Automaton.feedUpTo_cases fed taken with ⟨-, -, s, next, -, move⟩ | ⟨_, _, _, rfl, -⟩
  · rw [grammar.automaton.states_eq] at move
    cases move.symm.trans (States.move?_eq_none unread start_ne s)
  · exact ⟨_, _, _, _, fed, rfl⟩

theorem finishWithin_of_accepts (rounds : Nat) (ready : grammar.Ready parser)
    (accepts : grammar.Accepts eof parser tree) :
    grammar.finishWithin eof (rounds + 1) parser = .ok (tree, []) := by
  obtain ⟨names, listed, member⟩ := ready
  obtain ⟨forest, value, stack, fed, rfl⟩ := accepts
  simp only [finishWithin, listed, lift_ok_bind, List.contains_iff_mem.2 member, if_true, fed]
  rfl

theorem finishWithin_of_stuck (rounds : Nat) (stuck : grammar.Stuck parser) :
    grammar.finishWithin eof (rounds + 1) parser =
      .ok (grammar.partialParse parser, [.incomplete]) := by
  obtain ⟨names, listed, unended, none⟩ := stuck
  have unended' : ¬ names.contains endMarker = true := mt List.contains_iff_mem.1 unended
  simp only [finishWithin, listed, lift_ok_bind, unended', none]
  rfl

/-- Every terminal that is made up takes one round. -/
theorem Conjures.finishWithin (conjures : grammar.Conjures eof conjured parser last)
    (finished : grammar.finishWithin eof rounds last = .ok (tree, repairs)) :
    grammar.finishWithin eof (rounds + conjured.length) parser =
      .ok (tree, conjured.map .closed ++ repairs) := by
  induction conjures with
  | nil => exact finished
  | @cons names conjured name parser last forest stack listed unended chosen fed _ ih =>
      have unended' : ¬ names.contains endMarker = true := mt List.contains_iff_mem.1 unended
      rw [List.length_cons, ← Nat.add_assoc]
      simp only [Grammar.finishWithin, listed, lift_ok_bind, unended', chosen, fed, ih finished]
      rfl

theorem Conjures.finish (conjures : grammar.Conjures eof conjured parser last)
    (room : rounds + conjured.length = maxRepairs)
    (finished : grammar.finishWithin eof rounds last = .ok (tree, repairs)) :
    grammar.finish eof parser = .ok (tree, conjured.map .closed ++ repairs) := by
  rw [Grammar.finish, ← room]
  exact conjures.finishWithin finished

theorem Conjures.take (conjures : grammar.Conjures eof conjured parser last) (count : Nat) :
    ∃ reached, grammar.Conjures eof (conjured.take count) parser reached := by
  induction conjures generalizing count with
  | nil parser => exact ⟨parser, by simpa using .nil parser⟩
  | @cons names conjured name parser last forest stack listed unended chosen fed _ ih =>
      cases count with
      | zero => exact ⟨parser, .nil parser⟩
      | succ count =>
          obtain ⟨reached, rest⟩ := ih count
          exact ⟨reached, .cons listed unended chosen fed rest⟩

theorem of_lift_eq_ok {α : Type} {first : Except AutomatonFault α} {a : α}
    (made : (liftM first : Except Fault α) = .ok a) : first = .ok a := by
  cases first with
  | error fault => cases made
  | ok result => exact congrArg Except.ok (Except.ok.inj made)

/-- What one round comes to. -/
theorem round_cases (finished : grammar.finishWithin eof (rounds + 1) parser = .ok (tree, repairs)) :
    (grammar.Ready parser ∧ grammar.Accepts eof parser tree ∧ repairs = []) ∨
    (grammar.Stuck parser ∧ tree = grammar.partialParse parser ∧ repairs = [.incomplete]) ∨
    ∃ names name forest stack later, grammar.automaton.acceptable parser.stack = .ok names ∧
      endMarker ∉ names ∧ grammar.repairs.find? names.contains = some name ∧
      grammar.feed name (.conjured name eof) parser = .ok (.shifted forest stack) ∧
      grammar.finishWithin eof rounds ⟨forest, stack⟩ = .ok (tree, later) ∧
      repairs = .closed name :: later := by
  rw [Grammar.finishWithin] at finished
  obtain ⟨names, lifted, finished⟩ := exists_of_bind_eq_ok finished
  have listed := of_lift_eq_ok lifted
  split at finished
  · next ended =>
      obtain ⟨outcome, lifted, finished⟩ := exists_of_bind_eq_ok finished
      cases outcome with
      | shifted forest stack => cases finished
      | refused forest stack => cases finished
      | accepted forest value stack =>
          obtain ⟨rfl, rfl⟩ := Prod.mk.inj (Except.ok.inj finished)
          exact .inl ⟨⟨names, listed, List.contains_iff_mem.1 ended⟩,
            ⟨forest, value, stack, of_lift_eq_ok lifted, rfl⟩, rfl⟩
  · next unended =>
      have unended' : endMarker ∉ names := mt List.contains_iff_mem.2 unended
      cases chosen : grammar.repairs.find? names.contains with
      | none =>
          rw [chosen] at finished
          obtain ⟨rfl, rfl⟩ := Prod.mk.inj (Except.ok.inj finished)
          exact .inr (.inl ⟨⟨names, listed, unended', chosen⟩, rfl, rfl⟩)
      | some name =>
          rw [chosen] at finished
          obtain ⟨outcome, lifted, finished⟩ := exists_of_bind_eq_ok finished
          cases outcome with
          | accepted forest value stack => cases finished
          | refused forest stack => cases finished
          | shifted forest stack =>
              obtain ⟨⟨tree', later⟩, finished', made⟩ := exists_of_bind_eq_ok finished
              obtain ⟨rfl, rfl⟩ := Prod.mk.inj (Except.ok.inj made)
              exact .inr (.inr ⟨names, name, forest, stack, later, listed, unended', chosen,
                of_lift_eq_ok lifted, finished', rfl⟩)

/-- What the last rounds of a parse come to. -/
theorem exists_conjures (finished : grammar.finishWithin eof rounds parser = .ok (tree, repairs)) :
    ∃ conjured last, grammar.Conjures eof conjured parser last ∧
      ((conjured.length < rounds ∧ grammar.Ready last ∧ grammar.Accepts eof last tree ∧
          repairs = conjured.map .closed) ∨
        ((conjured.length = rounds ∨ conjured.length < rounds ∧ grammar.Stuck last) ∧
          tree = grammar.partialParse last ∧
          repairs = conjured.map .closed ++ [.incomplete])) := by
  induction rounds generalizing parser tree repairs with
  | zero =>
      obtain ⟨rfl, rfl⟩ := Prod.mk.inj (Except.ok.inj finished)
      exact ⟨[], parser, .nil parser, .inr ⟨.inl rfl, rfl, rfl⟩⟩
  | succ rounds ih =>
      rcases round_cases finished with ⟨ready, accepts, rfl⟩ | ⟨stuck, rfl, rfl⟩ |
        ⟨names, name, forest, stack, later, listed, unended, chosen, fed, onward, rfl⟩
      · exact ⟨[], parser, .nil parser, .inl ⟨Nat.succ_pos rounds, ready, accepts, rfl⟩⟩
      · exact ⟨[], parser, .nil parser, .inr ⟨.inr ⟨Nat.succ_pos rounds, stuck⟩, rfl, rfl⟩⟩
      · obtain ⟨conjured, last, conjures, result⟩ := ih onward
        use name :: conjured, last, .cons listed unended chosen fed conjures
        rcases result with ⟨early, ready, accepts, rfl⟩ | ⟨late, rfl, rfl⟩
        · exact .inl ⟨Nat.succ_lt_succ early, ready, accepts, rfl⟩
        · have late' := late.imp (congrArg Nat.succ) (And.imp_left Nat.succ_lt_succ)
          exact .inr ⟨late', rfl, rfl⟩

/-- How a parse ends. -/
structure ClosesInTime (grammar : Grammar) (eof : Nat) (parser : LiveParser) : Prop where
  /-- Terminals are made up until the end is acceptable or none of them is. -/
  onward : ∀ conjured last names, grammar.Conjures eof conjured parser last →
    grammar.automaton.acceptable last.stack = .ok names → grammar.Ready last ∨
      grammar.Stuck last ∨ ∃ name next, grammar.Conjures eof (conjured ++ [name]) parser next
  /-- It is completed if the end is acceptable before all that may be made up has been. -/
  completed : ∀ conjured last, grammar.Conjures eof conjured parser last → grammar.Ready last →
    conjured.length < maxRepairs → ∃ tree, grammar.Accepts eof last tree ∧
      grammar.finish eof parser = .ok (tree, conjured.map .closed)
  /-- It is not completed otherwise, even if the end is acceptable just then. -/
  exhausted : ∀ conjured last, grammar.Conjures eof conjured parser last →
    maxRepairs ≤ conjured.length → ∃ reached,
      grammar.Conjures eof (conjured.take maxRepairs) parser reached ∧
      grammar.finish eof parser = .ok (grammar.partialParse reached,
        (conjured.take maxRepairs).map .closed ++ [.incomplete])
  stuck : ∀ conjured last, grammar.Conjures eof conjured parser last → grammar.Stuck last →
    conjured.length < maxRepairs → grammar.finish eof parser =
      .ok (grammar.partialParse last, conjured.map .closed ++ [.incomplete])
  /-- There is no other reason not to complete it. -/
  incomplete : ∀ tree repairs, grammar.finish eof parser = .ok (tree, repairs) →
    .incomplete ∈ repairs → ∃ conjured last, grammar.Conjures eof conjured parser last ∧
      (conjured.length = maxRepairs ∨ conjured.length < maxRepairs ∧ grammar.Stuck last) ∧
      tree = grammar.partialParse last

theorem closesInTime
    (unread : ∀ production ∈ grammar.table.productions, endMarker ∉ production.symbols)
    (start_ne : grammar.table.start ≠ endMarker) (eof : Nat) (parser : LiveParser) :
    grammar.ClosesInTime eof parser := by
  constructor
  · intro conjured last names conjures listed
    rcases ready_or_stuck_or_conjures listed eof with ready | stuck | ⟨name, next, more⟩
    · exact .inl ready
    · exact .inr (.inl stuck)
    · exact .inr (.inr ⟨name, next, conjures.trans more⟩)
  · intro conjured last conjures ready early
    obtain ⟨tree, accepts⟩ := ready.exists_accepts unread start_ne eof
    obtain ⟨rounds, counted⟩ := Nat.exists_eq_add_of_lt early
    have finished := conjures.finish (by omega) (finishWithin_of_accepts rounds ready accepts)
    rw [List.append_nil] at finished
    exact ⟨tree, accepts, finished⟩
  · intro conjured last conjures late
    obtain ⟨reached, front⟩ := conjures.take maxRepairs
    have room : 0 + (conjured.take maxRepairs).length = maxRepairs := by
      rw [Nat.zero_add, List.length_take_of_le late]
    exact ⟨reached, front, front.finish room rfl⟩
  · intro conjured last conjures stuck early
    obtain ⟨rounds, counted⟩ := Nat.exists_eq_add_of_lt early
    exact conjures.finish (by omega) (finishWithin_of_stuck rounds stuck)
  · intro tree repairs finished member
    obtain ⟨conjured, last, conjures, result⟩ := exists_conjures finished
    rcases result with ⟨-, -, -, rfl⟩ | ⟨late, same, -⟩
    · simp at member
    · exact ⟨conjured, last, conjures, late, same⟩

/-- A parser at work always comes to an end. -/
theorem exists_closing (sound : grammar.Sound) {level : Nat → Nat} {symbols : List String}
    (standing : grammar.Standing level symbols parser) (eof : Nat) :
    ∃ conjured last tree repairs, grammar.Conjures eof conjured parser last ∧
      grammar.finish eof parser = .ok (tree, repairs) ∧
      (conjured.length < maxRepairs ∧ grammar.Ready last ∧ grammar.Accepts eof last tree ∨
        (conjured.length = maxRepairs ∨ conjured.length < maxRepairs ∧ grammar.Stuck last) ∧
          tree = grammar.partialParse last) := by
  obtain ⟨tree, repairs, finished, -⟩ := exists_finishWithin sound eof maxRepairs standing
  obtain ⟨conjured, last, conjures, result⟩ := exists_conjures finished
  use conjured, last, tree, repairs, conjures, finished
  rcases result with ⟨early, ready, accepts, -⟩ | ⟨late, same, -⟩
  · exact .inl ⟨early, ready, accepts⟩
  · exact .inr ⟨late, same⟩

section Reading

variable {productions : List Production} {outlook : Outlook} {next : Nat} {symbols : List String}

/-- Where no production ends, the first terminal is made up that is waited for. -/
theorem conjures_of_move? (sound : grammar.Sound) (parser : LiveParser)
    (listed : grammar.table.productions = productions.toArray)
    (linked : Automaton.Linked grammar.automaton symbols parser.stack)
    (bounds : outlook.Bounds grammar.table (Automaton.topState parser.stack))
    (unended : outlook.ended productions = []) (inner : endMarker ∉ outlook.awaited)
    (chosen : grammar.repairs.find? outlook.awaited.contains = some name)
    (isTerminal : grammar.table.isTerminal name = true)
    (move : grammar.automaton.states.move? (Automaton.topState parser.stack) name = some next)
    (eof : Nat) :
    grammar.Conjures eof [name] parser
      ⟨parser.forest, ⟨next, .leaf (.conjured name eof)⟩ :: parser.stack⟩ := by
  obtain ⟨names, acceptable, members⟩ := Automaton.exists_acceptable sound.proper linked
  have awaited : ∀ other ∈ names, other ∈ outlook.awaited := fun other member =>
    Automaton.mem_awaited_of_mem_choices listed bounds unended ((members other).1 member).1
  have fed : grammar.feed name (.conjured name eof) parser =
      .ok (.shifted parser.forest (⟨next, .leaf (.conjured name eof)⟩ :: parser.stack)) :=
    Automaton.feed_of_move? move
  have member : name ∈ names := by
    refine (members name).2 ⟨Automaton.mem_choices_of_move? move isTerminal, ?_⟩
    rw [Automaton.takes_eq (Forest.reduce grammar.transparent) (.leaf (.conjured name eof))
      parser.forest, Automaton.feed_of_move? move]
    rfl
  refine .cons acceptable (fun ended => inner (awaited _ ended)) ?_ fed (.nil _)
  apply find?_eq_some_of_imp chosen
  · intro other contained
    exact List.contains_iff_mem.2 (awaited other (List.contains_iff_mem.1 contained))
  · exact List.contains_iff_mem.2 member

/-- A token that can be read is. -/
theorem steps_of_move? {token : Token} {index : Nat} {forest : Forest} {stack : List (Frame Branch)}
    (move : grammar.automaton.states.move? (Automaton.topState stack) (grammar.terminalOf token) =
      some next) (rest : List (Token × Nat)) :
    grammar.steps ((token, index) :: rest) ⟨forest, stack⟩ =
      grammar.steps rest ⟨forest, ⟨next, .leaf (.token index)⟩ :: stack⟩ := by
  have fed : grammar.feed (grammar.terminalOf token) (.token index) ⟨forest, stack⟩ =
      .ok (.shifted forest (⟨next, .leaf (.token index)⟩ :: stack)) :=
    Automaton.feed_of_move? move
  have stepped : grammar.step (grammar.terminalOf token) index ⟨forest, stack⟩ =
      .ok (⟨forest, ⟨next, .leaf (.token index)⟩ :: stack⟩, none) := by
    rw [step, fed]
    rfl
  rw [steps, stepped]
  cases onward : grammar.steps rest ⟨forest, ⟨next, .leaf (.token index)⟩ :: stack⟩ with
  | error fault => simp only [bind, Except.bind, onward]
  | ok result => simp [bind, Except.bind, onward, pure, Except.pure]

end Reading

end Grammar

namespace Language.Architecture.Extending

/-! A workspace that is to extend another, which is not named yet.  The name and the braces are made
up. -/

/-- A workspace that extends another, with nothing in front of its body. -/
def extension : Production :=
  ⟨"workspace", ["WORKSPACE", "EXTENDS", "STRING", "LBRACE", "workspace_body", "RBRACE"]⟩

def emptyBody : Production := ⟨"workspace_body", []⟩

def firstWorkspace : Production := ⟨"__structurizr_file_star_0", ["workspace"]⟩

def file : Production := ⟨"structurizr_file", ["__structurizr_file_star_0"]⟩

/-- The states on the way through an extension, and those behind it in a file. -/
structure Stations (opened extended named braced filled closed whole items final : Nat) : Prop where
  toOpened : grammar.automaton.states.move? 0 "WORKSPACE" = some opened
  toExtended : grammar.automaton.states.move? opened "EXTENDS" = some extended
  toNamed : grammar.automaton.states.move? extended "STRING" = some named
  toBraced : grammar.automaton.states.move? named "LBRACE" = some braced
  toFilled : grammar.automaton.states.move? braced "workspace_body" = some filled
  toClosed : grammar.automaton.states.move? filled "RBRACE" = some closed
  toWhole : grammar.automaton.states.move? 0 "workspace" = some whole
  toItems : grammar.automaton.states.move? 0 "__structurizr_file_star_0" = some items
  toFinal : grammar.automaton.states.move? 0 "structurizr_file" = some final

theorem exists_number {production : Production} (member : production ∈ productions) :
    ∃ p : Nat, grammar.table.productions[p]? = some production :=
  Array.mem_iff_getElem?.1 (List.mem_toArray.2 member)

theorem listed : grammar.table.productions = productions.toArray := rfl

theorem members : extension ∈ productions ∧ emptyBody ∈ productions ∧
    firstWorkspace ∈ productions ∧ file ∈ productions := by
  decide +kernel

theorem exists_stations : ∃ opened extended named braced filled closed whole items final,
    Stations opened extended named braced filled closed whole items final := by
  obtain ⟨extensionMember, -, firstMember, fileMember⟩ := members
  obtain ⟨_, foundFile⟩ := exists_number fileMember
  obtain ⟨_, foundFirst⟩ := exists_number firstMember
  obtain ⟨_, foundExtension⟩ := exists_number extensionMember
  have awaited : grammar.table.symbolAfter? ⟨grammar.table.goal, 0⟩ = some "structurizr_file" := by
    rw [RuleTable.symbolAfter?, RuleTable.body, if_pos rfl]
    rfl
  obtain ⟨final, toFinal⟩ :=
    States.exists_move? (States.contains_zero_goal grammar.table) awaited
  obtain ⟨items, toItems, -⟩ :=
    (States.contains_of_move? toFinal foundFile).exists_move? foundFile rfl
  obtain ⟨whole, toWhole, -⟩ :=
    (States.contains_of_move? toItems foundFirst).exists_move? foundFirst rfl
  have begun := States.contains_of_move? toWhole foundExtension
  obtain ⟨opened, toOpened, begun⟩ := begun.exists_move? foundExtension rfl
  obtain ⟨extended, toExtended, begun⟩ := begun.exists_move? foundExtension rfl
  obtain ⟨named, toNamed, begun⟩ := begun.exists_move? foundExtension rfl
  obtain ⟨braced, toBraced, begun⟩ := begun.exists_move? foundExtension rfl
  obtain ⟨filled, toFilled, begun⟩ := begun.exists_move? foundExtension rfl
  obtain ⟨closed, toClosed, -⟩ := begun.exists_move? foundExtension rfl
  exact ⟨opened, extended, named, braced, filled, closed, whole, items, final, toOpened, toExtended,
    toNamed, toBraced, toFilled, toClosed, toWhole, toItems, toFinal⟩

def behind (row : List String) : Outlook := .along productions startRule row

/-- Behind the two words a name is waited for, behind it a brace, and then the body may be empty. -/
theorem behind_words :
    ((behind ["WORKSPACE", "EXTENDS"]).ended productions = [] ∧
      endMarker ∉ (behind ["WORKSPACE", "EXTENDS"]).awaited ∧
      grammar.repairs.find? (behind ["WORKSPACE", "EXTENDS"]).awaited.contains =
        some "STRING") ∧
    ((behind ["WORKSPACE", "EXTENDS", "STRING"]).ended productions = [] ∧
      endMarker ∉ (behind ["WORKSPACE", "EXTENDS", "STRING"]).awaited ∧
      grammar.repairs.find? (behind ["WORKSPACE", "EXTENDS", "STRING"]).awaited.contains =
        some "LBRACE") ∧
    (behind ["WORKSPACE", "EXTENDS", "STRING", "LBRACE"]).ended productions = [emptyBody] ∧
      "RBRACE" ∉ (behind ["WORKSPACE", "EXTENDS", "STRING", "LBRACE"]).awaited := by
  decide +kernel

/-- Behind its symbols the production alone ends, and the end of the input cannot be read. -/
structure EndsAlone (production : Production) : Prop where
  closed : (production.symbols.inits.all fun front => (behind front).closed productions) = true
  ended : (behind production.symbols).ended productions = [production]
  unread : endMarker ∉ (behind production.symbols).awaited

theorem ends_alone : EndsAlone extension ∧ EndsAlone firstWorkspace ∧ EndsAlone file := by
  have checked : ∀ production ∈ [extension, firstWorkspace, file],
      (production.symbols.inits.all fun front => (behind front).closed productions) = true ∧
        (behind production.symbols).ended productions = [production] ∧
        endMarker ∉ (behind production.symbols).awaited := by
    decide +kernel
  have each : ∀ production ∈ [extension, firstWorkspace, file], EndsAlone production :=
    fun production member =>
      have ⟨closed, ended, unread⟩ := checked production member
      ⟨closed, ended, unread⟩
  exact ⟨each _ (by simp), each _ (by simp), each _ (by simp)⟩

theorem terminals : grammar.table.isTerminal "STRING" = true ∧
    grammar.table.isTerminal "LBRACE" = true ∧ grammar.table.isTerminal "RBRACE" = true := by
  have checked : ∀ symbol ∈ ["STRING", "LBRACE", "RBRACE"],
      symbol ∈ RuleTable.usedSymbols productions ∧ symbol ∉ productions.map (·.origin) := by
    decide +kernel
  exact ⟨RuleTable.isTerminal_closed.2 (checked _ (by simp)),
    RuleTable.isTerminal_closed.2 (checked _ (by simp)),
    RuleTable.isTerminal_closed.2 (checked _ (by simp))⟩

theorem EndsAlone.bounds {production : Production} (ends : EndsAlone production)
    {front : List String} {s : Nat} (inside : front <+: production.symbols)
    (spelled : grammar.automaton.states.spell? 0 front = some s) :
    (behind front).Bounds grammar.table s := by
  rw [grammar.automaton.states_eq] at spelled
  exact Outlook.bounds_along listed ends.closed inside spelled

/-- A production that ends alone is reduced if the end comes behind its rule. -/
theorem EndsAlone.exists_reduce {production : Production} (ends : EndsAlone production)
    (member : production ∈ productions) {s next : Nat}
    (spelled : grammar.automaton.states.spell? 0 production.symbols = some s)
    (move : grammar.automaton.states.move? 0 production.origin = some next)
    (before : RuleMove.Before grammar.table endMarker ⟨0, production.origin⟩) :
    endMarker ∈ grammar.automaton.choices s ∧
      ∃ p, grammar.automaton.action? s endMarker = some (.reduce p) ∧
        grammar.table.productions[p]? = some production := by
  obtain ⟨_, found⟩ := exists_number member
  exact ⟨Automaton.mem_choices_of_mem_reductions
      (Automaton.mem_reductions_of_before found move spelled before),
    Automaton.exists_action?_eq_reduce listed (ends.bounds (List.prefix_refl _) spelled)
      (fun _ other => List.mem_singleton.1 (ends.ended ▸ other)) ends.unread found move spelled
      before⟩

namespace Stations

variable {opened extended named braced filled closed whole items final : Nat}
  (stations : Stations opened extended named braced filled closed whole items final)

include stations

theorem spelled : grammar.automaton.states.spell? 0 ["WORKSPACE", "EXTENDS"] = some extended ∧
    grammar.automaton.states.spell? 0 ["WORKSPACE", "EXTENDS", "STRING"] = some named ∧
    grammar.automaton.states.spell? 0 ["WORKSPACE", "EXTENDS", "STRING", "LBRACE"] = some braced ∧
    grammar.automaton.states.spell? 0 extension.symbols = some closed := by
  simp only [extension, States.spell?, stations.toOpened, stations.toExtended, stations.toNamed,
    stations.toBraced, stations.toFilled, stations.toClosed, Option.bind_some, and_self]

/-- Behind the two words a name is waited for, and then a brace. -/
theorem conjures_name_and_brace {stack : List (Frame Branch)} (eof : Nat)
    (linked : Automaton.Linked grammar.automaton ["EXTENDS", "WORKSPACE"] stack)
    (top : Automaton.topState stack = extended) (forest : Forest) :
    grammar.Conjures eof ["STRING", "LBRACE"] ⟨forest, stack⟩
      ⟨forest, ⟨braced, .leaf (.conjured "LBRACE" eof)⟩ ::
        ⟨named, .leaf (.conjured "STRING" eof)⟩ :: stack⟩ := by
  obtain ⟨toExtended, toNamed, -⟩ := stations.spelled
  obtain ⟨⟨unended, inner, chosen⟩, ⟨unended', inner', chosen'⟩, -⟩ := behind_words
  have move : grammar.automaton.states.move? (Automaton.topState stack) "STRING" = some named :=
    top ▸ stations.toNamed
  have bounds : (behind ["WORKSPACE", "EXTENDS"]).Bounds grammar.table
      (Automaton.topState stack) := top ▸ ends_alone.1.bounds (by decide) toExtended
  have name := Grammar.conjures_of_move? sound_grammar ⟨forest, stack⟩ listed linked bounds unended
    inner chosen terminals.1 move eof
  exact name.trans (Grammar.conjures_of_move? sound_grammar
    ⟨forest, ⟨named, .leaf (.conjured "STRING" eof)⟩ :: stack⟩ listed (.cons move linked)
    (ends_alone.1.bounds (by decide) toNamed) unended' inner' chosen' terminals.2.1
    stations.toBraced eof)

omit stations in
/-- Behind an opening brace the end is not acceptable: the body comes in front of a terminal. -/
theorem endMarker_not_mem_choices {s : Nat}
    (bounds : (behind ["WORKSPACE", "EXTENDS", "STRING", "LBRACE"]).Bounds grammar.table s)
    (toFilled : grammar.automaton.states.move? s "workspace_body" = some filled) :
    endMarker ∉ grammar.automaton.choices s := by
  intro choice
  have unread := Grammar.move?_endMarker sound_grammar
  rcases Automaton.exists_action?_of_mem_choices choice with ⟨next, move⟩ | ⟨-, p, action⟩
  · cases (unread s).symm.trans move
  · obtain ⟨production, found, member⟩ := Automaton.mem_ended_of_action? listed bounds action
    rw [behind_words.2.2.1, List.mem_singleton] at member
    subst member
    rcases Automaton.move?_after_empty sound_grammar.proper.disjoint sound_grammar.proper.guarded
      found rfl action toFilled with ⟨target, move⟩ | ⟨-, -, start⟩
    · cases (unread filled).symm.trans move
    · exact absurd start (by decide +kernel)

/-- Behind an opening brace the body may be empty, so that the closing one is made up. -/
theorem exists_conjures_brace {stack : List (Frame Branch)} {symbols : List String} (eof : Nat)
    (linked : Automaton.Linked grammar.automaton symbols stack)
    (top : Automaton.topState stack = braced) (forest : Forest) :
    ∃ last value, grammar.Conjures eof ["RBRACE"] ⟨forest, stack⟩
      ⟨last, ⟨closed, .leaf (.conjured "RBRACE" eof)⟩ :: ⟨filled, value⟩ :: stack⟩ := by
  obtain ⟨-, -, only, unread⟩ := behind_words
  obtain ⟨-, -, spelled, -⟩ := stations.spelled
  have bounds : (behind ["WORKSPACE", "EXTENDS", "STRING", "LBRACE"]).Bounds grammar.table
      (Automaton.topState stack) := top ▸ ends_alone.1.bounds (by decide) spelled
  have toFilled : grammar.automaton.states.move? (Automaton.topState stack) emptyBody.origin =
      some filled := top ▸ stations.toFilled
  have toClosed := stations.toClosed
  have before : RuleMove.Before grammar.table "RBRACE"
      ⟨Automaton.topState stack, emptyBody.origin⟩ := by
    rw [grammar.automaton.states_eq] at toFilled toClosed
    exact .read toFilled toClosed terminals.2.2
  obtain ⟨_, found⟩ := exists_number members.2.1
  have reduction := Automaton.mem_reductions_of_before found toFilled rfl before
  obtain ⟨q, action, found⟩ := Automaton.exists_action?_eq_reduce listed bounds
    (fun other member => List.mem_singleton.1 (only ▸ member)) unread found toFilled rfl before
  obtain ⟨fuel, fed⟩ := Automaton.exists_feed_eq_feedUpTo grammar.automaton
    (Forest.reduce grammar.transparent) "RBRACE" (.leaf (.conjured "RBRACE" eof)) forest stack
  obtain ⟨last, value, reduced⟩ := Automaton.exists_feedUpTo_of_reduce
    (Forest.reduce grammar.transparent) (.leaf (.conjured "RBRACE" eof)) forest action found toFilled
  rw [reduced, if_neg (by simp [endMarker]), Automaton.feedUpTo_of_move? toClosed] at fed
  obtain ⟨names, acceptable, choices⟩ := Automaton.exists_acceptable sound_grammar.proper linked
  refine ⟨last, value, .cons acceptable ?_ ?_ fed (.nil _)⟩
  · intro ended
    exact endMarker_not_mem_choices bounds toFilled ((choices endMarker).1 ended).1
  · have member : "RBRACE" ∈ names := by
      refine (choices _).2 ⟨Automaton.mem_choices_of_mem_reductions reduction, ?_⟩
      rw [Automaton.takes_eq (Forest.reduce grammar.transparent)
        (.leaf (.conjured "RBRACE" eof)) forest, fed]
      rfl
    exact List.find?_cons_of_pos (List.contains_iff_mem.2 member)

/-- The end can come behind a workspace that is a file. -/
theorem before_endMarker : RuleMove.Before grammar.table endMarker ⟨0, extension.origin⟩ ∧
    RuleMove.Before grammar.table endMarker ⟨0, firstWorkspace.origin⟩ ∧
    RuleMove.Before grammar.table endMarker ⟨0, file.origin⟩ := by
  obtain ⟨_, foundFirst⟩ := exists_number members.2.2.1
  obtain ⟨_, foundFile⟩ := exists_number members.2.2.2
  have toItems := stations.toItems
  have toFinal := stations.toFinal
  rw [grammar.automaton.states_eq] at toItems toFinal
  have behindFile : RuleMove.Before grammar.table endMarker ⟨0, file.origin⟩ := .ended rfl
  have behindFirst : RuleMove.Before grammar.table endMarker ⟨0, firstWorkspace.origin⟩ :=
    .last foundFile (List.nil_append _).symm toFinal rfl behindFile
  exact ⟨.last foundFirst (List.nil_append _).symm toItems rfl behindFirst, behindFirst, behindFile⟩

/-- A whole workspace is a file. -/
theorem ready {frames : List (Frame Branch)} (forest : Forest)
    (linked : Automaton.Linked grammar.automaton extension.symbols.reverse frames)
    (top : Automaton.topState frames = closed) : grammar.Ready ⟨forest, frames⟩ := by
  obtain ⟨behindWhole, behindFirst, behindFile⟩ := stations.before_endMarker
  obtain ⟨extensionEnds, firstEnds, fileEnds⟩ := ends_alone
  obtain ⟨extensionMember, -, firstMember, fileMember⟩ := members
  obtain ⟨-, -, -, toClosed⟩ := stations.spelled
  have toWhole : grammar.automaton.states.spell? 0 firstWorkspace.symbols = some whole := by
    rw [firstWorkspace, States.spell?, stations.toWhole, Option.bind_some, States.spell?]
  have toItems : grammar.automaton.states.spell? 0 file.symbols = some items := by
    rw [file, States.spell?, stations.toItems, Option.bind_some, States.spell?]
  obtain ⟨choice, _, action, found⟩ :=
    extensionEnds.exists_reduce extensionMember toClosed stations.toWhole behindWhole
  obtain ⟨-, _, action', found'⟩ :=
    firstEnds.exists_reduce firstMember toWhole stations.toItems behindFirst
  obtain ⟨-, _, action'', found''⟩ :=
    fileEnds.exists_reduce fileMember toItems stations.toFinal behindFile
  have final : grammar.automaton.isFinal final = true := beq_iff_eq.2 stations.toFinal
  have rest : frames.drop extension.symbols.length = [] :=
    List.drop_eq_nil_of_le (Nat.le_of_eq (linked.length_eq.symm.trans List.length_reverse))
  obtain ⟨fuel, fed⟩ := Automaton.exists_feed_eq_feedUpTo grammar.automaton
    (Forest.reduce grammar.transparent) endMarker (.leaf (.conjured endMarker 0)) forest frames
  have taken : ∃ outcome, grammar.automaton.feed (Forest.reduce grammar.transparent) endMarker
      (.leaf (.conjured endMarker 0)) forest frames = .ok outcome ∧ outcome.taken = true := by
    rw [fed]
    refine Automaton.exists_taken_of_reduce forest (top ▸ action) found
      (by rw [rest]; exact stations.toWhole) fun _ _ => .inr ?_
    rw [rest]
    refine Automaton.exists_taken_of_reduce _ action' found' stations.toItems fun _ _ => .inr ?_
    exact Automaton.exists_taken_of_reduce _ action'' found'' stations.toFinal
      fun _ _ => .inl final
  obtain ⟨outcome, fed, taken⟩ := taken
  obtain ⟨names, acceptable, choices⟩ := Automaton.exists_acceptable sound_grammar.proper linked
  refine ⟨names, acceptable, (choices endMarker).2 ⟨top ▸ choice, ?_⟩⟩
  rw [Automaton.takes_eq (Forest.reduce grammar.transparent) (.leaf (.conjured endMarker 0)) forest,
    fed]
  exact congrArg Except.ok taken

end Stations

/-- The tokens of a workspace that extends another, up to the missing name. -/
def begun : TokenStream :=
  ⟨#[⟨11, "workspace", some 0, 1, 0, 0, false, false⟩, ⟨1, " ", some 1, 1, 9, 9, true, false⟩,
    ⟨12, "extends", some 2, 1, 10, 10, false, false⟩,
    ⟨eofType, "", some 3, 1, 17, 17, false, false⟩], rfl⟩

/-- The parser at the end of them makes up the name and the braces, and then the end is taken. -/
theorem exists_conjures_begun : ∃ parser last,
    grammar.steps begun.visiblePlaced .initial = .ok (parser, []) ∧
      grammar.Conjures 3 ["STRING", "LBRACE", "RBRACE"] parser last ∧ grammar.Ready last := by
  obtain ⟨opened, extended, named, braced, filled, closed, whole, items, final, stations⟩ :=
    exists_stations
  obtain ⟨stack, frames⟩ : ∃ stack : List (Frame Branch), stack =
    [⟨extended, .leaf (.token 2)⟩, ⟨opened, .leaf (.token 0)⟩] := ⟨_, rfl⟩
  have stepped : grammar.steps begun.visiblePlaced .initial = .ok (⟨.empty, stack⟩, []) := by
    have visible : begun.visiblePlaced = [(⟨11, "workspace", some 0, 1, 0, 0, false, false⟩, 0),
      (⟨12, "extends", some 2, 1, 10, 10, false, false⟩, 2)] := rfl
    have empty : LiveParser.initial = ⟨.empty, []⟩ := rfl
    rw [visible, empty, Grammar.steps_of_move? stations.toOpened,
      Grammar.steps_of_move? stations.toExtended, frames, Grammar.steps]
  have read : Automaton.Linked grammar.automaton ["EXTENDS", "WORKSPACE"] stack := by
    rw [frames]
    exact .cons stations.toExtended (.cons stations.toOpened .nil)
  have top : Automaton.topState stack = extended := frames ▸ rfl
  have named := stations.conjures_name_and_brace 3 read top .empty
  have braces : Automaton.Linked grammar.automaton ["LBRACE", "STRING", "EXTENDS", "WORKSPACE"]
      (⟨braced, .leaf (.conjured "LBRACE" 3)⟩ :: ⟨_, .leaf (.conjured "STRING" 3)⟩ :: stack) :=
    .cons stations.toBraced (.cons (top ▸ stations.toNamed) read)
  obtain ⟨forest, value, closes⟩ := stations.exists_conjures_brace 3 braces rfl .empty
  exact ⟨_, _, stepped, named.trans closes, stations.ready forest
    (.cons stations.toClosed (.cons stations.toFilled braces)) rfl⟩

theorem begun_closesInTime :
    grammar.tokenize "workspace extends" = .ok begun ∧
      (∀ production ∈ grammar.table.productions, endMarker ∉ production.symbols) ∧
      grammar.table.start ≠ endMarker ∧
      ∃ parser last tree, grammar.steps begun.visiblePlaced .initial = .ok (parser, []) ∧
        grammar.ClosesInTime 3 parser ∧
        grammar.Conjures 3 ["STRING", "LBRACE", "RBRACE"] parser last ∧ grammar.Ready last ∧
        grammar.Accepts 3 last tree ∧
        grammar.finish 3 parser =
          .ok (tree, [.closed "STRING", .closed "LBRACE", .closed "RBRACE"]) := by
  obtain ⟨parser, last, stepped, conjures, ready⟩ := exists_conjures_begun
  have closes := Grammar.closesInTime sound_grammar.unread sound_grammar.start_ne 3 parser
  obtain ⟨tree, accepts, finished⟩ := closes.completed _ last conjures ready (by decide)
  exact ⟨rfl, sound_grammar.unread, sound_grammar.start_ne, parser, last, tree, stepped, closes,
    conjures, ready, accepts, finished⟩

end Language.Architecture.Extending

end Typeahead
