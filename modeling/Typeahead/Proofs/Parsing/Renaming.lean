import Typeahead.Grammar.Parsing
import Typeahead.Proofs.Automaton.Acceptable
import Typeahead.Proofs.Forest.Assembly
import Typeahead.Proofs.Parsing.Advance

namespace Typeahead

/-!
The parser does not look at the positions of tokens.  Read with other positions, the same terminals
lead it through the same states, and its lists, its repairs and its trees differ in nothing but the
positions.
-/

def Leaf.rename (f : Nat → Nat) : Leaf → Leaf
  | .token index => .token (f index)
  | .conjured terminal before => .conjured terminal (f before)

def Branch.rename (f : Nat → Nat) : Branch → Branch
  | .leaf terminal => .leaf (terminal.rename f)
  | .node rule list => .node rule list

def Repair.rename (f : Nat → Nat) : Repair → Repair
  | .skipped index => .skipped (f index)
  | .inserted terminal before => .inserted terminal (f before)
  | .closed terminal => .closed terminal
  | .incomplete => .incomplete

namespace SyntaxTree

def rename (f : Nat → Nat) : SyntaxTree → SyntaxTree
  | .leaf terminal => .leaf (terminal.rename f)
  | .node rule children => .node rule (children.map (rename f))

end SyntaxTree

namespace Forest

variable (f : Nat → Nat)

def rename (forest : Forest) : Forest := ⟨forest.lists.map (·.map (Branch.rename f))⟩

@[simp]
theorem size_rename (forest : Forest) : (forest.rename f).lists.size = forest.lists.size := by
  simp [rename]

@[simp]
theorem children_rename (forest : Forest) (list : Nat) :
    (forest.rename f).children list = (forest.children list).map (Branch.rename f) := by
  simp only [children, rename, Array.getD_eq_getD_getElem?, Array.getElem?_map]
  cases forest.lists[list]? <;> simp

@[simp]
theorem grow_rename (forest : Forest) (branches : Array Branch) :
    (forest.rename f).grow (branches.map (Branch.rename f)) =
      ((forest.grow branches).1.rename f, (forest.grow branches).2) := by
  simp [grow, rename]

@[simp]
theorem append_rename (forest : Forest) (list : Nat) (branches : Array Branch) :
    (forest.rename f).append list (branches.map (Branch.rename f)) =
      (forest.append list branches).rename f := by
  simp only [append, rename, mk.injEq]
  apply Array.ext_getElem?
  intro i
  simp only [Array.getElem?_modify, Array.getElem?_map]
  cases forest.lists[i]? with
  | none => simp
  | some own =>
      by_cases same : list = i
      · simp [same]
      · simp [same]

theorem gather_rename (forest : Forest) (out : Option Nat) (symbol : String) (value : Branch) :
    (forest.rename f).gather out symbol (value.rename f) =
      ((forest.gather out symbol value).1.rename f, (forest.gather out symbol value).2) := by
  have grown : ∀ branch : Branch, (forest.rename f).grow #[branch.rename f] =
      ((forest.grow #[branch]).1.rename f, (forest.grow #[branch]).2) := by
    intro branch
    simpa using grow_rename f forest #[branch]
  have appended : ∀ out (branch : Branch), (forest.rename f).append out #[branch.rename f] =
      (forest.append out #[branch]).rename f := by
    intro out branch
    simpa using append_rename f forest out #[branch]
  cases value with
  | leaf leaf =>
      have own := grown (.leaf leaf)
      have own' := fun out => appended out (.leaf leaf)
      simp only [Branch.rename] at own own'
      cases out with
      | none => simp only [gather, Branch.rename, own]
      | some out => simp only [gather, Branch.rename, own']
  | node rule list =>
      have own := grown (.node rule list)
      have own' := fun out => appended out (.node rule list)
      simp only [Branch.rename] at own own'
      cases out with
      | none =>
          simp only [gather, Branch.rename, own]
          split <;> rfl
      | some out =>
          have empty : ((forest.children out).map (Branch.rename f)).isEmpty =
              (forest.children out).isEmpty := by
            simp [Array.isEmpty]
          simp only [gather, Branch.rename, children_rename, append_rename, own', empty]
          split
          · split <;> rfl
          · rfl

theorem gatherAll_rename (forest : Forest) (out : Option Nat) (values : List (String × Branch)) :
    (forest.rename f).gatherAll out (values.map fun value => (value.1, value.2.rename f)) =
      ((forest.gatherAll out values).1.rename f, (forest.gatherAll out values).2) := by
  induction values generalizing forest out with
  | nil => rfl
  | cons value values ih =>
      simp only [List.map_cons, gatherAll, gather_rename]
      exact ih _ _

theorem gathered_rename (forest : Forest) (values : List (String × Branch)) :
    (forest.rename f).gathered (values.map fun value => (value.1, value.2.rename f)) =
      ((forest.gathered values).1.rename f, (forest.gathered values).2) := by
  unfold gathered
  rw [gatherAll_rename]
  rcases forest.gatherAll none values with ⟨middle, _ | list⟩
  · simpa using grow_rename f middle #[]
  · rfl

theorem settle_rename (forest : Forest) (transparent : List String) (origin : String)
    (list : Nat) : (forest.rename f).settle transparent origin list =
      (forest.settle transparent origin list).rename f := by
  unfold settle
  rw [children_rename, Array.toList_map]
  rcases (forest.children list).toList with _ | ⟨child, _ | ⟨second, rest⟩⟩
  · rfl
  · simp only [List.map_cons, List.map_nil]
    split <;> rfl
  · rfl

theorem reduce_rename (transparent : List String) (forest : Forest) (production : Production)
    (values : List Branch) :
    (forest.rename f).reduce transparent production (values.map (Branch.rename f)) =
      ((forest.reduce transparent production values).1.rename f,
        (forest.reduce transparent production values).2.rename f) := by
  have pairs : production.symbols.zip (values.map (Branch.rename f)) =
      (production.symbols.zip values).map fun value => (value.1, value.2.rename f) := by
    rw [List.zip_map_right]
    rfl
  rw [reduce_eq_settle, reduce_eq_settle, pairs, gathered_rename, settle_rename]

theorem unfold_rename (forest : Forest) (depth : Nat) (branch : Branch) :
    (forest.rename f).unfold depth (branch.rename f) = (forest.unfold depth branch).rename f := by
  induction depth generalizing branch with
  | zero => cases branch <;> simp [unfold, Branch.rename, SyntaxTree.rename]
  | succ depth ih =>
      cases branch with
      | leaf leaf => simp [unfold, Branch.rename, SyntaxTree.rename]
      | node rule list =>
          have below : (Branch.node rule list).rename f = .node rule list := rfl
          simp only [below, unfold, children_rename, Array.toList_map, SyntaxTree.rename,
            List.map_map, Function.comp_def, ih]

@[simp]
theorem tree_rename (forest : Forest) (branch : Branch) :
    (forest.rename f).tree (branch.rename f) = (forest.tree branch).rename f := by
  rw [tree, size_rename, unfold_rename]
  rfl

theorem spliced_rename (forest : Forest) (depth : Nat) (branches : List Branch) :
    (forest.rename f).spliced depth (branches.map (Branch.rename f)) =
      (forest.spliced depth branches).map (Branch.rename f) := by
  induction depth generalizing branches with
  | zero => rfl
  | succ depth ih =>
      simp only [spliced, List.flatMap_map, List.map_flatMap]
      apply List.flatMap_congr
      intro branch _
      cases branch with
      | leaf leaf => rfl
      | node rule list =>
          simp only [Branch.rename, children_rename, Array.toList_map]
          split
          · exact ih _
          · rfl

theorem partialTree_rename (forest : Forest) (rule : String) (values : List Branch) :
    (forest.rename f).partialTree rule (values.map (Branch.rename f)) =
      (forest.partialTree rule values).rename f := by
  simp only [partialTree, size_rename, spliced_rename, SyntaxTree.rename, List.map_map,
    Function.comp_def, tree_rename]

end Forest

def LiveParser.rename (f : Nat → Nat) (parser : LiveParser) : LiveParser :=
  ⟨parser.forest.rename f, parser.stack.map (Frame.map (Branch.rename f))⟩

theorem LiveParser.rename_initial (f : Nat → Nat) : LiveParser.initial.rename f = .initial := by
  simp [LiveParser.rename, LiveParser.initial, Forest.rename, Forest.empty]

theorem Automaton.acceptable_map {ν υ : Type} (automaton : Automaton) (f : ν → υ)
    (stack : List (Frame ν)) :
    automaton.acceptable (stack.map (Frame.map f)) = automaton.acceptable stack := by
  have same : automaton.takes (stack.map (Frame.map f)) = automaton.takes stack := by
    funext terminal
    simp only [takes, List.map_map]
    rfl
  rw [acceptable, acceptable, topState_map, same]

namespace Grammar

variable (grammar : Grammar) (f : Nat → Nat)

theorem feed_rename (terminal : String) (leaf : Leaf) (parser : LiveParser) :
    grammar.feed terminal (leaf.rename f) (parser.rename f) =
      (grammar.feed terminal leaf parser).map (.map (Forest.rename f) (Branch.rename f)) :=
  Automaton.feed_map (Branch.rename f) (Forest.rename f)
    (Forest.reduce_rename f grammar.transparent) (.leaf leaf) parser.forest parser.stack

/-- What becomes of trials when positions change. -/
def renameTrial (result : Forest × Option (String × List (Frame Branch))) :
    Forest × Option (String × List (Frame Branch)) :=
  (result.1.rename f, result.2.map fun found =>
    (found.1, found.2.map (Frame.map (Branch.rename f))))

theorem insertBefore_rename (terminal : String) (index : Nat) (stack : List (Frame Branch))
    (names : List String) (forest : Forest) :
    grammar.insertBefore terminal (f index) (stack.map (Frame.map (Branch.rename f))) names
        (forest.rename f) =
      (grammar.insertBefore terminal index stack names forest).map (renameTrial f) := by
  induction names generalizing forest with
  | nil => rfl
  | cons name names ih =>
      have fed : grammar.feed name (.conjured name (f index))
          ⟨forest.rename f, stack.map (Frame.map (Branch.rename f))⟩ = _ :=
        grammar.feed_rename f name (.conjured name index) ⟨forest, stack⟩
      have fedAgain : ∀ (middle : Forest) (trial : List (Frame Branch)),
          grammar.feed terminal (.token (f index))
            ⟨middle.rename f, trial.map (Frame.map (Branch.rename f))⟩ = _ :=
        fun middle trial => grammar.feed_rename f terminal (.token index) ⟨middle, trial⟩
      rw [insertBefore, insertBefore, fed]
      cases grammar.feed name (.conjured name index) ⟨forest, stack⟩ with
      | error fault => rfl
      | ok outcome =>
          cases outcome with
          | refused => rfl
          | shifted middle trial | accepted middle value trial =>
              simp only [Except.map, Outcome.map, lift_ok_bind, fedAgain]
              cases grammar.feed terminal (.token index) ⟨middle, trial⟩ with
              | error fault => rfl
              | ok outcome =>
                  cases outcome with
                  | refused left stuck => exact ih left
                  | shifted | accepted => rfl

theorem step_rename (terminal : String) (index : Nat) (parser : LiveParser) :
    grammar.step terminal (f index) (parser.rename f) =
      (grammar.step terminal index parser).map fun result =>
        (result.1.rename f, result.2.map (Repair.rename f)) := by
  have fed : grammar.feed terminal (.token (f index)) (parser.rename f) = _ :=
    grammar.feed_rename f terminal (.token index) parser
  rw [step, step, fed]
  cases grammar.feed terminal (.token index) parser with
  | error fault => rfl
  | ok outcome =>
      cases outcome with
      | shifted => rfl
      | accepted => rfl
      | refused forest stack =>
          have listed := grammar.automaton.acceptable_map (Branch.rename f) stack
          simp only [Except.map, Outcome.map, lift_ok_bind, listed]
          cases grammar.automaton.acceptable stack with
          | error fault => rfl
          | ok names =>
              simp only [lift_ok_bind, insertBefore_rename]
              cases grammar.insertBefore terminal index stack
                  (grammar.repairs.filter names.contains) forest with
              | error fault => rfl
              | ok result =>
                  obtain ⟨left, found⟩ := result
                  cases found <;> rfl

theorem steps_rename (placed : List (Token × Nat)) (parser : LiveParser) :
    grammar.steps (placed.map fun token => (token.1, f token.2)) (parser.rename f) =
      (grammar.steps placed parser).map fun result =>
        (result.1.rename f, result.2.map (Repair.rename f)) := by
  induction placed generalizing parser with
  | nil => rfl
  | cons token rest ih =>
      obtain ⟨token, index⟩ := token
      simp only [List.map_cons, steps, step_rename]
      cases grammar.step (grammar.terminalOf token) index parser with
      | error fault => rfl
      | ok result =>
          obtain ⟨next, repair⟩ := result
          simp only [Except.map, ok_bind, ih]
          cases grammar.steps rest next with
          | error fault => rfl
          | ok later =>
              obtain ⟨last, repairs⟩ := later
              cases repair <;> rfl

theorem partialParse_rename (parser : LiveParser) :
    grammar.partialParse (parser.rename f) = (grammar.partialParse parser).rename f := by
  have values : ((parser.rename f).stack.map (·.value)).reverse =
      (parser.stack.map (·.value)).reverse.map (Branch.rename f) := by
    simp [LiveParser.rename, Frame.map, Function.comp_def]
  rw [partialParse, values]
  exact Forest.partialTree_rename f _ _ _

theorem finishWithin_rename (eof rounds : Nat) (parser : LiveParser) :
    grammar.finishWithin (f eof) rounds (parser.rename f) =
      (grammar.finishWithin eof rounds parser).map fun result =>
        (result.1.rename f, result.2.map (Repair.rename f)) := by
  induction rounds generalizing parser with
  | zero =>
      simp only [finishWithin, partialParse_rename]
      rfl
  | succ rounds ih =>
      have listed : grammar.automaton.acceptable (parser.rename f).stack = _ :=
        grammar.automaton.acceptable_map (Branch.rename f) parser.stack
      have fed : ∀ name, grammar.feed name (.conjured name (f eof)) (parser.rename f) = _ :=
        fun name => grammar.feed_rename f name (.conjured name eof) parser
      simp only [finishWithin, listed, fed, partialParse_rename]
      cases grammar.automaton.acceptable parser.stack with
      | error fault => rfl
      | ok names =>
          simp only [lift_ok_bind]
          split
          · cases grammar.feed endMarker (.conjured endMarker eof) parser with
            | error fault => rfl
            | ok outcome =>
                cases outcome with
                | shifted => rfl
                | refused => rfl
                | accepted forest value stack =>
                    simp only [Except.map, Outcome.map, lift_ok_bind, Forest.tree_rename]
                    rfl
          · cases grammar.repairs.find? names.contains with
            | none => rfl
            | some name =>
                simp only
                cases grammar.feed name (.conjured name eof) parser with
                | error fault => rfl
                | ok outcome =>
                    cases outcome with
                    | refused => rfl
                    | accepted => rfl
                    | shifted forest stack =>
                        have later := ih ⟨forest, stack⟩
                        simp only [LiveParser.rename] at later
                        simp only [Except.map, Outcome.map, lift_ok_bind, later]
                        cases grammar.finishWithin eof rounds ⟨forest, stack⟩ with
                        | error fault => rfl
                        | ok result => rfl

end Grammar

end Typeahead
