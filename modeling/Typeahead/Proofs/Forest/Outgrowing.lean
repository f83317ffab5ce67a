import Typeahead.Proofs.Forest.Condensing

namespace Typeahead

/-!
The trees of a row that changes.  Each rule has a weight, and a tree weighs what its rules and
leaves weigh together.  Lists that grow make trees heavier, and so does a production with one symbol
unless its rule gives way to its child; any longer production makes the row shorter.
-/

namespace SyntaxTree

mutual

def weight (weigh : String → Nat) : SyntaxTree → Nat
  | .leaf _ => 1
  | .node rule children => weigh rule + weights weigh children

def weights (weigh : String → Nat) : List SyntaxTree → Nat
  | [] => 0
  | tree :: rest => tree.weight weigh + weights weigh rest

end

/-- There are fewer trees than before, or as many and they are heavier. -/
def Outgrown (weigh : String → Nat) (before after : List SyntaxTree) : Prop :=
  after.length < before.length ∨
    after.length = before.length ∧ weights weigh before < weights weigh after

variable {weigh : String → Nat}

theorem weights_append (first second : List SyntaxTree) :
    weights weigh (first ++ second) = weights weigh first + weights weigh second := by
  induction first with
  | nil => simp [weights]
  | cons tree rest ih =>
      rw [List.cons_append, weights, weights, ih]
      omega

theorem weights_singleton (tree : SyntaxTree) : weights weigh [tree] = tree.weight weigh := by
  simp [weights]

theorem weights_map_le {ι : Type} {f g : ι → SyntaxTree} {items : List ι}
    (below : ∀ item ∈ items, (f item).weight weigh ≤ (g item).weight weigh) :
    weights weigh (items.map f) ≤ weights weigh (items.map g) := by
  induction items with
  | nil => exact Nat.le_refl _
  | cons item rest ih =>
      rw [List.forall_mem_cons] at below
      have later := ih below.2
      rw [List.map_cons, List.map_cons, weights, weights]
      omega

theorem weight_pos (positive : ∀ rule, 0 < weigh rule) (tree : SyntaxTree) :
    0 < tree.weight weigh := by
  cases tree with
  | leaf terminal => exact Nat.one_pos
  | node rule children =>
      rw [weight]
      exact Nat.add_pos_left (positive rule) _

theorem weights_pos (positive : ∀ rule, 0 < weigh rule) {trees : List SyntaxTree}
    (filled : trees ≠ []) : 0 < weights weigh trees := by
  cases trees with
  | nil => exact absurd rfl filled
  | cons tree rest =>
      rw [weights]
      exact Nat.add_pos_left (tree.weight_pos positive) _

namespace Outgrown

variable {first second third : List SyntaxTree}

theorem trans (earlier : Outgrown weigh first second) (later : Outgrown weigh second third) :
    Outgrown weigh first third := by
  unfold Outgrown at *
  omega

theorem ne (outgrown : Outgrown weigh first second) : second ≠ first := by
  intro same
  rw [same, Outgrown] at outgrown
  omega

end Outgrown

end SyntaxTree

/-- Whether the value of the production's only symbol stays as it is: the rule gives way to it. -/
def Production.isSilent (transparent : List String) (production : Production) : Bool :=
  production.symbols.length == 1 && transparent.contains production.origin

namespace Forest

variable {level level' : Nat → Nat} {forest grown : Forest} {list : Nat} {branch : Branch}
  {row below : List (String × Branch)} {weigh : String → Nat}

def rowTrees (forest : Forest) (row : List (String × Branch)) : List SyntaxTree :=
  row.map fun value => forest.tree value.2

theorem rowTrees_append (forest : Forest) (first second : List (String × Branch)) :
    forest.rowTrees (first ++ second) = forest.rowTrees first ++ forest.rowTrees second :=
  List.map_append

theorem length_rowTrees (forest : Forest) (row : List (String × Branch)) :
    (forest.rowTrees row).length = row.length :=
  List.length_map _

namespace Extends

variable (extended : forest.Extends grown)

include extended

theorem weight_unfold {depth more : Nat} (deeper : depth ≤ more) :
    (forest.unfold depth branch).weight weigh ≤ (grown.unfold more branch).weight weigh := by
  induction depth generalizing branch more with
  | zero =>
      cases branch with
      | leaf terminal => simp
      | node rule list => cases more <;> simp [unfold, SyntaxTree.weight, SyntaxTree.weights]
  | succ depth ih =>
      obtain ⟨spare, rfl⟩ : ∃ spare, more = spare + 1 := ⟨more - 1, by omega⟩
      cases branch with
      | leaf terminal => simp
      | node rule list =>
          obtain ⟨added, split⟩ := extended.children_prefix list
          have kept : SyntaxTree.weights weigh
              ((forest.children list).toList.map (forest.unfold depth)) ≤
                SyntaxTree.weights weigh
                  ((forest.children list).toList.map (grown.unfold spare)) :=
            SyntaxTree.weights_map_le fun child _ => ih (by omega)
          simp only [unfold, SyntaxTree.weight]
          rw [← split, List.map_append, SyntaxTree.weights_append]
          omega

theorem weight_tree (branch : Branch) :
    (forest.tree branch).weight weigh ≤ (grown.tree branch).weight weigh :=
  extended.weight_unfold extended.size_le

theorem weights_rowTrees (row : List (String × Branch)) :
    SyntaxTree.weights weigh (forest.rowTrees row) ≤
      SyntaxTree.weights weigh (grown.rowTrees row) :=
  SyntaxTree.weights_map_le fun value _ => extended.weight_tree value.2

theorem outgrown {before : List SyntaxTree}
    (outgrown : SyntaxTree.Outgrown weigh before (forest.rowTrees row)) :
    SyntaxTree.Outgrown weigh before (grown.rowTrees row) := by
  have heavier : SyntaxTree.weights weigh (forest.rowTrees row) ≤
      SyntaxTree.weights weigh (grown.rowTrees row) := extended.weights_rowTrees row
  unfold SyntaxTree.Outgrown at *
  rw [length_rowTrees] at *
  omega

/-- A value whose own list has grown makes the row heavier. -/
theorem outgrown_of_longer (positive : ∀ rule, 0 < weigh rule) (leveled : Leveled level forest)
    (leveled' : Leveled level' grown) {symbol rule : String}
    (member : (symbol, .node rule list) ∈ row)
    (longer : (forest.children list).size < (grown.children list).size) :
    SyntaxTree.Outgrown weigh (forest.rowTrees row) (grown.rowTrees row) := by
  have heavier : (forest.tree (.node rule list)).weight weigh <
      (grown.tree (.node rule list)).weight weigh := by
    obtain ⟨added, split⟩ := extended.children_prefix list
    have filled : added.map grown.tree ≠ [] := by
      intro empty
      rw [List.map_eq_nil_iff.1 empty, List.append_nil] at split
      rw [← Array.length_toList, ← Array.length_toList, split] at longer
      exact Nat.lt_irrefl _ longer
    have kept : SyntaxTree.weights weigh ((forest.children list).toList.map forest.tree) ≤
        SyntaxTree.weights weigh ((forest.children list).toList.map grown.tree) :=
      SyntaxTree.weights_map_le fun child _ => extended.weight_tree child
    have more := SyntaxTree.weights_pos positive filled
    rw [leveled.tree_node, leveled'.tree_node, SyntaxTree.weight, SyntaxTree.weight, ← split,
      List.map_append, SyntaxTree.weights_append]
    omega
  obtain ⟨before, after, rfl⟩ := List.append_of_mem member
  have lower : SyntaxTree.weights weigh (forest.rowTrees before) ≤
      SyntaxTree.weights weigh (grown.rowTrees before) := extended.weights_rowTrees before
  have upper : SyntaxTree.weights weigh (forest.rowTrees after) ≤
      SyntaxTree.weights weigh (grown.rowTrees after) := extended.weights_rowTrees after
  have split : ∀ forest : Forest, SyntaxTree.weights weigh
      (forest.rowTrees (before ++ (symbol, .node rule list) :: after)) =
        SyntaxTree.weights weigh (forest.rowTrees before) +
          ((forest.tree (.node rule list)).weight weigh +
            SyntaxTree.weights weigh (forest.rowTrees after)) := by
    intro forest
    rw [rowTrees_append, SyntaxTree.weights_append]
    rfl
  refine .inr ⟨by rw [length_rowTrees, length_rowTrees], ?_⟩
  rw [split, split]
  omega

end Extends

theorem rowTrees_congr {height : Nat} (leveled : Leveled level forest)
    (fits : RowFits level forest height row) (larger : forest.lists.size ≤ grown.lists.size)
    (agree : ∀ list < forest.lists.size, grown.children list = forest.children list) :
    grown.rowTrees row = forest.rowTrees row := by
  apply List.map_congr_left
  intro value member
  obtain ⟨above, -, fit⟩ := exists_fits_of_mem fits member
  exact leveled.tree_congr larger (fun list reaches => leveled.lt_size_of_reaches fit reaches)
    fun list reaches => agree list (leveled.lt_size_of_reaches fit reaches)

/-- The values of inlined rules are nodes of those rules. -/
def Labeled (row : List (String × Branch)) : Prop :=
  ∀ symbol rule list, (symbol, .node rule list) ∈ row → isInlined symbol = true → rule = symbol

theorem labeled_concat {symbol : String}
    (labeled : Labeled row) (top : ∀ rule list, branch = .node rule list →
      isInlined symbol = true → rule = symbol) : Labeled (row ++ [(symbol, branch)]) := by
  intro other rule list member inlined
  rcases List.mem_append.1 member with old | new
  · exact labeled other rule list old inlined
  · obtain ⟨rfl, same⟩ := Prod.mk.inj (List.mem_singleton.1 new)
    exact top rule list same.symm inlined

theorem Labeled.last {symbol : String} (labeled : Labeled (row ++ [(symbol, branch)])) :
    ∀ rule list, branch = .node rule list → isInlined symbol = true → rule = symbol := by
  intro rule list same
  exact labeled symbol rule list (by simp [same])

section Reduced

variable {transparent : List String} {production : Production} {branches : List Branch}

theorem labeled_reduce (forest : Forest)
    (labeled : Labeled (below ++ production.symbols.zip branches))
    (kept : isInlined production.origin = true →
      transparent.contains production.origin = false) :
    Labeled
      (below ++ [(production.origin, (forest.reduce transparent production branches).2)]) := by
  apply labeled_concat
  · intro symbol rule list member
    exact labeled symbol rule list (List.mem_append_left _ member)
  · intro rule list same inlined
    obtain ⟨_, node⟩ := exists_node_of_reduce (kept inlined) forest branches
    rw [same] at node
    exact (Branch.node.inj node).1

/-- The only value that a production with one symbol changes is that of the symbol. -/
theorem rowTrees_reduce_single {origin symbol : String} (leveled : Leveled level forest)
    (fits : RowFits level forest 0 (below ++ [(symbol, branch)])) :
    (forest.reduce transparent ⟨origin, [symbol]⟩ [branch]).1.rowTrees
        (below ++ [(origin, (forest.reduce transparent ⟨origin, [symbol]⟩ [branch]).2)]) =
      forest.rowTrees below ++ [SyntaxTree.settle transparent origin
        ((forest.contribution (symbol, branch)).map forest.tree)] := by
  obtain ⟨rest, taken⟩ := rowFits_append.1 fits
  have taken' : RowFits level forest (0 + below.length)
      ((⟨origin, [symbol]⟩ : Production).symbols.zip [branch]) := taken
  have top : (forest.reduce transparent ⟨origin, [symbol]⟩ [branch]).1.tree
      (forest.reduce transparent ⟨origin, [symbol]⟩ [branch]).2 =
        SyntaxTree.settle transparent origin
          ((forest.contribution (symbol, branch)).map forest.tree) := by
    simpa using tree_reduce leveled taken'
  have extended : forest.Extends (forest.reduce transparent ⟨origin, [symbol]⟩ [branch]).1 :=
    (growth_reduce taken').extended
  rw [rowTrees_append, rowTrees_congr leveled rest extended.size_le]
  · simp [rowTrees, top]
  · intro list inside
    exact children_reduce taken' inside (by simp [appendedTo?])

/-- The tree of a rule over one symbol is that of the symbol's value, if the rule is transparent,
and heavier otherwise. -/
theorem weight_settle {origin symbol : String} (leveled : Leveled level forest)
    (named : ∀ rule list, branch = .node rule list → isInlined symbol = true → rule = symbol)
    (positive : ∀ rule, 0 < weigh rule) (lighter : weigh symbol < weigh origin)
    (kept : isInlined symbol = true → transparent.contains origin = false) :
    (transparent.contains origin = true → SyntaxTree.settle transparent origin
        ((forest.contribution (symbol, branch)).map forest.tree) = forest.tree branch) ∧
      (transparent.contains origin = false →
        (forest.tree branch).weight weigh < (SyntaxTree.settle transparent origin
          ((forest.contribution (symbol, branch)).map forest.tree)).weight weigh) := by
  by_cases alone : forest.contribution (symbol, branch) = [branch]
  · rw [alone, List.map_singleton]
    constructor
    · intro listed
      simp only [SyntaxTree.settle, listed, if_true]
    · intro unlisted
      have more := positive origin
      rw [SyntaxTree.settle_of_not_transparent unlisted, SyntaxTree.weight,
        SyntaxTree.weights_singleton]
      omega
  · cases branch with
    | leaf terminal => exact absurd rfl alone
    | node rule list =>
        by_cases inlined : isInlined symbol = true
        · obtain rfl := named rule list rfl inlined
          refine ⟨?_, ?_⟩
          · intro listed
            rw [kept inlined] at listed
            cases listed
          · intro unlisted
            rw [SyntaxTree.settle_of_not_transparent unlisted, leveled.tree_node,
              SyntaxTree.weight, SyntaxTree.weight, contribution, if_pos inlined]
            omega
        · exact absurd (by rw [contribution, if_neg inlined]) alone

section Changed

variable (leveled : Leveled level forest)
  (fits : RowFits level forest 0 (below ++ production.symbols.zip branches))
  (labeled : Labeled (below ++ production.symbols.zip branches))
  (sized : branches.length = production.symbols.length) (positive : ∀ rule, 0 < weigh rule)
  (single : ∀ symbol, production.symbols = [symbol] → weigh symbol < weigh production.origin ∧
    (isInlined symbol = true → transparent.contains production.origin = false))

include leveled fits labeled sized positive single

theorem rowTrees_reduce_of_silent (silent : production.isSilent transparent = true) :
    (forest.reduce transparent production branches).1.rowTrees
        (below ++ [(production.origin, (forest.reduce transparent production branches).2)]) =
      forest.rowTrees (below ++ production.symbols.zip branches) := by
  rcases production with ⟨origin, symbols⟩
  obtain ⟨counted, listed⟩ := Bool.and_eq_true_iff.1 silent
  obtain ⟨symbol, rfl⟩ := List.length_eq_one_iff.1 (beq_iff_eq.1 counted)
  obtain ⟨branch, rfl⟩ := List.length_eq_one_iff.1 sized
  obtain ⟨lighter, kept⟩ := single symbol rfl
  obtain ⟨same, -⟩ := weight_settle leveled (Labeled.last labeled) positive lighter kept
  have before : forest.rowTrees (below ++ [symbol].zip [branch]) =
      forest.rowTrees below ++ [forest.tree branch] := rowTrees_append _ _ _
  rw [rowTrees_reduce_single leveled fits, same listed]
  exact before.symm

/-- A production that is not silent makes the row shorter or heavier. -/
theorem outgrown_reduce (nonempty : production.symbols ≠ [])
    (loud : production.isSilent transparent = false) :
    SyntaxTree.Outgrown weigh (forest.rowTrees (below ++ production.symbols.zip branches))
      ((forest.reduce transparent production branches).1.rowTrees
        (below ++ [(production.origin, (forest.reduce transparent production branches).2)])) := by
  rcases production with ⟨origin, symbols⟩
  match symbols, branches, nonempty, sized with
  | first :: second :: symbols, one :: two :: branches, _, _ =>
      left
      simp [length_rowTrees]
  | [symbol], [branch], _, _ =>
      have unlisted : transparent.contains origin = false := by
        simpa [Production.isSilent] using loud
      obtain ⟨lighter, kept⟩ := single symbol rfl
      obtain ⟨-, heavier⟩ := weight_settle leveled (Labeled.last labeled) positive lighter kept
      have more := heavier unlisted
      have before : forest.rowTrees (below ++ [symbol].zip [branch]) =
          forest.rowTrees below ++ [forest.tree branch] := rowTrees_append _ _ _
      rw [before, rowTrees_reduce_single leveled fits]
      refine .inr ⟨by simp, ?_⟩
      rw [SyntaxTree.weights_append, SyntaxTree.weights_append, SyntaxTree.weights_singleton,
        SyntaxTree.weights_singleton]
      exact Nat.add_lt_add_left more _

end Changed

section Gathered

variable {height : Nat} (fitting : RowFits level forest height (production.symbols.zip branches))

include fitting

/-- The list of a first value that is inlined grows when more values are gathered into it. -/
theorem size_children_lt_reduce {symbol rule : String} {second : String × Branch}
    {rest : List (String × Branch)}
    (split : production.symbols.zip branches = (symbol, .node rule list) :: second :: rest)
    (inlined : isInlined symbol = true) :
    (forest.children list).size <
      ((forest.reduce transparent production branches).1.children list).size := by
  have listed := children_assemble fitting
  have number : (forest.assemble (production.symbols.zip branches)).2 = list := by
    rw [split, assemble, if_pos inlined]
  rw [number, split, List.flatMap_cons, contribution, if_pos inlined] at listed
  have fits : RowFits level forest (height + 1) (second :: rest) := by
    rw [split] at fitting
    exact fitting.2
  have filled := List.length_pos_iff.2 (contributions_ne_nil fits (List.cons_ne_nil _ _))
  rw [reduce_eq fitting.gatherable, split, ← Array.length_toList, ← Array.length_toList, listed,
    List.length_append]
  omega

theorem reduce_eq_node (kept : transparent.contains production.origin = false) :
    (forest.reduce transparent production branches).2 =
      .node production.origin (forest.assemble (production.symbols.zip branches)).2 := by
  rw [reduce_eq fitting.gatherable]
  rcases (forest.assemble (production.symbols.zip branches)).1.settle_eq_or transparent
    production.origin (forest.assemble (production.symbols.zip branches)).2 with same | ⟨listed, -⟩
  · exact same
  · rw [kept] at listed
    cases listed

end Gathered

end Reduced

end Forest

end Typeahead
