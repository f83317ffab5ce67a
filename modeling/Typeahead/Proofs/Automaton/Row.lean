import Typeahead.Proofs.Automaton.Acceptable

namespace Typeahead.Automaton

/-!
The parser's stack as a row of values with their symbols, the lowest first.  A reduction replaces
the values of a production at the end of the row by the value of its origin.
-/

variable {σ ν : Type} {automaton : Automaton} {reduce : σ → Production → List ν → σ × ν}
  {terminal : String} {store last : σ} {stack lastStack : List (Frame ν)} {symbols : List String}

/-- The values on a stack with the symbols that led to them, the lowest first. -/
def row (symbols : List String) (stack : List (Frame ν)) : List (String × ν) :=
  symbols.reverse.zip (stack.map (·.value)).reverse

theorem row_append {above below : List String} {popped rest : List (Frame ν)}
    (sized : below.length = rest.length) :
    row (above ++ below) (popped ++ rest) =
      row below rest ++ above.reverse.zip (popped.map (·.value)).reverse := by
  simp only [row, List.reverse_append, List.map_append]
  exact List.zip_append (by simp [sized])

theorem row_cons {symbol : String} {frame : Frame ν} (sized : symbols.length = stack.length) :
    row (symbol :: symbols) (frame :: stack) = row symbols stack ++ [(symbol, frame.value)] :=
  @row_append ν [symbol] symbols [frame] stack sized

theorem row_map {υ : Type} (f : ν → υ) (symbols : List String) (stack : List (Frame ν)) :
    row symbols (stack.map (Frame.map f)) =
      (row symbols stack).map fun value => (value.1, f value.2) := by
  have values : (stack.map (Frame.map f)).map (·.value) = (stack.map (·.value)).map f := by
    simp [Frame.map, Function.comp_def]
  rw [row, values, ← List.map_reverse, List.zip_map_right]
  rfl

theorem Linked.map_snd_row (linked : Linked automaton symbols stack) :
    (row symbols stack).map (·.2) = (stack.map (·.value)).reverse := by
  apply List.map_snd_zip
  simp [linked.length_eq]

theorem Reduces.unread (step : Reduces reduce terminal automaton store stack last lastStack) :
    automaton.states.move? (topState stack) terminal = none := by
  cases step with
  | mk action => exact (mem_reductions_of_action? action).1

theorem unread_of_stuck {s : Nat} (stuck : automaton.action? s terminal = none) :
    automaton.states.move? s terminal = none := by
  cases move : automaton.states.move? s terminal with
  | none => rfl
  | some next => simp [action?, move] at stuck

/-- What one reduction does to the row.  After an empty production the terminal can be read. -/
theorem Reduces.exists_row (linked : Linked automaton symbols stack)
    (step : Reduces reduce terminal automaton store stack last lastStack) :
    ∃ production ∈ automaton.table.productions, ∃ below values lastSymbols,
      values.length = production.symbols.length ∧
      row symbols stack = below ++ production.symbols.zip values ∧
      Linked automaton lastSymbols lastStack ∧
      row lastSymbols lastStack =
        below ++ [(production.origin, (reduce store production values).2)] ∧
      last = (reduce store production values).1 ∧
      (production.symbols = [] → automaton.table.Proper → terminal ≠ endMarker →
        ∃ target, automaton.states.move? (topState lastStack) terminal = some target) := by
  obtain ⟨p, production, popped, rest, restSymbols, next, action, found, rfl, rfl, sized,
    linkedBelow, move, rfl, rfl⟩ := step.exists_production linked
  refine ⟨production, Array.mem_of_getElem? found, row restSymbols rest,
    (popped.map (·.value)).reverse, production.origin :: restSymbols, by simp [sized], ?_,
    .cons move linkedBelow, row_cons linkedBelow.length_eq, rfl, ?_⟩
  · rw [row_append linkedBelow.length_eq, List.reverse_reverse]
  · intro empty proper inner
    have none : popped = [] := List.eq_nil_of_length_eq_zero (by simp [sized, empty])
    subst none
    rcases move?_after_empty proper.disjoint proper.guarded found empty action move with
      readable | ⟨ended, -⟩
    · exact readable
    · exact absurd ended inner

/-- What every reduction keeps, the reductions for a terminal keep. -/
theorem Runs.row_induction {P : σ → List (String × ν) → Prop}
    (run : Runs reduce terminal automaton store stack last lastStack)
    (linked : Linked automaton symbols stack) (first : P store (row symbols stack))
    (step : ∀ store below production values, production ∈ automaton.table.productions →
      values.length = production.symbols.length →
      P store (below ++ production.symbols.zip values) →
      P (reduce store production values).1
        (below ++ [(production.origin, (reduce store production values).2)])) :
    ∃ lastSymbols, Linked automaton lastSymbols lastStack ∧ P last (row lastSymbols lastStack) := by
  induction run with
  | refl => exact ⟨symbols, linked, first⟩
  | tail _ reduction ih =>
      obtain ⟨middleSymbols, middleLinked, holds⟩ := ih
      obtain ⟨production, member, below, values, lastSymbols, sized, split, lastLinked, made, rfl,
        -⟩ := reduction.exists_row middleLinked
      refine ⟨lastSymbols, lastLinked, ?_⟩
      rw [made]
      rw [split] at holds
      exact step _ below production values member sized holds

/-- A terminal that cannot be read where the reductions end has asked for no empty production: that
terminal could be read just after it. -/
theorem Runs.row_induction_of_unread {P : σ → List (String × ν) → Prop}
    (run : Runs reduce terminal automaton store stack last lastStack)
    (proper : automaton.table.Proper) (inner : terminal ≠ endMarker)
    (linked : Linked automaton symbols stack) (first : P store (row symbols stack))
    (step : ∀ store below production values, production ∈ automaton.table.productions →
      production.symbols ≠ [] → values.length = production.symbols.length →
      P store (below ++ production.symbols.zip values) →
      P (reduce store production values).1
        (below ++ [(production.origin, (reduce store production values).2)]))
    (unread : automaton.states.move? (topState lastStack) terminal = none) :
    ∃ lastSymbols, Linked automaton lastSymbols lastStack ∧ P last (row lastSymbols lastStack) := by
  induction run with
  | refl => exact ⟨symbols, linked, first⟩
  | tail _ reduction ih =>
      obtain ⟨middleSymbols, middleLinked, holds⟩ := ih reduction.unread
      obtain ⟨production, member, below, values, lastSymbols, sized, split, lastLinked, made, rfl,
        readable⟩ := reduction.exists_row middleLinked
      refine ⟨lastSymbols, lastLinked, ?_⟩
      have nonempty : production.symbols ≠ [] := by
        intro empty
        obtain ⟨target, move⟩ := readable empty proper inner
        rw [unread] at move
        cases move
      rw [made]
      rw [split] at holds
      exact step _ below production values member nonempty sized holds

end Typeahead.Automaton
