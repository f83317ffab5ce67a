import Typeahead.Proofs.Automaton.Feed

namespace Typeahead

/-!
What the parser does does not depend on the values it builds.  So the terminals that a run without
values takes are those that every run takes.
-/

def Outcome.taken {σ ν : Type} : Outcome σ ν → Bool
  | .refused .. => false
  | .shifted .. | .accepted .. => true

namespace Automaton

variable {σ τ ν υ : Type} {automaton : Automaton} {reduce : σ → Production → List ν → σ × ν}
  {reduce' : τ → Production → List υ → τ × υ} {terminal : String}

section Values

variable (f : ν → υ) (g : σ → τ)
  (natural : ∀ store production values, reduce' (g store) production (values.map f) =
  (g (reduce store production values).1, f (reduce store production values).2))

include natural

theorem feedUpTo_map (value : ν) (fuel : Nat) (store : σ) (stack : List (Frame ν)) :
    automaton.feedUpTo reduce' terminal (f value) fuel (g store) (stack.map (Frame.map f)) =
      (automaton.feedUpTo reduce terminal value fuel store stack).map (Outcome.map g f) := by
  induction fuel generalizing store stack with
  | zero => rfl
  | succ fuel ih =>
      simp only [feedUpTo, topState_map]
      cases automaton.action? (topState stack) terminal with
      | none => rfl
      | some act =>
          cases act with
          | shift next => rfl
          | reduce p =>
              have values : ∀ count : Nat,
                  (((stack.map (Frame.map f)).take count).map (·.value)).reverse =
                    ((stack.take count).map (·.value)).reverse.map f := by
                intro count
                simp [← List.map_take, Frame.map, Function.comp_def]
              simp only [values, natural, ← List.map_drop, topState_map]
              split
              · rfl
              · split
                · rfl
                · rw [← ih]
                  rfl

theorem feed_map (value : ν) (store : σ) (stack : List (Frame ν)) :
    automaton.feed reduce' terminal (f value) (g store) (stack.map (Frame.map f)) =
      (automaton.feed reduce terminal value store stack).map (Outcome.map g f) := by
  simp only [feed, List.length_map]
  exact feedUpTo_map f g natural value _ store stack

end Values

theorem takes_eq_bare (stack : List (Frame ν)) (terminal : String) :
    automaton.takes stack terminal = (automaton.feed (fun _ _ _ => ((), ())) terminal () ()
      (stack.map (Frame.map fun _ => ()))).map Outcome.taken := by
  have bare : stack.map (fun frame => (⟨frame.state, ()⟩ : Frame Unit)) =
      stack.map (Frame.map fun _ => ()) := rfl
  rw [takes, bare]
  cases automaton.feed (fun _ _ _ => ((), ())) terminal () ()
      (stack.map (Frame.map fun _ => ())) with
  | error fault => rfl
  | ok outcome => cases outcome <;> rfl

/-- The parser would take just the terminals that it does take. -/
theorem takes_eq (reduce : σ → Production → List ν → σ × ν) (value : ν) (store : σ)
    (stack : List (Frame ν)) (terminal : String) :
    automaton.takes stack terminal =
      (automaton.feed reduce terminal value store stack).map Outcome.taken := by
  have bare : automaton.feed (fun _ _ _ => ((), ())) terminal () ()
      (stack.map (Frame.map fun _ => ())) =
        (automaton.feed reduce terminal value store stack).map
          (Outcome.map (fun _ => ()) fun _ => ()) :=
    feed_map (fun _ => ()) (fun _ => ()) (fun _ _ _ => rfl) value store stack
  rw [takes_eq_bare, bare]
  cases automaton.feed reduce terminal value store stack with
  | error fault => rfl
  | ok outcome => cases outcome <;> rfl

theorem filterM_eq_ok {α ε : Type} {test : α → Except ε Bool} {as : List α}
    (total : ∀ a ∈ as, ∃ verdict, test a = .ok verdict) :
    ∃ kept, as.filterM test = .ok kept ∧ ∀ a, a ∈ kept ↔ a ∈ as ∧ test a = .ok true := by
  have loop : ∀ kept : List α, ∃ all, as.filterAuxM test kept = .ok all ∧
      ∀ a, a ∈ all ↔ (a ∈ as ∧ test a = .ok true) ∨ a ∈ kept := by
    induction as with
    | nil => exact fun kept => ⟨kept, rfl, by simp⟩
    | cons a rest ih =>
        intro kept
        obtain ⟨verdict, tested⟩ := total a List.mem_cons_self
        have later := ih fun b member => total b (List.mem_cons_of_mem a member)
        cases verdict with
        | false =>
            obtain ⟨all, result, members⟩ := later kept
            refine ⟨all, ?_, ?_⟩
            · rw [List.filterAuxM, tested]
              exact result
            · intro b
              rw [members]
              by_cases same : b = a
              · subst same
                simp [tested]
              · simp [same]
        | true =>
            obtain ⟨all, result, members⟩ := later (a :: kept)
            refine ⟨all, ?_, ?_⟩
            · rw [List.filterAuxM, tested]
              exact result
            · intro b
              rw [members]
              by_cases same : b = a
              · subst same
                simp [tested]
              · simp [same]
  obtain ⟨all, result, members⟩ := loop []
  refine ⟨all.reverse, ?_, ?_⟩
  · rw [List.filterM, result]
    rfl
  · simpa using members

section Acceptable

variable {symbols : List String} {stack : List (Frame ν)} (proper : automaton.table.Proper)
  (linked : Linked automaton symbols stack)

include proper linked

theorem exists_acceptable : ∃ names, automaton.acceptable stack = .ok names ∧
    ∀ name, name ∈ names ↔
      name ∈ automaton.choices (topState stack) ∧ automaton.takes stack name = .ok true := by
  apply filterM_eq_ok
  intro name _
  obtain ⟨outcome, fed, -⟩ := exists_feeds proper (linked.map fun _ => ())
    (fun _ _ _ => ((), ())) name () ()
  rw [takes_eq_bare, fed]
  exact ⟨outcome.taken, rfl⟩

theorem exists_feeds_of_takes {name : String} (takes : automaton.takes stack name = .ok true)
    (reduce : σ → Production → List ν → σ × ν) (value : ν) (store : σ) :
    ∃ outcome, automaton.feed reduce name value store stack = .ok outcome ∧
      Feeds reduce name automaton value store stack outcome ∧ outcome.taken = true := by
  obtain ⟨outcome, fed, feeds⟩ := exists_feeds proper linked reduce name value store
  rw [takes_eq reduce value store, fed] at takes
  exact ⟨outcome, fed, feeds, Except.ok.inj takes⟩

end Acceptable

end Automaton

end Typeahead
