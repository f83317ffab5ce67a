import Mathlib.Data.List.Nodup
import Mathlib.Data.List.Perm.Subperm
import Typeahead.Data.OrderedSet

namespace Typeahead.OrderedSet

/-!
Growth of ordered sets.  Both worklists of the library visit the elements of a set while they add
to it: `growFrom` is their common form, in which what an element adds may depend on the set so far.
If the elements come from a finite stock and there is fuel for all of it, every element is visited.
-/

variable {α : Type} [DecidableEq α] [Hashable α] {set : OrderedSet α} {a : α}

theorem getElem?_elements_insert {i : Nat} {b : α} (found : set.elements[i]? = some b) :
    (set.insert a).elements[i]? = some b := by
  by_cases present : set.contains a
  · simpa only [insert, dif_pos present] using found
  · have bound : i < set.elements.size := by
      by_contra outside
      simp [Array.getElem?_eq_none (Nat.le_of_not_lt outside)] at found
    simp only [insert, dif_neg present]
    rw [Array.getElem?_push_lt bound, ← Array.getElem?_eq_getElem bound, found]

theorem getElem?_elements_insertAll {as : List α} {i : Nat} {b : α}
    (found : set.elements[i]? = some b) : (set.insertAll as).elements[i]? = some b := by
  induction as generalizing set with
  | nil => exact found
  | cons a rest ih => exact ih (getElem?_elements_insert found)

theorem nodup_toList (set : OrderedSet α) : set.toList.Nodup := by
  rw [List.nodup_iff_getElem?_ne_getElem?]
  intro i j before bound same
  have there : j < set.elements.size := bound
  have second : set.elements[j]? = some set.elements[j] := Array.getElem?_eq_getElem there
  have first : set.elements[i]? = some set.elements[j] := by
    simpa only [toList, Array.getElem?_toList, second] using same
  have place := (set.places_iff _ i).2 first
  rw [(set.places_iff _ j).2 second] at place
  have equal : j = i := Option.some.inj place
  omega

theorem size_le_of_subset {stock : List α} (within : ∀ b ∈ set, b ∈ stock) :
    set.size ≤ stock.length := by
  have subset : set.toList ⊆ stock := fun b member => within b (mem_toList.1 member)
  have bound := (List.subperm_of_subset set.nodup_toList subset).length_le
  simpa [toList, size] using bound

/-- Visits the elements from position `done` on, adding what `next` gives for each in the set so
far. -/
def growFrom (next : OrderedSet α → α → List α) : Nat → Nat → OrderedSet α → OrderedSet α
  | 0, _, set => set
  | fuel + 1, done, set =>
      match set.elements[done]? with
      | none => set
      | some a => growFrom next fuel (done + 1) (set.insertAll (next set a))

theorem saturateFrom_eq_growFrom (next : α → List α) (fuel done : Nat) (set : OrderedSet α) :
    saturateFrom next fuel done set = growFrom (fun _ => next) fuel done set := by
  induction fuel generalizing done set with
  | zero => rfl
  | succ fuel ih =>
      unfold saturateFrom growFrom
      cases set.elements[done]? with
      | none => rfl
      | some a => exact ih _ _

section Growth

variable {next : OrderedSet α → α → List α} {fuel done : Nat}

theorem getElem?_elements_growFrom {i : Nat} {b : α} (found : set.elements[i]? = some b) :
    (growFrom next fuel done set).elements[i]? = some b := by
  induction fuel generalizing done set with
  | zero => exact found
  | succ fuel ih =>
      unfold growFrom
      split
      · exact found
      · exact ih (getElem?_elements_insertAll found)

theorem mem_growFrom_of_mem {b : α} (member : b ∈ set) : b ∈ growFrom next fuel done set := by
  obtain ⟨i, found⟩ := Array.mem_iff_getElem?.1 (mem_def.1 member)
  exact mem_def.2 (Array.mem_of_getElem? (getElem?_elements_growFrom found))

/-- What holds of the first elements and of all that is added on the way holds in the end. -/
theorem growFrom_induction {P : α → Prop} (first : ∀ b ∈ set, P b)
    (step : ∀ (set : OrderedSet α) (a : α), (∀ b ∈ set, P b) → a ∈ set → ∀ b ∈ next set a, P b) :
    ∀ b ∈ growFrom next fuel done set, P b := by
  induction fuel generalizing done set with
  | zero => exact first
  | succ fuel ih =>
      unfold growFrom
      split
      · exact first
      · rename_i a found
        have visited : a ∈ set := mem_def.2 (Array.mem_of_getElem? found)
        apply ih
        intro b member
        rcases mem_insertAll.1 member with old | added
        · exact first b old
        · exact step set a first visited b added

/-- With fuel for the whole stock every element from `done` on is visited: what it added at its
visit is there. -/
theorem growFrom_visits {stock : List α} (enough : stock.length ≤ fuel + done)
    (within : ∀ b ∈ growFrom next fuel done set, b ∈ stock) {i : Nat} (later : done ≤ i)
    (found : (growFrom next fuel done set).elements[i]? = some a) :
    ∃ seen : OrderedSet α, (∀ b ∈ set, b ∈ seen) ∧
      (∀ b ∈ seen, b ∈ growFrom next fuel done set) ∧
      ∀ b ∈ next seen a, b ∈ growFrom next fuel done set := by
  induction fuel generalizing done set with
  | zero =>
      have bound := size_le_of_subset within
      have inside := (Array.getElem?_eq_some_iff.1 found).1
      simp only [growFrom, size] at bound inside
      omega
  | succ fuel ih =>
      unfold growFrom at within found ⊢
      cases head : set.elements[done]? with
      | none =>
          simp only [head] at found
          have inside := (Array.getElem?_eq_some_iff.1 found).1
          have past := Array.getElem?_eq_none_iff.1 head
          omega
      | some visited =>
          simp only [head] at within found ⊢
          rcases Nat.eq_or_lt_of_le later with here | after
          · subst here
            have kept : (growFrom next fuel (done + 1)
                (set.insertAll (next set visited))).elements[done]? = some visited :=
              getElem?_elements_growFrom (getElem?_elements_insertAll head)
            have same : visited = a := Option.some.inj (kept.symm.trans found)
            subst same
            refine ⟨set, fun b member => member, ?_, ?_⟩
            · intro b member
              exact mem_growFrom_of_mem (mem_insertAll.2 (.inl member))
            · intro b member
              exact mem_growFrom_of_mem (mem_insertAll.2 (.inr member))
          · obtain ⟨seen, extends_, inside, closed⟩ := ih (by omega) within after found
            refine ⟨seen, ?_, inside, closed⟩
            intro b member
            exact extends_ b (mem_insertAll.2 (.inl member))

end Growth

section Saturation

variable {next : α → List α} {bound : Nat}

theorem mem_saturate_of_mem (member : a ∈ set) : a ∈ set.saturate next bound := by
  rw [saturate, saturateFrom_eq_growFrom]
  exact mem_growFrom_of_mem member

theorem saturate_induction {P : α → Prop} (first : ∀ b ∈ set, P b)
    (step : ∀ a, P a → ∀ b ∈ next a, P b) : ∀ b ∈ set.saturate next bound, P b := by
  rw [saturate, saturateFrom_eq_growFrom]
  exact growFrom_induction first fun _ a holds member => step a (holds a member)

/-- A saturated set over a stock of at most `bound` elements is closed. -/
theorem saturate_closed {stock : List α} (enough : stock.length ≤ bound)
    (within : ∀ b ∈ set.saturate next bound, b ∈ stock) {b : α}
    (member : a ∈ set.saturate next bound) (reached : b ∈ next a) :
    b ∈ set.saturate next bound := by
  rw [saturate, saturateFrom_eq_growFrom] at within member ⊢
  obtain ⟨i, found⟩ := Array.mem_iff_getElem?.1 (mem_def.1 member)
  obtain ⟨_, -, -, closed⟩ := growFrom_visits (by simpa using enough) within (Nat.zero_le i) found
  exact closed b reached

end Saturation

end Typeahead.OrderedSet
