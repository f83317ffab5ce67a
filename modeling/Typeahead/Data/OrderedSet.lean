import Std.Data.HashMap

namespace Typeahead

/-!
Finite sets that remember the order in which their elements arrived, and the worklist
closure built on them.  The array is the model; the hash table answers membership and
position queries about it.
-/

structure OrderedSet (α : Type) [DecidableEq α] [Hashable α] where
  elements : Array α
  places : Std.HashMap α Nat
  places_iff : ∀ (a : α) (i : Nat), places[a]? = some i ↔ elements[i]? = some a

namespace OrderedSet

variable {α : Type} [DecidableEq α] [Hashable α]

def empty : OrderedSet α where
  elements := #[]
  places := ∅
  places_iff := by simp

instance : EmptyCollection (OrderedSet α) := ⟨empty⟩

instance : Inhabited (OrderedSet α) := ⟨empty⟩

instance : Membership α (OrderedSet α) := ⟨fun set a => a ∈ set.elements⟩

def size (set : OrderedSet α) : Nat := set.elements.size

def isEmpty (set : OrderedSet α) : Bool := set.elements.isEmpty

def toList (set : OrderedSet α) : List α := set.elements.toList

def contains (set : OrderedSet α) (a : α) : Bool := set.places.contains a

/-- The position at which `a` arrived. -/
def indexOf? (set : OrderedSet α) (a : α) : Option Nat := set.places[a]?

theorem mem_def {set : OrderedSet α} {a : α} : a ∈ set ↔ a ∈ set.elements := Iff.rfl

theorem mem_toList {set : OrderedSet α} {a : α} : a ∈ set.toList ↔ a ∈ set := by
  simp [toList, mem_def]

theorem indexOf?_eq_some_iff {set : OrderedSet α} {a : α} {i : Nat} :
    set.indexOf? a = some i ↔ set.elements[i]? = some a :=
  set.places_iff a i

@[simp]
theorem contains_iff {set : OrderedSet α} {a : α} : set.contains a = true ↔ a ∈ set := by
  rw [contains, Std.HashMap.contains_iff_mem, Std.HashMap.mem_iff_isSome_getElem?,
    Option.isSome_iff_exists, mem_def, Array.mem_iff_getElem?]
  exact exists_congr fun i => set.places_iff a i

instance (set : OrderedSet α) (a : α) : Decidable (a ∈ set) :=
  decidable_of_iff (set.contains a = true) contains_iff

/-- Adds `a` at the end unless it is present already. -/
def insert (set : OrderedSet α) (a : α) : OrderedSet α :=
  if present : set.contains a then
    set
  else
    { elements := set.elements.push a
      places := set.places.insert a set.elements.size
      places_iff := by
        intro b i
        have absent : a ∉ set.elements := fun member => present (contains_iff.2 member)
        rw [Std.HashMap.getElem?_insert, Array.getElem?_push]
        by_cases same : a = b
        · subst same
          simp only [beq_self_eq_true, if_true, Option.some.injEq]
          by_cases last : i = set.elements.size
          · simp [last]
          · have unlisted : set.elements[i]? ≠ some a := fun found =>
              absent (Array.mem_of_getElem? found)
            simp [last, unlisted, Ne.symm last]
        · have distinct : (a == b) = false := by simpa using same
          by_cases last : i = set.elements.size
          · subst last
            simp only [distinct, if_true, Option.some.injEq]
            simp [set.places_iff, same]
          · simp [distinct, last, set.places_iff] }

def insertAll (set : OrderedSet α) (as : List α) : OrderedSet α := as.foldl insert set

def ofList (as : List α) : OrderedSet α := insertAll ∅ as

@[simp]
theorem mem_insert {set : OrderedSet α} {a b : α} : b ∈ set.insert a ↔ b ∈ set ∨ b = a := by
  by_cases present : set.contains a
  · have member : a ∈ set := contains_iff.1 present
    rw [insert, dif_pos present]
    exact ⟨Or.inl, fun h => h.elim id fun same => same ▸ member⟩
  · rw [insert, dif_neg present]
    simp [mem_def]

@[simp]
theorem mem_insertAll {set : OrderedSet α} {as : List α} {b : α} :
    b ∈ set.insertAll as ↔ b ∈ set ∨ b ∈ as := by
  induction as generalizing set with
  | nil => simp [insertAll]
  | cons a rest ih =>
      have unfolded : set.insertAll (a :: rest) = (set.insert a).insertAll rest := rfl
      rw [unfolded, ih, mem_insert, List.mem_cons, or_assoc]

@[simp]
theorem not_mem_empty {a : α} : a ∉ (∅ : OrderedSet α) := by
  show a ∉ (#[] : Array α)
  simp

@[simp]
theorem mem_ofList {as : List α} {a : α} : a ∈ ofList as ↔ a ∈ as := by
  simp [ofList]

/-- Visits the elements from position `done` on, adding what `next` gives for each, so that
elements added on the way are visited too. -/
def saturateFrom (next : α → List α) : Nat → Nat → OrderedSet α → OrderedSet α
  | 0, _, set => set
  | fuel + 1, done, set =>
      match set.elements[done]? with
      | none => set
      | some a => saturateFrom next fuel (done + 1) (set.insertAll (next a))

/-- What `next` reaches from `set`, in breadth-first order.  `bound` is at least the number
of elements that can be reached. -/
def saturate (next : α → List α) (bound : Nat) (set : OrderedSet α) : OrderedSet α :=
  saturateFrom next bound 0 set

end OrderedSet

end Typeahead
