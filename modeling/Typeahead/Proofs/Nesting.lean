import Mathlib.Data.List.Nodup
import Mathlib.Logic.Relation

namespace Typeahead

/-!
Numbered elements that hold each other, such as the nodes of a parse tree and the symbols of a table.
Every element but the first has an older one as its parent and is listed there once.  So the way up
from an element ends at the first one, and the way down from it comes once to each that it encloses.
-/

/-- The elements below `size`: all but the first have a parent, which is older and lists them. -/
structure Nesting (size : Nat) (parent? : Nat → Option Nat) (children : Nat → List Nat) : Prop where
  parents : ∀ i, (parent? i).isSome = true ↔ 0 < i ∧ i < size
  older : ∀ i p, parent? i = some p → p < i
  listed : ∀ i p, (children p).count i = if parent? i = some p then 1 else 0

/-- The way up from `i` leads through `p`. -/
def Encloses (parent? : Nat → Option Nat) (p i : Nat) : Prop :=
  Relation.TransGen (fun i p => parent? i = some p) i p

/-- The elements below `i`, each in front of those below it, down to `depth` levels. -/
def nestedUpTo (children : Nat → List Nat) : (depth : Nat) → Nat → List Nat
  | 0, _ => []
  | depth + 1, i => (children i).flatMap fun child => child :: nestedUpTo children depth child

/-- The elements above `i`, the nearest first, at most `fuel` of them. -/
def enclosingUpTo (parent? : Nat → Option Nat) : (fuel : Nat) → Nat → List Nat
  | 0, _ => []
  | fuel + 1, i =>
      match parent? i with
      | some p => p :: enclosingUpTo parent? fuel p
      | none => []

/-- Takes one element after the other off a stack, on which each leaves those that it holds. -/
def unstack (children : Nat → List Nat) : (steps : Nat) → List Nat → List Nat
  | 0, _ => []
  | _ + 1, [] => []
  | steps + 1, i :: pending => i :: unstack children steps (children i ++ pending)

variable {size : Nat} {parent? : Nat → Option Nat} {children : Nat → List Nat}
  {depth fuel i j p q : Nat}

namespace Encloses

theorem of_parent (held : parent? i = some p) : Encloses parent? p i := .single held

theorem trans (upper : Encloses parent? q p) (lower : Encloses parent? p i) :
    Encloses parent? q i :=
  Relation.TransGen.trans lower upper

theorem iff_parent : Encloses parent? q i ↔
    ∃ p, parent? i = some p ∧ (q = p ∨ Encloses parent? q p) := by
  rw [Encloses, Relation.TransGen.head'_iff]
  simp only [Relation.reflTransGen_iff_eq_or_transGen]
  rfl

theorem iff_of_parent (held : parent? i = some p) :
    Encloses parent? q i ↔ q = p ∨ Encloses parent? q p := by
  rw [iff_parent]
  simp only [held, Option.some.injEq, exists_eq_left']

theorem iff_child : Encloses parent? p j ↔
    ∃ child, parent? child = some p ∧ (child = j ∨ Encloses parent? child j) := by
  rw [Encloses, Relation.TransGen.tail'_iff]
  simp only [Relation.reflTransGen_iff_eq_or_transGen, and_comm]
  rfl

/-- There is only one way up. -/
theorem total (first : Encloses parent? p i) (second : Encloses parent? q i) :
    p = q ∨ Encloses parent? p q ∨ Encloses parent? q p := by
  have unique : Relator.RightUnique fun i p => parent? i = some p :=
    fun _ _ _ here there => Option.some.inj (here.symm.trans there)
  have either := Relation.ReflTransGen.total_of_right_unique unique first.to_reflTransGen
    second.to_reflTransGen
  simp only [Relation.reflTransGen_iff_eq_or_transGen] at either
  rcases either with (same | upper) | (same | lower)
  · exact .inl same.symm
  · exact .inr (.inr upper)
  · exact .inl same
  · exact .inr (.inl lower)

theorem of_mem_enclosingUpTo (member : p ∈ enclosingUpTo parent? fuel i) :
    Encloses parent? p i := by
  induction fuel generalizing i with
  | zero => cases member
  | succ fuel ih =>
      rw [enclosingUpTo] at member
      cases held : parent? i with
      | none => simp [held] at member
      | some parent =>
          rw [held, List.mem_cons] at member
          rcases member with rfl | further
          · exact .of_parent held
          · exact (ih further).trans (.of_parent held)

end Encloses

/-- What is above an element comes from the inside outwards. -/
theorem pairwise_enclosingUpTo (parent? : Nat → Option Nat) (fuel i : Nat) :
    (enclosingUpTo parent? fuel i).Pairwise fun inner outer => Encloses parent? outer inner := by
  induction fuel generalizing i with
  | zero => exact .nil
  | succ fuel ih =>
      rw [enclosingUpTo]
      cases parent? i with
      | none => exact .nil
      | some parent => exact .cons (fun _ further => .of_mem_enclosingUpTo further) (ih parent)

theorem isChain_enclosingUpTo (parent? : Nat → Option Nat) (fuel i : Nat) :
    (i :: enclosingUpTo parent? fuel i).IsChain fun child parent => parent? child = some parent := by
  induction fuel generalizing i with
  | zero => exact .singleton i
  | succ fuel ih =>
      rw [enclosingUpTo]
      cases held : parent? i with
      | none => exact .singleton i
      | some parent => exact .cons_cons held (ih parent)

namespace Nesting

variable (nesting : Nesting size parent? children)

include nesting

theorem mem_children : i ∈ children p ↔ parent? i = some p := by
  rw [← List.count_pos_iff, nesting.listed]
  split <;> simp_all

theorem bounds_of_mem_children (listed : i ∈ children p) : 0 < i ∧ i < size :=
  (nesting.parents i).1 (Option.isSome_of_eq_some (nesting.mem_children.1 listed))

theorem nodup_children (p : Nat) : (children p).Nodup := by
  rw [List.nodup_iff_count_le_one]
  intro i
  rw [nesting.listed]
  split <;> omega

theorem lt_of_encloses (encloses : Encloses parent? p i) : p < i := by
  induction encloses with
  | single held => exact nesting.older _ _ held
  | tail _ held ih => exact Nat.lt_trans (nesting.older _ _ held) ih

/-- No two elements enclose each other. -/
theorem asymm (encloses : Encloses parent? p i) : p ≠ i ∧ ¬ Encloses parent? i p := by
  have lower := nesting.lt_of_encloses encloses
  constructor
  · omega
  · intro around
    have higher := nesting.lt_of_encloses around
    omega

theorem lt_size_of_encloses (encloses : Encloses parent? p i) : i < size := by
  obtain ⟨parent, held, -⟩ := Encloses.iff_parent.1 encloses
  exact ((nesting.parents i).1 (Option.isSome_of_eq_some held)).2

theorem not_encloses_sibling (here : parent? i = some p) (there : parent? j = some p) :
    ¬ Encloses parent? i j := by
  intro encloses
  have lower := nesting.older i p here
  rcases (Encloses.iff_of_parent there).1 encloses with rfl | further
  · omega
  · have higher := nesting.lt_of_encloses further
    omega

/-- What lies in two parts of one element lies in one. -/
theorem eq_of_siblings {first second : Nat} (here : parent? first = some p)
    (there : parent? second = some p) (inFirst : first = j ∨ Encloses parent? first j)
    (inSecond : second = j ∨ Encloses parent? second j) : first = second := by
  rcases inFirst with rfl | inFirst
  · rcases inSecond with same | around
    · exact same.symm
    · exact absurd around (nesting.not_encloses_sibling there here)
  · rcases inSecond with rfl | inSecond
    · exact absurd inFirst (nesting.not_encloses_sibling here there)
    · rcases inFirst.total inSecond with same | around | around
      · exact same
      · exact absurd around (nesting.not_encloses_sibling here there)
      · exact absurd around (nesting.not_encloses_sibling there here)

theorem encloses_of_mem_nestedUpTo (member : j ∈ nestedUpTo children depth i) :
    Encloses parent? i j := by
  induction depth generalizing i with
  | zero => cases member
  | succ depth ih =>
      obtain ⟨child, listed, inside⟩ := List.mem_flatMap.1 member
      have held := nesting.mem_children.1 listed
      rcases List.mem_cons.1 inside with rfl | further
      · exact .of_parent held
      · exact (Encloses.of_parent held).trans (ih further)

/-- The way down comes to all that an element encloses. -/
theorem mem_nestedUpTo_iff (enough : size ≤ depth + i + 1) :
    j ∈ nestedUpTo children depth i ↔ Encloses parent? i j := by
  constructor
  · exact nesting.encloses_of_mem_nestedUpTo
  · intro encloses
    induction depth generalizing i with
    | zero =>
        have low := nesting.lt_of_encloses encloses
        have high := nesting.lt_size_of_encloses encloses
        omega
    | succ depth ih =>
        obtain ⟨child, held, inside⟩ := Encloses.iff_child.1 encloses
        have younger := nesting.older child i held
        apply List.mem_flatMap.2
        use child, nesting.mem_children.2 held
        rcases inside with rfl | deeper
        · exact List.mem_cons_self
        · exact List.mem_cons_of_mem _ (ih (by omega) deeper)

/-- The way down comes to no element twice, and to none before those above it. -/
theorem pairwise_nestedUpTo (depth i : Nat) : (nestedUpTo children depth i).Pairwise
    fun first second => first ≠ second ∧ ¬ Encloses parent? second first := by
  induction depth generalizing i with
  | zero => exact .nil
  | succ depth ih =>
      have within : ∀ {child j : Nat}, j ∈ child :: nestedUpTo children depth child →
          child = j ∨ Encloses parent? child j := by
        intro child j member
        rcases List.mem_cons.1 member with rfl | deeper
        · exact .inl rfl
        · exact .inr (nesting.encloses_of_mem_nestedUpTo deeper)
      rw [nestedUpTo, List.pairwise_flatMap]
      constructor
      · intro child _
        apply List.Pairwise.cons _ (ih child)
        intro j deeper
        exact nesting.asymm (nesting.encloses_of_mem_nestedUpTo deeper)
      · apply List.Pairwise.imp_of_mem _ (nesting.nodup_children i)
        intro first second here there different j inFirst k inSecond
        have here' := nesting.mem_children.1 here
        have there' := nesting.mem_children.1 there
        constructor
        · intro same
          apply different
          apply nesting.eq_of_siblings here' there' (within inFirst)
          simpa only [same] using within inSecond
        · intro around
          apply different
          apply nesting.eq_of_siblings here' there' (within inFirst)
          rcases within inSecond with rfl | deeper
          · exact .inr around
          · exact .inr (deeper.trans around)

theorem nodup_nestedUpTo (depth i : Nat) : (nestedUpTo children depth i).Nodup :=
  (nesting.pairwise_nestedUpTo depth i).imp And.left

/-- The way up comes to all that encloses an element. -/
theorem mem_enclosingUpTo_iff (enough : i < size → i ≤ fuel) :
    p ∈ enclosingUpTo parent? fuel i ↔ Encloses parent? p i := by
  constructor
  · exact Encloses.of_mem_enclosingUpTo
  · intro encloses
    induction fuel generalizing i with
    | zero =>
        have higher := nesting.lt_of_encloses encloses
        have low := enough (nesting.lt_size_of_encloses encloses)
        omega
    | succ fuel ih =>
        have low := enough (nesting.lt_size_of_encloses encloses)
        obtain ⟨parent, held, above⟩ := Encloses.iff_parent.1 encloses
        have older := nesting.older i parent held
        rw [enclosingUpTo, held, List.mem_cons]
        rcases above with same | further
        · exact .inl same
        · exact .inr (ih (by omega) further)

/-- The way up ends at the first element. -/
theorem getLast?_enclosingUpTo (known : i < size) (enough : i ≤ fuel) :
    (i :: enclosingUpTo parent? fuel i).getLast? = some 0 := by
  induction fuel generalizing i with
  | zero =>
      obtain rfl : i = 0 := by omega
      rfl
  | succ fuel ih =>
      rw [enclosingUpTo]
      cases held : parent? i with
      | none =>
          have first : ¬ (0 < i ∧ i < size) := by simp [← nesting.parents, held]
          obtain rfl : i = 0 := by omega
          rfl
      | some parent =>
          have older := nesting.older i parent held
          exact ih (by omega) (by omega)

theorem encloses_first (known : i < size) (other : i ≠ 0) : Encloses parent? 0 i := by
  have ends := nesting.getLast?_enclosingUpTo known (Nat.le_refl i)
  have member := List.mem_of_getLast? ends
  rcases List.mem_cons.1 member with same | above
  · exact absurd same.symm other
  · exact .of_mem_enclosingUpTo above

/-- With fuel for the older elements the way up ends by itself. -/
theorem enclosingUpTo_add (enough : i < size → i ≤ fuel) (more : Nat) :
    enclosingUpTo parent? (fuel + more) i = enclosingUpTo parent? fuel i := by
  induction fuel generalizing i with
  | zero =>
      cases held : parent? i with
      | none => cases more <;> simp [enclosingUpTo, held]
      | some parent =>
          have known := (nesting.parents i).1 (Option.isSome_of_eq_some held)
          omega
  | succ fuel ih =>
      rw [Nat.add_right_comm, enclosingUpTo, enclosingUpTo]
      cases held : parent? i with
      | none => rfl
      | some parent =>
          have known := (nesting.parents i).1 (Option.isSome_of_eq_some held)
          have older := nesting.older i parent held
          exact congrArg (parent :: ·) (ih (by omega))

/-- With depth for the younger elements the way down ends by itself. -/
theorem nestedUpTo_add (enough : size ≤ depth + i + 1) (more : Nat) :
    nestedUpTo children (depth + more) i = nestedUpTo children depth i := by
  induction depth generalizing i with
  | zero =>
      have barren : children i = [] := by
        rw [List.eq_nil_iff_forall_not_mem]
        intro child listed
        have held := nesting.mem_children.1 listed
        have known := (nesting.parents child).1 (Option.isSome_of_eq_some held)
        have younger := nesting.older child i held
        omega
      cases more <;> simp [nestedUpTo, barren]
  | succ depth ih =>
      rw [Nat.add_right_comm, nestedUpTo, nestedUpTo]
      apply List.flatMap_congr
      intro child listed
      have younger := nesting.older child i (nesting.mem_children.1 listed)
      rw [ih (by omega)]

/-- Below an element stand those that it holds, each in front of what is below it. -/
theorem nestedUpTo_eq_flatMap (enough : size ≤ depth + i + 1) :
    nestedUpTo children depth i =
      (children i).flatMap fun child => child :: nestedUpTo children depth child := by
  rw [← nesting.nestedUpTo_add enough 1, nestedUpTo]

/-- A stack comes to its elements and those below them in the order of the way down. -/
theorem unstack_eq_take (steps : Nat) (stack : List Nat) : unstack children steps stack =
    (stack.flatMap fun i => i :: nestedUpTo children size i).take steps := by
  induction steps generalizing stack with
  | zero => rfl
  | succ steps ih =>
      cases stack with
      | nil => rfl
      | cons i pending =>
          have below : nestedUpTo children size i = _ := nesting.nestedUpTo_eq_flatMap (by omega)
          rw [unstack, ih, List.flatMap_append, ← below, List.flatMap_cons, List.cons_append,
            List.take_succ_cons]

/-- Where the elements keep their parents, they are below the same ones. -/
theorem encloses_congr {parent?' : Nat → Option Nat}
    (same : ∀ i, i < size → parent?' i = parent? i) (known : i < size) :
    Encloses parent?' p i ↔ Encloses parent? p i := by
  induction i using Nat.strongRecOn with
  | _ i ih =>
      rw [Encloses.iff_parent, Encloses.iff_parent, same i known]
      apply exists_congr
      intro holder
      apply and_congr_right
      intro held
      have older := nesting.older i holder held
      rw [ih holder older (by omega)]

/-- A new element goes below a known one. -/
theorem extend {parent?' : Nat → Option Nat} {children' : Nat → List Nat} (known : p < size)
    (parents : ∀ i, parent?' i = if i = size then some p else parent? i)
    (listed : ∀ i, (children' i).Perm (if i = p then size :: children i else children i)) :
    Nesting (size + 1) parent?' children' := by
  have unheld : parent? size = none := by
    cases held : parent? size with
    | none => rfl
    | some holder =>
        have inside := (nesting.parents _).1 (Option.isSome_of_eq_some held)
        omega
  constructor
  · intro i
    rw [parents]
    split
    · next new =>
        have first := Nat.zero_lt_of_lt known
        simp only [new, Option.isSome_some, first, Nat.lt_succ_self, and_self]
    · next old =>
        rw [nesting.parents, Nat.lt_succ_iff_lt_or_eq]
        simp only [old, or_false]
  · intro i holder held
    rw [parents] at held
    split at held
    · next new => rw [new, ← Option.some.inj held]; exact known
    · next old => exact nesting.older i holder held
  · intro i holder
    rw [(listed holder).count_eq, parents]
    by_cases same : holder = p
    · by_cases new : i = size
      · subst new
        simp [same, nesting.listed, unheld]
      · simp [same, new, Ne.symm new, nesting.listed]
    · by_cases new : i = size
      · subst new
        simp [same, Ne.symm same, nesting.listed, unheld]
      · simp [same, new, nesting.listed]

end Nesting

end Typeahead
