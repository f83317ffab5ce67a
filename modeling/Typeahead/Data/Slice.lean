namespace Typeahead.Slice

/-! Positions in a sequence given by integers, where a negative one counts from the end. -/

/-- The cut of a sequence of `size` elements that `i` names, moved inside the sequence. -/
def cut (size : Nat) (i : Int) : Nat :=
  if i < 0 then (size + i).toNat else min i.toNat size

/-- The position that `i` names in a sequence of `size` elements, if it has one. -/
def position? (size : Nat) (i : Int) : Option Nat :=
  let p := if i < 0 then size + i else i
  if 0 ≤ p ∧ p < size then some p.toNat else none

variable {α : Type}

def upTo (xs : Array α) (stop : Int) : Array α := xs.extract 0 (cut xs.size stop)

def between (xs : Array α) (first stop : Int) : Array α :=
  xs.extract (cut xs.size first) (cut xs.size stop)

def get? (xs : Array α) (i : Int) : Option α := (position? xs.size i).bind (xs[·]?)

end Typeahead.Slice
