import Typeahead.Token
import Typeahead.Text.Quoted

namespace Typeahead

/-! Vocabularies: the names of the token types, in the order of the types. -/

/-- The name at position `i` is that of type `i + 1`.  A type may have no name. -/
structure Vocabulary where
  names : List (Option String)
deriving Repr

namespace Vocabulary

/-- No two types may share a name; this is the second type's name. -/
structure DuplicateName where
  name : String
deriving Repr, DecidableEq

def DuplicateName.message (error : DuplicateName) : String :=
  "duplicate symbolic name " ++ Text.quoted error.name

/-- The first name that stands in front already. -/
def duplicate? : (seen : List String) → List (Option String) → Option String
  | _, [] => none
  | seen, none :: rest => duplicate? seen rest
  | seen, some name :: rest =>
      if name ∈ seen then some name else duplicate? (name :: seen) rest

def ofNames (names : List (Option String)) : Except DuplicateName Vocabulary :=
  match duplicate? [] names with
  | some name => .error ⟨name⟩
  | none => .ok ⟨names⟩

def size (vocabulary : Vocabulary) : Nat := vocabulary.names.length

def symbolicName? (vocabulary : Vocabulary) (type : Int) : Option String :=
  if 1 ≤ type then (vocabulary.names[(type - 1).toNat]?).join else none

def type? (vocabulary : Vocabulary) (name : String) : Option Int :=
  (vocabulary.names.idxOf? (some name)).map fun (i : Nat) => (i : Int) + 1

/-- A type is found under its own name. -/
theorem symbolicName?_of_type? {vocabulary : Vocabulary} {name : String} {type : Int}
    (found : vocabulary.type? name = some type) : vocabulary.symbolicName? type = some name := by
  obtain ⟨i, position, rfl⟩ := Option.map_eq_some_iff.mp found
  obtain ⟨bound, same, -⟩ := List.idxOf?_eq_some_iff.mp position
  have shifted : ((i : Int) + 1 - 1).toNat = i := by omega
  have counted : 1 ≤ (i : Int) + 1 := by omega
  simp only [symbolicName?, counted, if_true, shifted]
  rw [List.getElem?_eq_getElem bound]
  simpa using same

def contains (vocabulary : Vocabulary) (name : String) : Bool := (vocabulary.type? name).isSome

def describe (vocabulary : Vocabulary) : String :=
  s!"Vocabulary({vocabulary.size} token types)"

end Vocabulary

end Typeahead
