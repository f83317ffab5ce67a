import Typeahead.Data.OrderedSet

namespace Typeahead

/-! Pairs collected by their first component, each group in the order of the pairs. -/

structure Grouping (κ υ : Type) [DecidableEq κ] [Hashable κ] where
  keys : OrderedSet κ
  members : Std.HashMap κ (List υ)

namespace Grouping

variable {κ υ : Type} [DecidableEq κ] [Hashable κ]

def ofList (pairs : List (κ × υ)) : Grouping κ υ where
  keys := .ofList (pairs.map (·.1))
  members := pairs.foldr
    (fun pair members => members.insert pair.1 (pair.2 :: members.getD pair.1 [])) ∅

/-- The group of `key`, empty if there is none. -/
def get (groups : Grouping κ υ) (key : κ) : List υ := groups.members.getD key []

theorem mem_keys_ofList {pairs : List (κ × υ)} {key : κ} :
    key ∈ (ofList pairs).keys ↔ ∃ value, (key, value) ∈ pairs := by
  simp [ofList]

theorem get_ofList (pairs : List (κ × υ)) (key : κ) :
    (ofList pairs).get key = (pairs.filter (·.1 = key)).map (·.2) := by
  induction pairs with
  | nil => simp [ofList, get]
  | cons pair rest ih =>
      have unfolded : (ofList (pair :: rest)).get key =
          ((ofList rest).members.insert pair.1 (pair.2 :: (ofList rest).get pair.1)).getD key [] :=
        rfl
      by_cases same : pair.1 = key
      · subst same
        simp [unfolded, ih]
      · rw [unfolded, Std.HashMap.getD_insert]
        have kept : (ofList rest).members.getD key [] = (ofList rest).get key := rfl
        simp [same, kept, ih]

theorem mem_get_ofList {pairs : List (κ × υ)} {key : κ} {value : υ} :
    value ∈ (ofList pairs).get key ↔ (key, value) ∈ pairs := by
  simp [get_ofList]

end Grouping

end Typeahead
