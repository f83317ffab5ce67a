namespace Typeahead

/-! Entries by key, in the order in which the keys first came. -/

variable {κ υ : Type} [BEq κ]

/-- Gives `key` a value: in place if it has one already, at the end otherwise. -/
def assign (entries : List (κ × υ)) (key : κ) (value : υ) : List (κ × υ) :=
  if entries.any (·.1 == key) then
    entries.map fun entry => if entry.1 == key then (entry.1, value) else entry
  else
    entries ++ [(key, value)]

/-- The entries after all the given ones were assigned. -/
def assignAll (pairs : List (κ × υ)) : List (κ × υ) :=
  pairs.foldl (fun entries (key, value) => assign entries key value) []

variable [LawfulBEq κ]

theorem foldl_assign_of_nodup (pairs entries : List (κ × υ))
    (distinct : ((entries ++ pairs).map (·.1)).Nodup) :
    pairs.foldl (fun entries (key, value) => assign entries key value) entries =
      entries ++ pairs := by
  induction pairs generalizing entries with
  | nil => rw [List.foldl_nil, List.append_nil]
  | cons pair pairs ih =>
      obtain ⟨key, value⟩ := pair
      have fresh : entries.any (·.1 == key) = false := by
        rw [List.any_eq_false]
        intro entry member same
        rw [List.map_append, List.nodup_append] at distinct
        exact distinct.2.2 _ (List.mem_map_of_mem member) _ List.mem_cons_self (eq_of_beq same)
      have added : assign entries key value = entries ++ [(key, value)] := by
        rw [assign, fresh, if_neg Bool.false_ne_true]
      have rest := ih (entries ++ [(key, value)]) (by simpa using distinct)
      rw [List.append_assoc, List.singleton_append, ← added] at rest
      exact rest

/-- Where no key comes twice, the pairs themselves are the entries. -/
theorem assignAll_of_nodup {pairs : List (κ × υ)} (distinct : (pairs.map (·.1)).Nodup) :
    assignAll pairs = pairs :=
  foldl_assign_of_nodup pairs [] distinct

theorem lookup_of_nodup {entries : List (κ × υ)} {key : κ} {value : υ}
    (distinct : (entries.map (·.1)).Nodup) (member : (key, value) ∈ entries) :
    entries.lookup key = some value := by
  obtain ⟨front, rest, rfl⟩ := List.append_of_mem member
  refine List.lookup_eq_some_iff.2 ⟨front, rest, rfl, ?_⟩
  intro entry inside
  rw [List.map_append, List.nodup_append] at distinct
  have other := distinct.2.2 _ (List.mem_map_of_mem inside) key List.mem_cons_self
  exact bne_iff_ne.2 other.symm

end Typeahead
