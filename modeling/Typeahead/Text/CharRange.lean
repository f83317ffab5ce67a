namespace Typeahead.Text

/-! Character classes given by ranges of code points. -/

/-- Whether `c` lies in one of the ranges, ends included. -/
def inRanges (ranges : List (Nat × Nat)) (c : Char) : Bool :=
  ranges.any fun (first, last) => first ≤ c.toNat && c.toNat ≤ last

end Typeahead.Text
