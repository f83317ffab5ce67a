namespace Typeahead.Text

/-! Places between the characters of a text, and how reading on moves them. -/

/-- The position of the last line feed of a text. -/
def lastFeed? : List Char → Option Nat
  | [] => none
  | c :: rest =>
      match lastFeed? rest with
      | some position => some (position + 1)
      | none => if c = '\n' then some 0 else none

theorem lt_of_lastFeed? {cs : List Char} {position : Nat} (found : lastFeed? cs = some position) :
    position < cs.length := by
  induction cs generalizing position with
  | nil => cases found
  | cons c rest ih =>
      rw [lastFeed?] at found
      split at found
      · next position' further =>
          obtain rfl := Option.some.inj found
          exact Nat.succ_lt_succ (ih further)
      · split at found
        · obtain rfl := Option.some.inj found
          exact Nat.succ_pos _
        · cases found

/-- A place in a text: how many characters precede it, its line, counted from one, and how many
characters of that line precede it.  Only a line feed ends a line. -/
structure Place where
  offset : Nat
  line : Nat
  column : Nat
deriving DecidableEq, Repr

namespace Place

def start : Place := ⟨0, 1, 0⟩

def next (place : Place) (c : Char) : Place :=
  if c = '\n' then ⟨place.offset + 1, place.line + 1, 0⟩
  else ⟨place.offset + 1, place.line, place.column + 1⟩

/-- The place just past `cs`, read from `place` on. -/
def after (place : Place) (cs : List Char) : Place := cs.foldl next place

theorem after_append (place : Place) (cs ds : List Char) :
    place.after (cs ++ ds) = (place.after cs).after ds :=
  List.foldl_append

theorem offset_after (place : Place) (cs : List Char) :
    (place.after cs).offset = place.offset + cs.length := by
  induction cs generalizing place with
  | nil => rfl
  | cons c rest ih =>
      have step : (place.next c).offset = place.offset + 1 := by
        unfold next
        split <;> rfl
      rw [after, List.foldl_cons, ← after, ih, step, List.length_cons]
      omega

theorem line_after (place : Place) (cs : List Char) :
    (place.after cs).line = place.line + cs.count '\n' := by
  induction cs generalizing place with
  | nil => rfl
  | cons c rest ih =>
      rw [after, List.foldl_cons, ← after, ih]
      by_cases feed : c = '\n'
      · simp only [next, feed, if_true, List.count_cons_self]
        omega
      · rw [List.count_cons_of_ne feed]
        simp only [next, feed, if_false]

/-- The column counts on, or anew from the last line feed. -/
theorem column_after (place : Place) (cs : List Char) : (place.after cs).column =
    match lastFeed? cs with
    | some position => cs.length - (position + 1)
    | none => place.column + cs.length := by
  induction cs generalizing place with
  | nil => rfl
  | cons c rest ih =>
      rw [after, List.foldl_cons, ← after, ih, lastFeed?, List.length_cons]
      cases found : lastFeed? rest with
      | some position => simp only [Nat.add_sub_add_right]
      | none =>
          by_cases feed : c = '\n'
          · simp [next, feed]
          · simp only [next, feed, if_false, Nat.add_assoc, Nat.add_comm 1]

/-- The place at the end of a text. -/
def atEnd (cs : List Char) : Place where
  offset := cs.length
  line := cs.count '\n' + 1
  column := cs.length - ((lastFeed? cs).map (· + 1)).getD 0

/-- The end of a text is where reading all of it leads. -/
theorem atEnd_eq (cs : List Char) : atEnd cs = start.after cs := by
  have offset := offset_after start cs
  have line := line_after start cs
  have column := column_after start cs
  simp only [start, Nat.zero_add] at offset line column
  rw [atEnd, mk.injEq, start, offset, line, column, Nat.add_comm]
  cases lastFeed? cs <;> exact ⟨rfl, rfl, rfl⟩

end Place

end Typeahead.Text
