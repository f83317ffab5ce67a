import Typeahead.Text.Place

namespace Typeahead.Text

/-! Where a lexicon is in a text, told by where the line began. -/

structure LineCounter where
  /-- The number of characters read. -/
  offset : Nat
  /-- The line, counted from one. -/
  line : Nat
  /-- The column, counted from one. -/
  column : Nat
  /-- The number of characters in front of the line. -/
  lineStart : Nat
deriving DecidableEq, Repr

namespace LineCounter

def start : LineCounter := ⟨0, 1, 1, 0⟩

/-- The counter when `cs` has been read as well. -/
def feed (counter : LineCounter) (cs : List Char) : LineCounter :=
  let offset := counter.offset + cs.length
  let lineStart :=
    match lastFeed? cs with
    | some position => counter.offset + position + 1
    | none => counter.lineStart
  ⟨offset, counter.line + cs.count '\n', offset - lineStart + 1, lineStart⟩

/-- The counter has read `front`. -/
structure HasRead (counter : LineCounter) (front : List Char) : Prop where
  offset : counter.offset = front.length
  line : counter.line = (Place.start.after front).line
  column : counter.column = (Place.start.after front).column + 1
  lineStart : counter.lineStart + (Place.start.after front).column = front.length

theorem hasRead_start : start.HasRead [] := ⟨rfl, rfl, rfl, rfl⟩

theorem HasRead.feed {counter : LineCounter} {front : List Char} (read : counter.HasRead front)
    (cs : List Char) : (counter.feed cs).HasRead (front ++ cs) := by
  obtain ⟨offset, line, column, lineStart⟩ := read
  have onward := Place.column_after (Place.start.after front) cs
  have began : (counter.feed cs).lineStart + (Place.start.after (front ++ cs)).column =
      (front ++ cs).length := by
    rw [Place.after_append, onward, List.length_append]
    simp only [LineCounter.feed]
    cases found : lastFeed? cs with
    | some position =>
        have inside := lt_of_lastFeed? found
        simp only
        omega
    | none =>
        simp only
        omega
  have size : (counter.feed cs).offset = (front ++ cs).length := by
    rw [List.length_append, ← offset]
    rfl
  refine ⟨size, ?_, ?_, began⟩
  · rw [Place.after_append, Place.line_after, ← line]
    rfl
  · show (counter.feed cs).offset - (counter.feed cs).lineStart + 1 = _
    omega

end LineCounter

end Typeahead.Text
