import Mathlib.Logic.Relation
import Typeahead.RuleTable

namespace Typeahead.RuleTable

/-!
Derivations of a rule table.  `Derives` rewrites one symbol after the other, anywhere in a row of
symbols.  `Yields` is the same relation read from left to right, which is how tables of items are
built; `Opens` says what can stand next after what has been derived.
-/

variable {table : RuleTable}

/-- One symbol is replaced by the symbols of one of its productions. -/
inductive Rewrites (table : RuleTable) : List String → List String → Prop where
  | replace (left right : List String) {production : Production}
      (member : production ∈ table.productions) :
      Rewrites table (left ++ production.origin :: right) (left ++ production.symbols ++ right)

/-- A row of symbols becomes another one in any number of replacements. -/
def Derives (table : RuleTable) : List String → List String → Prop :=
  Relation.ReflTransGen table.Rewrites

/-- No terminal is the origin of a production. -/
def Disjoint (table : RuleTable) : Prop :=
  ∀ production ∈ table.productions, production.origin ∉ table.terminals

theorem Disjoint.isTerminal_origin (disjoint : table.Disjoint) {production : Production}
    (member : production ∈ table.productions) : table.isTerminal production.origin = false := by
  rw [← Bool.not_eq_true, isTerminal, OrderedSet.contains_iff]
  exact disjoint production member

/-- From left to right each symbol of a row is kept or gives way to one of its productions. -/
inductive Yields (table : RuleTable) : List String → List String → Prop where
  | nil : Yields table [] []
  | keep (symbol : String) {row out : List String} (rest : Yields table row out) :
      Yields table (symbol :: row) (symbol :: out)
  | expand {production : Production} {row middle out : List String}
      (member : production ∈ table.productions) (inner : Yields table production.symbols middle)
      (rest : Yields table row out) :
      Yields table (production.origin :: row) (middle ++ out)

namespace Yields

theorem refl (row : List String) : table.Yields row row := by
  induction row with
  | nil => exact .nil
  | cons symbol rest ih => exact .keep symbol ih

theorem append {left right leftOut rightOut : List String} (first : table.Yields left leftOut)
    (second : table.Yields right rightOut) :
    table.Yields (left ++ right) (leftOut ++ rightOut) := by
  induction first with
  | nil => exact second
  | keep symbol _ ih => exact .keep symbol ih
  | expand member inner _ _ ih =>
      rw [List.append_assoc]
      exact .expand member inner ih

theorem split {left right out : List String} (yields : table.Yields (left ++ right) out) :
    ∃ leftOut rightOut, out = leftOut ++ rightOut ∧ table.Yields left leftOut ∧
      table.Yields right rightOut := by
  generalize whole : left ++ right = row at yields
  induction yields generalizing left with
  | nil =>
      obtain ⟨rfl, rfl⟩ := List.append_eq_nil_iff.1 whole
      exact ⟨[], [], rfl, .nil, .nil⟩
  | @keep symbol row out rest ih =>
      cases left with
      | nil => exact ⟨[], symbol :: out, rfl, .nil, by simpa [← whole] using rest.keep symbol⟩
      | cons first left =>
          obtain ⟨rfl, tail⟩ := List.cons.inj whole
          obtain ⟨leftOut, rightOut, rfl, leftYields, rightYields⟩ := ih tail
          exact ⟨first :: leftOut, rightOut, rfl, leftYields.keep first, rightYields⟩
  | @expand production row middle out member inner rest _ ih =>
      cases left with
      | nil =>
          exact ⟨[], middle ++ out, rfl, .nil, by simpa [← whole] using Yields.expand member inner rest⟩
      | cons first left =>
          obtain ⟨rfl, tail⟩ := List.cons.inj whole
          obtain ⟨leftOut, rightOut, rfl, leftYields, rightYields⟩ := ih tail
          exact ⟨middle ++ leftOut, rightOut, by simp, .expand member inner leftYields,
            rightYields⟩

theorem of_rewrites {row next out : List String} (step : table.Rewrites row next)
    (yields : table.Yields next out) : table.Yields row out := by
  obtain ⟨left, right, member⟩ := step
  obtain ⟨front, rightOut, rfl, frontYields, rightYields⟩ := yields.split
  obtain ⟨leftOut, middle, rfl, leftYields, inner⟩ := frontYields.split
  rw [List.append_assoc]
  exact leftYields.append (.expand member inner rightYields)

end Yields

namespace Derives

theorem refl (row : List String) : table.Derives row row := Relation.ReflTransGen.refl

theorem trans {first second third : List String} (before : table.Derives first second)
    (after : table.Derives second third) : table.Derives first third :=
  Relation.ReflTransGen.trans before after

theorem within (left right : List String) {row out : List String} (derives : table.Derives row out) :
    table.Derives (left ++ row ++ right) (left ++ out ++ right) := by
  induction derives with
  | refl => exact .refl _
  | tail _ step ih =>
      refine Relation.ReflTransGen.tail ih ?_
      obtain ⟨innerLeft, innerRight, member⟩ := step
      simpa using Rewrites.replace (left ++ innerLeft) (innerRight ++ right) member

theorem of_yields {row out : List String} (yields : table.Yields row out) :
    table.Derives row out := by
  induction yields with
  | nil => exact .refl _
  | keep symbol _ ih => simpa using ih.within [symbol] []
  | @expand production row middle out member _ _ inner rest =>
      have opened : table.Derives (production.origin :: row) (production.symbols ++ row) :=
        Relation.ReflTransGen.single (by simpa using Rewrites.replace [] row member)
      have filled : table.Derives (production.symbols ++ row) (middle ++ row) := by
        simpa using inner.within [] row
      exact (opened.trans filled).trans (by simpa using rest.within middle [])

end Derives

theorem derives_iff_yields {row out : List String} :
    table.Derives row out ↔ table.Yields row out := by
  constructor
  · intro derives
    induction derives using Relation.ReflTransGen.head_induction_on with
    | refl => exact .refl out
    | head step _ ih => exact .of_rewrites step ih
  · exact Derives.of_yields

/-- After `front` has been derived from the start, `symbol` can stand next: it is the start itself,
or it stands in a production that was opened earlier, behind symbols that yield the rest. -/
inductive Opens (table : RuleTable) : List String → String → Prop where
  | start : Opens table [] table.start
  | enter {production : Production} {front left between right : List String} {symbol : String}
      (member : production ∈ table.productions)
      (place : production.symbols = left ++ symbol :: right)
      (opened : Opens table front production.origin) (passed : table.Yields left between) :
      Opens table (front ++ between) symbol

/-- After `front` the symbol stands next in a production that was opened before. -/
def Expects (table : RuleTable) (front : List String) (symbol : String) : Prop :=
  ∃ production ∈ table.productions, ∃ earlier left between right,
    production.symbols = left ++ symbol :: right ∧ table.Opens earlier production.origin ∧
    table.Yields left between ∧ front = earlier ++ between

theorem Expects.opens {front : List String} {symbol : String} (expects : table.Expects front symbol) :
    table.Opens front symbol := by
  obtain ⟨production, member, earlier, left, between, right, place, opened, passed, rfl⟩ := expects
  exact .enter member place opened passed

theorem opens_iff_expects {front : List String} {symbol : String} :
    table.Opens front symbol ↔ front = [] ∧ symbol = table.start ∨ table.Expects front symbol := by
  constructor
  · intro opens
    cases opens with
    | start => exact .inl ⟨rfl, rfl⟩
    | enter member place opened passed =>
        exact .inr ⟨_, member, _, _, _, _, place, opened, passed, rfl⟩
  · intro given
    rcases given with ⟨rfl, rfl⟩ | expects
    · exact .start
    · exact expects.opens

section Rows

-- `P front symbol` is to be either of the two relations above: that a symbol is open, or that it is
-- expected.
variable {P : List String → String → Prop}

/-- `P` holds of every symbol of a row after `front` and what the symbols before it yield. -/
def EachAfter (table : RuleTable) (P : List String → String → Prop) (front row : List String) :
    Prop :=
  ∀ left symbol right between, row = left ++ symbol :: right → table.Yields left between →
    P (front ++ between) symbol

namespace EachAfter

variable {front row : List String} {symbol : String}

theorem head (each : table.EachAfter P front (symbol :: row)) : P front symbol := by
  simpa using each [] symbol row [] rfl .nil

theorem tail (each : table.EachAfter P front (symbol :: row)) {between : List String}
    (passed : table.Yields [symbol] between) : table.EachAfter P (front ++ between) row := by
  intro left next right later split yields
  have whole : symbol :: row = (symbol :: left) ++ next :: right := by rw [split]; rfl
  simpa using each (symbol :: left) next right (between ++ later) whole (passed.append yields)

theorem expects_of_production {production : Production} (member : production ∈ table.productions)
    (opened : table.Opens front production.origin) :
    table.EachAfter table.Expects front production.symbols := by
  intro left symbol right between split passed
  exact ⟨production, member, front, left, between, right, split, opened, passed, rfl⟩

theorem of_yields (opened : ∀ {front symbol}, P front symbol → table.Opens front symbol)
    (expected : ∀ {front symbol}, table.Expects front symbol → P front symbol)
    (each : table.EachAfter P front row) {out : List String} (yields : table.Yields row out)
    {before after : List String} (place : out = before ++ symbol :: after) :
    P (front ++ before) symbol := by
  induction yields generalizing front before after with
  | nil => simp at place
  | @keep first row out rest ih =>
      cases before with
      | nil =>
          obtain ⟨rfl, -⟩ := List.cons.inj place
          simpa using each.head
      | cons head before =>
          obtain ⟨rfl, tail⟩ := List.cons.inj place
          simpa using ih (each.tail (.refl [first])) tail
  | @expand production row middle out member inner rest innerIH ih =>
      have passed : table.Yields [production.origin] middle := by
        simpa using Yields.expand member inner .nil
      rcases List.append_eq_append_iff.1 place with ⟨gap, rfl, tail⟩ | ⟨gap, rfl, tail⟩
      · -- the symbol stands behind all that the production yields
        simpa using ih (each.tail passed) tail
      · cases gap with
        | nil =>
            have behind : P (front ++ (before ++ []) ++ []) symbol :=
              ih (each.tail passed) tail.symm
            simpa using behind
        | cons head gap =>
            obtain ⟨rfl, -⟩ := List.cons.inj tail
            refine innerIH (fun left symbol right between split passed => ?_) rfl
            exact expected (expects_of_production member (opened each.head) left symbol right between
              split passed)

end EachAfter

end Rows

theorem transGen_enter {production : Production} {left between right : List String} {symbol : String}
    (member : production ∈ table.productions) (place : production.symbols = left ++ symbol :: right)
    (passed : table.Yields left between) (front after : List String) :
    Relation.TransGen table.Rewrites (front ++ production.origin :: after)
      (front ++ between ++ symbol :: (right ++ after)) := by
  have opened : table.Rewrites (front ++ production.origin :: after)
      (front ++ left ++ symbol :: (right ++ after)) := by
    simpa [place] using Rewrites.replace front after member
  have filled : table.Derives (front ++ left ++ symbol :: (right ++ after))
      (front ++ between ++ symbol :: (right ++ after)) :=
    (Derives.of_yields passed).within front (symbol :: (right ++ after))
  exact (Relation.TransGen.single opened).trans_left filled

theorem opens_iff_derives {front : List String} {symbol : String} :
    table.Opens front symbol ↔ ∃ after, table.Derives [table.start] (front ++ symbol :: after) := by
  constructor
  · intro opens
    induction opens with
    | start => exact ⟨[], .refl _⟩
    | enter member place _ passed ih =>
        obtain ⟨after, derives⟩ := ih
        exact ⟨_, derives.trans (transGen_enter member place passed _ after).to_reflTransGen⟩
  · intro given
    obtain ⟨after, derives⟩ := given
    have row : table.EachAfter table.Opens [] [table.start] := by
      intro left symbol right between split passed
      cases left with
      | nil =>
          obtain ⟨rfl, -⟩ := List.cons.inj split
          cases passed
          exact .start
      | cons head left => simp at split
    exact row.of_yields id Expects.opens (derives_iff_yields.1 derives) rfl

/-- What is expected after `front` can be derived behind it, by one replacement at least. -/
theorem expects_iff_transGen {front : List String} {symbol : String} :
    table.Expects front symbol ↔
      ∃ after, Relation.TransGen table.Rewrites [table.start] (front ++ symbol :: after) := by
  constructor
  · intro given
    obtain ⟨production, member, earlier, left, between, right, place, opened, passed, rfl⟩ := given
    obtain ⟨after, derives⟩ := opens_iff_derives.1 opened
    exact ⟨_, (transGen_enter member place passed earlier after).trans_right derives⟩
  · intro given
    obtain ⟨after, derives⟩ := given
    obtain ⟨row, step, rest⟩ := Relation.TransGen.head'_iff.1 derives
    generalize whole : [table.start] = start at step
    obtain ⟨left, right, member⟩ := step
    rename_i production
    cases left with
    | cons head left => simp at whole
    | nil =>
        obtain ⟨origin, rfl⟩ := List.cons.inj whole
        have opened : table.Opens [] production.origin := by
          rw [← origin]
          exact .start
        have derived : table.Derives production.symbols (front ++ symbol :: after) := by
          simpa [Derives] using rest
        have row := EachAfter.expects_of_production member opened
        exact row.of_yields Expects.opens id (derives_iff_yields.1 derived) rfl

end Typeahead.RuleTable
