import Typeahead.Proofs.Language.Answering

namespace Typeahead.Language.Script

/-!
Line ends between brackets.  The layout keeps the closers that are due on a stack, on which lexemes
with well-nested brackets leave no trace, whatever broken text they stand in.  So a line end among
them is spacing just where the innermost pair around it is one of parentheses or square brackets.
-/

def closers : List String := ["RPAREN", "RSQUARE", "RCURL"]

/-- Whether a terminal opens or closes something. -/
def isBracket (terminal : String) : Bool := (closer? terminal).isSome || closers.contains terminal

/-- Each opening bracket among the lexemes is closed by its own closer, and each closer closes
one. -/
inductive WellNested : List Lexeme → Prop where
  | nil : WellNested []
  | plain {lexeme : Lexeme} {rest : List Lexeme} (single : isBracket lexeme.terminal = false)
      (nested : WellNested rest) : WellNested (lexeme :: rest)
  | pair {opening closing : Lexeme} {inner rest : List Lexeme}
      (closes : closer? opening.terminal = some closing.terminal) (inside : WellNested inner)
      (nested : WellNested rest) : WellNested (opening :: (inner ++ closing :: rest))

/-- The innermost pair of brackets around what stands behind `before` and in front of `after` is
opened by `terminal`. -/
def Enclosed (terminal : String) (before after : List Lexeme) : Prop :=
  ∃ outer opening inner inner' closing outer',
    before = outer ++ opening :: inner ∧ after = inner' ++ closing :: outer' ∧
    opening.terminal = terminal ∧ closer? terminal = some closing.terminal ∧
    WellNested inner ∧ WellNested inner'

/-- What is a string on one line is one as a whole. -/
def Lexed (lexemes : List Lexeme) : Prop :=
  ∀ lexeme ∈ lexemes, lexeme.terminal = "LINE_STRING" → lineString.matchesWhole lexeme.text = true

/-- What the layout makes of a lexeme behind `before` and in front of `after`. -/
structure Treated (before : List Lexeme) (lexeme : Lexeme) (after parts : List Lexeme) : Prop where
  lineEnd : lexeme.terminal = "NL" →
    (parts = [{ lexeme with terminal := "WS" }] ↔
      Enclosed "LPAREN" before after ∨ Enclosed "LSQUARE" before after) ∧
    (parts = [lexeme] ↔ ¬(Enclosed "LPAREN" before after ∨ Enclosed "LSQUARE" before after))
  line : lexeme.terminal = "LINE_STRING" → splitLineString lexeme = .ok parts
  lines : lexeme.terminal = "MULTI_LINE_STRING" → parts = splitMultiLineString lexeme
  other : lexeme.terminal ≠ "NL" → lexeme.terminal ∉ divided → parts = [lexeme]

/-- What is read off a text is as the layout wants it. -/
theorem lexed_scan (cs : List Char) : Lexed (lexicon.scan cs) :=
  fun _ member => matchesWhole_lineString (Lexicon.finds_of_mem_scanUpTo member)

theorem Lexed.append {front back : List Lexeme} (first : Lexed front) (second : Lexed back) :
    Lexed (front ++ back) := by
  intro lexeme member
  exact (List.mem_append.1 member).elim (first lexeme) (second lexeme)

section Due

/-- The closers that are due after some lexemes. -/
def dueAfter (due : List String) (lexemes : List Lexeme) : List String :=
  lexemes.foldl (fun due lexeme => closersAfter due lexeme.terminal) due

variable {due : List String} {terminal closer : String} {lexemes before after : List Lexeme}

theorem closer?_cases (found : closer? terminal = some closer) :
    terminal = "LPAREN" ∧ closer = "RPAREN" ∨ terminal = "LSQUARE" ∧ closer = "RSQUARE" ∨
      terminal = "LCURL" ∧ closer = "RCURL" := by
  unfold closer? at found
  split at found <;> simp_all

theorem mem_closers_of_closer? (found : closer? terminal = some closer) : closer ∈ closers := by
  rcases closer?_cases found with ⟨-, rfl⟩ | ⟨-, rfl⟩ | ⟨-, rfl⟩ <;> decide

theorem closersAfter_of_plain (closing : due ⊆ closers) (plain : isBracket terminal = false) :
    closersAfter due terminal = due := by
  rw [isBracket, Bool.or_eq_false_iff] at plain
  have unopened : closer? terminal = none := by simpa using plain.1
  have other : due.head? ≠ some terminal := by
    intro first
    have listed := List.contains_iff_mem.2 (closing (List.mem_of_head? first))
    rw [plain.2] at listed
    cases listed
  rw [closersAfter, unopened]
  exact if_neg other

theorem closersAfter_of_closer? (found : closer? terminal = some closer) :
    closersAfter due terminal = closer :: due := by
  rw [closersAfter, found]

theorem closersAfter_cons (member : closer ∈ closers) :
    closersAfter (closer :: due) closer = due := by
  have unopened : closer? closer = none := by
    simp only [closers, List.mem_cons, List.not_mem_nil, or_false] at member
    rcases member with rfl | rfl | rfl <;> rfl
  rw [closersAfter, unopened]
  exact if_pos rfl

theorem closersAfter_subset (closing : due ⊆ closers) (terminal : String) :
    closersAfter due terminal ⊆ closers := by
  unfold closersAfter
  split
  · next closer found =>
      exact List.cons_subset.2 ⟨mem_closers_of_closer? found, closing⟩
  · split
    · exact fun _ member => closing (List.mem_of_mem_tail member)
    · exact closing

theorem dueAfter_subset (closing : due ⊆ closers) (lexemes : List Lexeme) :
    dueAfter due lexemes ⊆ closers := by
  induction lexemes generalizing due with
  | nil => exact closing
  | cons lexeme rest ih => exact ih (closersAfter_subset closing lexeme.terminal)

theorem dueAfter_append (due : List String) (before after : List Lexeme) :
    dueAfter due (before ++ after) = dueAfter (dueAfter due before) after :=
  List.foldl_append

/-- Well-nested brackets leave what is due as it was. -/
theorem WellNested.dueAfter_eq (nested : WellNested lexemes) (closing : due ⊆ closers) :
    dueAfter due lexemes = due := by
  induction nested generalizing due with
  | nil => rfl
  | @plain lexeme rest plain nested ih =>
      have here : dueAfter due (lexeme :: rest) =
          dueAfter (closersAfter due lexeme.terminal) rest := rfl
      rw [here, closersAfter_of_plain closing plain, ih closing]
  | @pair opening closer inner rest closes inside nested ihInside ih =>
      have member := mem_closers_of_closer? closes
      have opened : dueAfter due (opening :: (inner ++ closer :: rest)) =
          dueAfter (closersAfter due opening.terminal) (inner ++ closer :: rest) := rfl
      have closed : dueAfter (closer.terminal :: due) (closer :: rest) =
          dueAfter (closersAfter (closer.terminal :: due) closer.terminal) rest := rfl
      rw [opened, closersAfter_of_closer? closes, dueAfter_append,
        ihInside (List.cons_subset.2 ⟨member, closing⟩), closed, closersAfter_cons member,
        ih closing]

theorem Enclosed.widen (enclosed : Enclosed terminal before after) (outer outer' : List Lexeme) :
    Enclosed terminal (outer ++ before) (after ++ outer') := by
  obtain ⟨front, opening, inner, inner', closing, back, rfl, rfl, rest⟩ := enclosed
  exact ⟨outer ++ front, opening, inner, inner', closing, back ++ outer', by simp, by simp, rest⟩

theorem isBracket_of_closer? {opening closing : Lexeme}
    (closes : closer? opening.terminal = some closing.terminal) :
    isBracket opening.terminal = true ∧ isBracket closing.terminal = true := by
  have listed := List.contains_iff_mem.2 (mem_closers_of_closer? closes)
  refine ⟨?_, ?_⟩
  · rw [isBracket, closes]
    rfl
  · rw [isBracket, listed, Bool.or_true]

/-- A lexeme among well-nested ones stands outside all pairs of brackets, or there is an innermost
one around it. -/
theorem WellNested.exists_enclosed {lexeme : Lexeme} (plain : isBracket lexeme.terminal = false)
    (nested : WellNested lexemes) (split : lexemes = before ++ lexeme :: after) :
    WellNested before ∧ WellNested after ∨ ∃ terminal, Enclosed terminal before after := by
  induction nested generalizing before after with
  | nil => simp at split
  | @plain first rest single nested ih =>
      cases before with
      | nil =>
          obtain ⟨rfl, rfl⟩ := List.cons.inj split
          exact .inl ⟨.nil, nested⟩
      | cons head before =>
          obtain ⟨rfl, later⟩ := List.cons.inj split
          rcases ih later with ⟨left, right⟩ | ⟨terminal, enclosed⟩
          · exact .inl ⟨.plain single left, right⟩
          · refine .inr ⟨terminal, ?_⟩
            have wider := enclosed.widen [first] []
            rwa [List.append_nil] at wider
  | @pair opening closing inner rest closes inside nested ihInside ih =>
      have brackets := isBracket_of_closer? closes
      cases before with
      | nil =>
          obtain ⟨rfl, -⟩ := List.cons.inj split
          simp [brackets] at plain
      | cons head before =>
          obtain ⟨rfl, later⟩ := List.cons.inj split
          rcases List.append_eq_append_iff.1 later with ⟨gap, rfl, there⟩ | ⟨gap, rfl, there⟩
          · -- the lexeme stands behind the pair
            cases gap with
            | nil =>
                obtain ⟨rfl, -⟩ := List.cons.inj there
                simp [brackets] at plain
            | cons head gap =>
                obtain ⟨rfl, further⟩ := List.cons.inj there
                rcases ih further with ⟨left, right⟩ | ⟨terminal, enclosed⟩
                · exact .inl ⟨.pair closes inside left, right⟩
                · refine .inr ⟨terminal, ?_⟩
                  have wider := enclosed.widen (opening :: (inner ++ [closing])) []
                  simpa using wider
          · -- the lexeme stands inside it
            cases gap with
            | nil =>
                obtain ⟨rfl, -⟩ := List.cons.inj there
                simp [brackets] at plain
            | cons head gap =>
                obtain ⟨rfl, rfl⟩ := List.cons.inj there
                rcases ihInside rfl with ⟨left, right⟩ | ⟨terminal, enclosed⟩
                · exact .inr ⟨opening.terminal, [], opening, before, gap, closing, rest, rfl, rfl,
                    rfl, closes, left, right⟩
                · exact .inr ⟨terminal, enclosed.widen [opening] (closing :: rest)⟩

/-- Behind an open bracket the closer of that bracket is due next. -/
theorem Enclosed.exists_due (enclosed : Enclosed terminal before after) :
    ∃ closer due, closer? terminal = some closer ∧ dueAfter [] before = closer :: due := by
  obtain ⟨outer, opening, inner, _, closing, _, rfl, -, rfl, closes, inside, -⟩ := enclosed
  refine ⟨closing.terminal, dueAfter [] outer, closes, ?_⟩
  have due := dueAfter_subset (List.nil_subset closers) outer
  have opened : dueAfter (dueAfter [] outer) (opening :: inner) =
      dueAfter (closersAfter (dueAfter [] outer) opening.terminal) inner := rfl
  rw [dueAfter_append, opened, closersAfter_of_closer? closes]
  exact inside.dueAfter_eq (List.cons_subset.2 ⟨mem_closers_of_closer? closes, due⟩)

/-- A line end is spacing just where the innermost pair of brackets around it is one of parentheses
or square brackets. -/
theorem WellNested.joinsLines_iff {lexeme : Lexeme} (plain : isBracket lexeme.terminal = false)
    (nested : WellNested (before ++ lexeme :: after)) :
    joinsLines (dueAfter [] before) = true ↔
      Enclosed "LPAREN" before after ∨ Enclosed "LSQUARE" before after := by
  refine ⟨?_, ?_⟩
  · intro joins
    rcases nested.exists_enclosed plain rfl with ⟨left, -⟩ | ⟨terminal, enclosed⟩
    · rw [left.dueAfter_eq (List.nil_subset closers)] at joins
      cases joins
    · obtain ⟨closer, due, closes, same⟩ := enclosed.exists_due
      rw [same] at joins
      rcases closer?_cases closes with ⟨rfl, -⟩ | ⟨rfl, -⟩ | ⟨-, rfl⟩
      · exact .inl enclosed
      · exact .inr enclosed
      · cases joins
  · intro either
    rcases either with round | square
    · obtain ⟨closer, due, closes, same⟩ := round.exists_due
      obtain rfl := Option.some.inj closes
      rw [same]
      rfl
    · obtain ⟨closer, due, closes, same⟩ := square.exists_due
      obtain rfl := Option.some.inj closes
      rw [same]
      rfl

end Due

section Pieces

variable {due : List String} {lexemes : List Lexeme}

/-- What a lexeme becomes, given the closers that are due. -/
def partsOf (due : List String) (lexeme : Lexeme) : List Lexeme :=
  if lexeme.terminal = "LINE_STRING" then (splitLineString lexeme).toOption.getD []
  else if lexeme.terminal = "MULTI_LINE_STRING" then splitMultiLineString lexeme
  else if lexeme.terminal = "NL" && joinsLines due then [{ lexeme with terminal := "WS" }]
  else [lexeme]

/-- What each lexeme becomes. -/
def pieces : (due : List String) → List Lexeme → List (List Lexeme)
  | _, [] => []
  | due, lexeme :: rest => partsOf due lexeme :: pieces (closersAfter due lexeme.terminal) rest

theorem pieces_append (due : List String) (before after : List Lexeme) :
    pieces due (before ++ after) = pieces due before ++ pieces (dueAfter due before) after := by
  induction before generalizing due with
  | nil => rfl
  | cons lexeme rest ih => exact congrArg (partsOf due lexeme :: ·) (ih _)

@[simp]
theorem length_pieces (due : List String) (lexemes : List Lexeme) :
    (pieces due lexemes).length = lexemes.length := by
  induction lexemes generalizing due with
  | nil => rfl
  | cons lexeme rest ih => exact congrArg (· + 1) (ih _)

theorem exists_parts {lexeme : Lexeme} (whole : lineString.matchesWhole lexeme.text = true) :
    ∃ parts, splitLineString lexeme = .ok parts := by
  have matched := List.contains_iff_mem.1 whole
  obtain ⟨parts, split, -⟩ := exists_splitLineString matched List.take_length.symm
  exact ⟨parts, split⟩

/-- The layout makes its pieces out of the lexemes one by one. -/
theorem layoutWithin_eq (lexed : Lexed lexemes) (closing : due ⊆ closers) :
    layoutWithin due lexemes = .ok (pieces due lexemes).flatten := by
  induction lexemes generalizing due with
  | nil => rfl
  | cons lexeme rest ih =>
      have later := ih (fun other member => lexed other (List.mem_cons_of_mem _ member))
        (closersAfter_subset closing lexeme.terminal)
      have plain : ∀ terminal, isBracket terminal = false → lexeme.terminal = terminal →
          closersAfter due lexeme.terminal = due := by
        intro terminal plain same
        exact same ▸ closersAfter_of_plain closing plain
      rw [layoutWithin, pieces, List.flatten_cons, partsOf]
      split
      · next line =>
          obtain ⟨parts, split⟩ := exists_parts (lexed lexeme List.mem_cons_self line)
          rw [plain _ (by decide) line] at later ⊢
          rw [split, later]
          rfl
      · split
        · next lines =>
            rw [plain _ (by decide) lines] at later ⊢
            rw [later]
            rfl
        · split
          · next spacing =>
              have lineEnd : lexeme.terminal = "NL" := by
                simpa using (Bool.and_eq_true_iff.1 spacing).1
              rw [plain _ (by decide) lineEnd] at later ⊢
              rw [later]
              rfl
          · rw [later]
            rfl

theorem getElem?_pieces (due : List String) (before : List Lexeme) (lexeme : Lexeme)
    (after : List Lexeme) : (pieces due (before ++ lexeme :: after))[before.length]? =
      some (partsOf (dueAfter due before) lexeme) := by
  rw [pieces_append, List.getElem?_append_right (Nat.le_of_eq (length_pieces due before)),
    length_pieces, Nat.sub_self]
  rfl

/-- Among well-nested brackets each lexeme is treated as the innermost pair around it says. -/
theorem WellNested.treated {before after : List Lexeme} {lexeme : Lexeme}
    (lexed : Lexed (before ++ lexeme :: after)) (nested : WellNested (before ++ lexeme :: after)) :
    Treated before lexeme after (partsOf (dueAfter [] before) lexeme) := by
  refine ⟨?_, ?_, ?_, ?_⟩
  · intro lineEnd
    have plain : isBracket lexeme.terminal = false := lineEnd ▸ by decide
    have different : [{ lexeme with terminal := "WS" }] ≠ [lexeme] := by
      intro same
      have spacing : "WS" = "NL" :=
        (congrArg (fun part : Lexeme => part.terminal) (List.cons.inj same).1).trans lineEnd
      exact absurd spacing (by decide)
    rw [← nested.joinsLines_iff plain]
    cases joins : joinsLines (dueAfter [] before) with
    | true =>
        have spacing :
            partsOf (dueAfter [] before) lexeme = [{ lexeme with terminal := "WS" }] := by
          simp [partsOf, lineEnd, joins]
        rw [spacing]
        exact ⟨iff_of_true rfl rfl, iff_of_false different (not_not_intro rfl)⟩
    | false =>
        have kept : partsOf (dueAfter [] before) lexeme = [lexeme] := by
          simp [partsOf, lineEnd, joins]
        rw [kept]
        exact ⟨iff_of_false different.symm Bool.false_ne_true, iff_of_true rfl Bool.false_ne_true⟩
  · intro line
    obtain ⟨parts, split⟩ := exists_parts (lexed lexeme (by simp) line)
    rw [partsOf, if_pos line, split]
    rfl
  · intro lines
    rw [partsOf, if_neg (by simp [lines]), if_pos lines]
  · intro other whole
    simp only [divided, List.mem_cons, List.not_mem_nil, or_false, not_or] at whole
    rw [partsOf, if_neg whole.1, if_neg whole.2, if_neg (by simp [other])]

end Pieces

/-- Lexemes with well-nested brackets are laid out as the pairs around each say, and the layout of
what follows them is the same as without them. -/
theorem layout_wellNested {lexemes : List Lexeme} (lexed : Lexed lexemes)
    (nested : WellNested lexemes) :
    (∃ laid : List (List Lexeme), layout lexemes = .ok laid.flatten ∧
      laid.length = lexemes.length ∧
      ∀ before lexeme after, lexemes = before ++ lexeme :: after →
        ∃ parts, laid[before.length]? = some parts ∧ Treated before lexeme after parts) ∧
    ∀ front back, Lexed front → Lexed back → ∃ first middle last, layout front = .ok first ∧
      layout (front ++ lexemes) = .ok (first ++ middle) ∧
      layout (front ++ lexemes ++ back) = .ok (first ++ middle ++ last) ∧
      layout (front ++ back) = .ok (first ++ last) := by
  have empty := List.nil_subset closers
  refine ⟨⟨pieces [] lexemes, layoutWithin_eq lexed empty, length_pieces _ _, ?_⟩, ?_⟩
  · intro before lexeme after split
    subst split
    exact ⟨_, getElem?_pieces [] before lexeme after, nested.treated lexed⟩
  · intro front back lexedFront lexedBack
    have frontAndMiddle := Lexed.append lexedFront lexed
    have same := nested.dueAfter_eq (dueAfter_subset empty front)
    refine ⟨(pieces [] front).flatten, (pieces (dueAfter [] front) lexemes).flatten,
      (pieces (dueAfter [] front) back).flatten, layoutWithin_eq lexedFront empty, ?_, ?_, ?_⟩
    · rw [layout, layoutWithin_eq frontAndMiddle empty, pieces_append, List.flatten_append]
    · rw [layout, layoutWithin_eq (frontAndMiddle.append lexedBack) empty, pieces_append,
        pieces_append, dueAfter_append, same, List.flatten_append, List.flatten_append]
    · rw [layout, layoutWithin_eq (lexedFront.append lexedBack) empty, pieces_append,
        List.flatten_append]

namespace Call

/-! A call with a lambda among its arguments, behind a broken beginning. -/

def lineEnd (start line column : Nat) : Lexeme := ⟨⟨"NL", ['\n']⟩, start, line, column⟩

def spacing (start line column : Nat) : Lexeme := ⟨⟨"WS", ['\n']⟩, start, line, column⟩

def argument : List Lexeme :=
  [⟨⟨"LCURL", ['{']⟩, 2, 2, 1⟩, lineEnd 3 2 2, ⟨⟨"LINE_STRING", ['"', 's', '"']⟩, 4, 3, 1⟩,
    ⟨⟨"LSQUARE", ['[']⟩, 7, 3, 4⟩, lineEnd 8 3 5, ⟨⟨"RSQUARE", [']']⟩, 9, 4, 1⟩,
    ⟨⟨"RCURL", ['}']⟩, 10, 4, 2⟩]

def call : List Lexeme :=
  ⟨⟨"LPAREN", ['(']⟩, 0, 1, 1⟩ :: lineEnd 1 1 2 ::
    (argument ++ [lineEnd 11 4 3, ⟨⟨"RPAREN", [')']⟩, 12, 5, 1⟩, lineEnd 13 5 2])

def begun : List Lexeme :=
  [⟨⟨"LSQUARE", ['[']⟩, 0, 1, 1⟩, ⟨⟨"RCURL", ['}']⟩, 1, 1, 2⟩, ⟨⟨"LPAREN", ['(']⟩, 2, 1, 3⟩]

theorem layout_behind_begun : lexicon.scan "(\n\x7b\n\"s\"[\n]\x7d\n)\n".toList = call ∧
    Lexed call ∧ WellNested call ∧
    layout call = .ok [⟨⟨"LPAREN", ['(']⟩, 0, 1, 1⟩, spacing 1 1 2, ⟨⟨"LCURL", ['{']⟩, 2, 2, 1⟩,
      lineEnd 3 2 2, ⟨⟨"QUOTE_OPEN", ['"']⟩, 4, 3, 1⟩, ⟨⟨"LINE_STR_TEXT", ['s']⟩, 5, 3, 2⟩,
      ⟨⟨"QUOTE_CLOSE", ['"']⟩, 6, 3, 3⟩, ⟨⟨"LSQUARE", ['[']⟩, 7, 3, 4⟩, spacing 8 3 5,
      ⟨⟨"RSQUARE", [']']⟩, 9, 4, 1⟩, ⟨⟨"RCURL", ['}']⟩, 10, 4, 2⟩, spacing 11 4 3,
      ⟨⟨"RPAREN", [')']⟩, 12, 5, 1⟩, lineEnd 13 5 2] ∧
    ∃ first middle last, layout begun = .ok first ∧ layout (begun ++ call) = .ok (first ++ middle) ∧
      layout (begun ++ call ++ [lineEnd 3 1 4]) = .ok (first ++ middle ++ last) ∧
      layout (begun ++ [lineEnd 3 1 4]) = .ok (first ++ last) := by
  have scanned : lexicon.scan "(\n\x7b\n\"s\"[\n]\x7d\n)\n".toList = call := by decide +kernel
  have lexed : Lexed call := scanned ▸ lexed_scan _
  have nested : WellNested call := by
    have alone : ∀ start line column, WellNested [lineEnd start line column] :=
      fun _ _ _ => .plain rfl .nil
    have square : WellNested (⟨⟨"LSQUARE", ['[']⟩, 7, 3, 4⟩ ::
        ([lineEnd 8 3 5] ++ [⟨⟨"RSQUARE", [']']⟩, 9, 4, 1⟩])) := .pair rfl (alone 8 3 5) .nil
    have body : WellNested (lineEnd 3 2 2 :: ⟨⟨"LINE_STRING", ['"', 's', '"']⟩, 4, 3, 1⟩ :: _) :=
      .plain rfl (.plain rfl square)
    have arguments : WellNested (lineEnd 1 1 2 :: ⟨⟨"LCURL", ['{']⟩, 2, 2, 1⟩ ::
        (_ ++ [⟨⟨"RCURL", ['}']⟩, 10, 4, 2⟩, lineEnd 11 4 3])) :=
      .plain rfl (.pair rfl body (alone 11 4 3))
    exact .pair rfl arguments (alone 13 5 2)
  refine ⟨scanned, lexed, nested, by rfl, ?_⟩
  exact (layout_wellNested lexed nested).2 begun [lineEnd 3 1 4] (by unfold Lexed; decide)
    (by unfold Lexed; decide)

end Call

end Typeahead.Language.Script
