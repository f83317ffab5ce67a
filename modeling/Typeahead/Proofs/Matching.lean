import Mathlib.Data.List.Basic
import Typeahead.Matcher

namespace Typeahead.Matcher

/-!
What matchers leave of the candidates.  A matcher by lowercase forms tests every candidate on its
own, so that order and repetitions stay, and a looser relation leaves more.  The scan for characters
in order needs no second try, since the first place of a character leaves the most to search.
-/

section Selection

variable {holds looser : List Char → List Char → Bool} {text candidate : String}
  {candidates : List String}

theorem byLowercase_eq_filter : byLowercase holds text candidates =
    candidates.filter fun candidate => Text.allBlank text ||
      holds (Text.lowercase text).toList (Text.lowercase candidate).toList := by
  unfold byLowercase
  split
  · rename_i blank
    simp [blank]
  · rename_i given
    simp [given]

theorem mem_byLowercase : candidate ∈ byLowercase holds text candidates ↔
    candidate ∈ candidates ∧ (Text.allBlank text = true ∨
      holds (Text.lowercase text).toList (Text.lowercase candidate).toList = true) := by
  rw [byLowercase_eq_filter, List.mem_filter, Bool.or_eq_true]

theorem byLowercase_sublist : (byLowercase holds text candidates).Sublist candidates := by
  rw [byLowercase_eq_filter]
  exact List.filter_sublist

/-- What a looser relation takes away, a stricter one would take away as well. -/
theorem byLowercase_byLowercase
    (implies : ∀ text candidate, holds text candidate = true → looser text candidate = true) :
    byLowercase holds text (byLowercase looser text candidates) =
      byLowercase holds text candidates := by
  simp only [byLowercase_eq_filter, List.filter_filter]
  apply List.filter_congr
  intro candidate _
  rw [← Bool.or_and_distrib_left, Bool.and_eq_left_iff_imp.2 (implies _ _)]

theorem mem_startsWith : candidate ∈ startsWith text candidates ↔ candidate ∈ candidates ∧
    (Text.allBlank text = true ∨
      (Text.lowercase text).toList <+: (Text.lowercase candidate).toList) := by
  rw [startsWith, mem_byLowercase, List.isPrefixOf_iff_prefix]

theorem nodup_startsWith (distinct : candidates.Nodup) (text : String) :
    (startsWith text candidates).Nodup :=
  distinct.sublist byLowercase_sublist

end Selection

section Order

variable {c : Char} {text candidate : List Char}

/-- Wherever a sublist finds its first character, the rest of it is also found behind the first
place of that character. -/
theorem cons_sublist_iff_behind : (c :: text).Sublist candidate ↔
    ∃ rest, behind? candidate c = some rest ∧ text.Sublist rest := by
  induction candidate with
  | nil => simp [behind?]
  | cons d candidate ih =>
      unfold behind?
      by_cases found : d = c
      · subst found
        simp
      · have passed : c ≠ d := fun same => found same.symm
        rw [if_neg found, ← ih, List.cons_sublist_cons']
        simp [passed]

theorem inOrder_iff_sublist : inOrder text candidate = true ↔ text.Sublist candidate := by
  unfold inOrder
  induction text generalizing candidate with
  | nil => simp
  | cons c text ih =>
      rw [cons_sublist_iff_behind, List.foldlM_cons]
      cases search : behind? candidate c with
      | none => simp
      | some rest => simpa using ih

theorem inOrder_of_isPrefixOf (starts : text.isPrefixOf candidate = true) :
    inOrder text candidate = true :=
  inOrder_iff_sublist.2 (List.isPrefixOf_iff_prefix.1 starts).sublist

end Order

/-- Beginnings are among the characters in order. -/
theorem startsWith_fuzzy (text : String) (candidates : List String) :
    startsWith text (fuzzy text candidates) = startsWith text candidates :=
  byLowercase_byLowercase fun _ _ => inOrder_of_isPrefixOf

/-- Both matchers decide by the candidate alone, and one that begins with the text has the
characters of the text in order. -/
theorem startsWith_within_fuzzy (text : String) (candidates : List String) :
    fuzzy text candidates = candidates.filter (fun candidate => Text.allBlank text = true ∨
        (Text.lowercase text).toList.Sublist (Text.lowercase candidate).toList) ∧
      startsWith text candidates = (fuzzy text candidates).filter (fun candidate =>
        Text.allBlank text = true ∨
          (Text.lowercase text).toList <+: (Text.lowercase candidate).toList) ∧
      (startsWith text candidates).Sublist (fuzzy text candidates) ∧
      (fuzzy text candidates).Sublist candidates := by
  refine ⟨?_, ?_, ?_, byLowercase_sublist⟩
  · rw [fuzzy, byLowercase_eq_filter]
    apply List.filter_congr
    intro candidate _
    rw [Bool.eq_iff_iff, Bool.or_eq_true, inOrder_iff_sublist, decide_eq_true_eq]
  · rw [← startsWith_fuzzy, startsWith, byLowercase_eq_filter]
    apply List.filter_congr
    intro candidate _
    rw [Bool.eq_iff_iff, Bool.or_eq_true, List.isPrefixOf_iff_prefix, decide_eq_true_eq]
  · rw [← startsWith_fuzzy]
    exact byLowercase_sublist

/-- The small form of a dotted capital I has two characters. -/
example : fuzzy "ISt" ["İstanbul", "is", "Istria", "İstanbul"] = ["İstanbul", "Istria", "İstanbul"] ∧
    startsWith "ISt" ["İstanbul", "is", "Istria", "İstanbul"] = ["Istria"] := by
  decide +kernel

end Typeahead.Matcher
