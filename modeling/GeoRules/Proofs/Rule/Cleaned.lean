import GeoRules.Proofs.Text.Blank
import GeoRules.Proofs.Text.Cut
import GeoRules.Rule.Line

/-! # Lines without comments and white space

What is left of a line is its part before the first number sign without the white space at its ends
(`cleanLine_eq_some_iff`). White space at the ends of the line makes no difference to it
(`cleanLine_margins`), and neither does a comment (`cleanLine_comment`). What is left has neither,
so that it stays as it is when it is cleaned again (`cleanLine_cleaned`). -/

namespace GeoRules

open Text

variable {s t u v : List Char}

theorem cleanLine_eq_some_iff :
    cleanLine s = some t ↔ t = trim (s.takeWhile (· ≠ '#')) ∧ t ≠ [] := by
  unfold cleanLine
  rcases trim (s.takeWhile (· ≠ '#')) with _ | ⟨c, cs⟩
  · simp
  · simp +contextual [eq_comm]

/-- A line is cleaned to what its part before the comment is. -/
theorem cleanLine_congr (h : trim (s.takeWhile (· ≠ '#')) = trim (t.takeWhile (· ≠ '#'))) :
    cleanLine s = cleanLine t := by
  unfold cleanLine
  rw [h]

/-- A line without a comment and without white space at its ends stays as it is. -/
theorem cleanLine_eq_self (hmark : '#' ∉ s) (htrim : trim s = s) (hne : s ≠ []) :
    cleanLine s = some s := by
  rw [cleanLine_eq_some_iff, takeWhile_of_not_mem hmark, htrim]
  exact ⟨rfl, hne⟩

/-! ### What makes no difference -/

theorem not_mem_of_blank (hu : u.all isBlank) : '#' ∉ u := fun hmem => by
  have hblank := List.all_eq_true.mp hu '#' hmem
  revert hblank
  decide

/-- **White space at the ends of a line** is not seen. -/
theorem cleanLine_margins (hu : u.all isBlank) (hv : v.all isBlank) :
    cleanLine (u ++ s ++ v) = cleanLine s := by
  have hmark : '#' ∉ u := not_mem_of_blank hu
  refine cleanLine_congr ?_
  by_cases hs : '#' ∈ s
  · -- the white space at the end belongs to the comment
    obtain ⟨before, after, rfl, hbefore⟩ := List.eq_append_cons_of_mem hs
    have hline : u ++ (before ++ '#' :: after) ++ v = (u ++ before) ++ '#' :: (after ++ v) := by
      simp
    rw [hline, takeWhile_cut (by simp [hmark, hbefore]), takeWhile_cut hbefore,
      ← List.append_nil (u ++ before)]
    exact trim_margins hu rfl
  · have hline : '#' ∉ u ++ s ++ v := by simp [hmark, hs, not_mem_of_blank hv]
    rw [takeWhile_of_not_mem hline, takeWhile_of_not_mem hs]
    exact trim_margins hu hv

/-- **A comment behind a line** is not seen. -/
theorem cleanLine_comment (s comment : List Char) :
    cleanLine (s ++ '#' :: comment) = cleanLine s := by
  refine cleanLine_congr ?_
  by_cases hs : '#' ∈ s
  · -- the line has a comment already
    obtain ⟨before, after, rfl, hbefore⟩ := List.eq_append_cons_of_mem hs
    rw [List.append_assoc, List.cons_append, takeWhile_cut hbefore, takeWhile_cut hbefore]
  · rw [takeWhile_cut hs, takeWhile_of_not_mem hs]

/-- Nothing is left of white space. -/
theorem cleanLine_blank (hu : u.all isBlank) : cleanLine u = none := by
  have hnil := cleanLine_margins (s := []) hu (v := []) rfl
  rwa [List.append_nil, List.append_nil] at hnil

/-! ### What is left -/

theorem not_mem_of_cleanLine (h : cleanLine s = some t) : '#' ∉ t := by
  obtain ⟨rfl, -⟩ := cleanLine_eq_some_iff.mp h
  exact fun hmem => not_mem_takeWhile s '#' ((trim_sublist _).mem hmem)

theorem sublist_of_cleanLine (h : cleanLine s = some t) : t.Sublist s := by
  obtain ⟨rfl, -⟩ := cleanLine_eq_some_iff.mp h
  exact (trim_sublist _).trans (List.takeWhile_sublist _)

/-- What is left of a line without a line feed has none of the marks and white space that a line is
cleaned of. -/
theorem cleanLine_plain (hfeed : '\n' ∉ s) (h : cleanLine s = some t) :
    trim t = t ∧ EndsPlain t ∧ '#' ∉ t ∧ '\n' ∉ t := by
  have hnumber := not_mem_of_cleanLine h
  have hsublist := sublist_of_cleanLine h
  obtain ⟨rfl, hne⟩ := cleanLine_eq_some_iff.mp h
  exact ⟨trim_trim _, endsPlain_trim hne, hnumber, fun hmem => hfeed (hsublist.mem hmem)⟩

/-- **What is left of a line** is not empty, has no number sign and no white space at its ends, and
is left as it is when it is cleaned again. -/
theorem cleanLine_cleaned (h : cleanLine s = some t) : t ≠ [] ∧ '#' ∉ t ∧
    (∀ c ∈ t.head?, isBlank c = false) ∧ (∀ c ∈ t.getLast?, isBlank c = false) ∧
    cleanLine t = some t := by
  have hmark := not_mem_of_cleanLine h
  obtain ⟨rfl, hne⟩ := cleanLine_eq_some_iff.mp h
  exact ⟨hne, hmark, isBlank_head_trim, isBlank_getLast_trim,
    cleanLine_eq_self hmark (trim_trim _) hne⟩

end GeoRules
