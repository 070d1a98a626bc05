import Mathlib.Data.List.Basic
import Mathlib.Data.List.TakeWhile

/-! # Texts cut at a character

A text is cut at the first place of a character: the part before it is `takeWhile`, and the place
with what follows it is `dropWhile`. A text without the character is its first part as a whole.

Cut at every place of a character, it falls into parts that do not hold the character
(`not_mem_of_mem_splitOn`) and have no others than the text (`subset_of_mem_splitOn`). -/

namespace GeoRules.Text

/-! ### The first place -/

section
variable {s : List Char} {c : Char}

theorem ne_of_not_mem (h : c ∉ s) : ∀ d ∈ s, decide (d ≠ c) = true := fun _ hd =>
  decide_eq_true fun heq => h (heq ▸ hd)

theorem takeWhile_of_not_mem (h : c ∉ s) : s.takeWhile (· ≠ c) = s :=
  List.takeWhile_eq_self_iff.mpr (ne_of_not_mem h)

theorem dropWhile_of_not_mem (h : c ∉ s) : s.dropWhile (· ≠ c) = [] :=
  List.dropWhile_eq_nil_iff.mpr (ne_of_not_mem h)

theorem takeWhile_cut (h : c ∉ s) (t : List Char) : (s ++ c :: t).takeWhile (· ≠ c) = s := by
  rw [List.takeWhile_append_of_pos (ne_of_not_mem h)]
  simp

theorem dropWhile_cut (h : c ∉ s) (t : List Char) : (s ++ c :: t).dropWhile (· ≠ c) = c :: t := by
  rw [List.dropWhile_append_of_pos (ne_of_not_mem h)]
  simp

theorem not_mem_takeWhile (s : List Char) (c : Char) : c ∉ s.takeWhile (· ≠ c) := fun hmem => by
  simpa using List.mem_takeWhile_imp hmem

end

/-! ### Every place -/

theorem not_mem_of_mem_splitOn {α : Type} [DecidableEq α] {sep : α} {cs part : List α}
    (h : part ∈ cs.splitOn sep) : sep ∉ part := by
  induction cs generalizing part with
  | nil =>
    rw [List.splitOn_nil, List.mem_singleton] at h
    simp [h]
  | cons c cs ih =>
    rw [List.splitOn_cons_eq_if_modifyHead] at h
    split at h
    · rcases List.mem_cons.mp h with rfl | h
      · exact List.not_mem_nil
      · exact ih h
    · next hc =>
      rcases hparts : cs.splitOn sep with _ | ⟨first, parts⟩
      · exact (List.splitOn_ne_nil _ _ hparts).elim
      · rw [hparts] at h ih
        rcases List.mem_cons.mp h with rfl | h
        · have hfirst : sep ∉ first := ih List.mem_cons_self
          have hne : sep ≠ c := fun he => hc (by simp [he])
          simp [hne, hfirst]
        · exact ih (List.mem_cons_of_mem _ h)

section
variable {ws : List (List Char)} {s t : List Char} {c sep : Char}

theorem mem_intercalate_iff (hc : c ≠ sep) :
    c ∈ List.intercalate [sep] ws ↔ ∃ w ∈ ws, c ∈ w := by
  induction ws with
  | nil => simp [List.intercalate]
  | cons w ws ih =>
    rcases ws with _ | ⟨w', ws⟩
    · simp [List.intercalate_singleton]
    · rw [List.intercalate_cons_cons, List.mem_append, List.mem_append, List.mem_singleton, ih,
        List.exists_mem_cons_iff]
      simp [hc]

/-- The parts of a text are made of its characters. -/
theorem subset_of_mem_splitOn (h : t ∈ s.splitOn sep) : t ⊆ s := by
  intro c hc
  have hne : c ≠ sep := fun heq => not_mem_of_mem_splitOn h (heq ▸ hc)
  have hmem : c ∈ List.intercalate [sep] (s.splitOn sep) := (mem_intercalate_iff hne).mpr ⟨t, h, hc⟩
  rwa [List.intercalate_splitOn sep] at hmem

end

end GeoRules.Text
