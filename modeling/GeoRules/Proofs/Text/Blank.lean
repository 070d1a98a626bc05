import GeoRules.Text.Blank
import Mathlib.Data.List.Infix
import Mathlib.Data.List.TakeWhile
import Mathlib.Data.Nat.Notation

/-! # White space at the ends of a text

Trimming drops characters at both ends, and nothing where a text starts and ends with a character
that is not white space (`trim_eq_self`); so it is done once and for all (`trim_trim`), and white
space that is added at the ends makes no difference (`trim_margins`). What a text ends with is said
by its last part that is not empty (`endsPlain_append`). -/

namespace GeoRules.Text

/-- No visible character of the first 128 is white space. -/
theorem isBlank_of_lt {c : Char} (h1 : 0x20 < c.toNat) (h2 : c.toNat < 0x85) :
    isBlank c = false := by
  have hranges : ∀ r ∈ blankRanges, r.2 ≤ 0x20 ∨ 0x85 ≤ r.1 := by decide
  unfold isBlank inRanges
  rw [List.any_eq_false]
  intro r hr
  have := hranges r hr
  simp
  omega

theorem trim_sublist (s : List Char) : (trim s).Sublist s := by
  have hend : (trim s).Sublist (trimStart s) := by
    rw [trim, trimEnd, ← List.reverse_sublist, List.reverse_reverse]
    exact List.dropWhile_sublist _
  exact hend.trans (List.dropWhile_sublist _)

theorem trim_eq_self {s : List Char} (hhead : ∀ c ∈ s.head?, isBlank c = false)
    (hlast : ∀ c ∈ s.getLast?, isBlank c = false) : trim s = s := by
  have hstart : trimStart s = s := by
    unfold trimStart
    rcases s with _ | ⟨c, s⟩
    · rfl
    · have hc : isBlank c = false := hhead c rfl
      rw [List.dropWhile_cons_of_neg (by simp [hc])]
  have hend : trimEnd s = s := by
    unfold trimEnd
    rcases List.eq_nil_or_concat s with rfl | ⟨t, c, rfl⟩
    · rfl
    · have hc : isBlank c = false := hlast c (by simp)
      rw [List.concat_eq_append, List.reverse_append, List.reverse_singleton,
        List.singleton_append, List.dropWhile_cons_of_neg (by simp [hc])]
      simp
  rw [trim, hstart, hend]

theorem trimEnd_prefix (s : List Char) : trimEnd s <+: s := by
  rw [← List.reverse_suffix, trimEnd, List.reverse_reverse]
  exact List.dropWhile_suffix _

theorem isBlank_head_trim {s : List Char} : ∀ c ∈ (trim s).head?, isBlank c = false := by
  intro c hc
  have hhead : c ∈ (trimStart s).head? := by
    obtain ⟨t, ht⟩ := trimEnd_prefix (trimStart s)
    rw [← ht]
    exact List.mem_head?_append_of_mem_head? hc
  have hdrop := List.head?_dropWhile_not isBlank s
  rw [trimStart] at hhead
  rw [Option.mem_def.mp hhead] at hdrop
  exact hdrop

theorem isBlank_getLast_trim {s : List Char} : ∀ c ∈ (trim s).getLast?, isBlank c = false := by
  intro c hc
  rw [trim, trimEnd, List.getLast?_reverse] at hc
  have hdrop := List.head?_dropWhile_not isBlank (trimStart s).reverse
  rw [Option.mem_def.mp hc] at hdrop
  exact hdrop

/-- **Trimming a trimmed text** drops nothing. -/
theorem trim_trim (s : List Char) : trim (trim s) = trim s :=
  trim_eq_self isBlank_head_trim isBlank_getLast_trim

/-! ### Margins -/

section
variable {s u v : List Char}

theorem trimEnd_append (hv : v.all isBlank) : trimEnd (s ++ v) = trimEnd s := by
  have hrev : ∀ c ∈ v.reverse, isBlank c = true := fun c hc =>
    List.all_eq_true.mp hv c (List.mem_reverse.mp hc)
  rw [trimEnd, List.reverse_append, List.dropWhile_append_of_pos hrev, trimEnd]

/-- **White space at the ends of a text** makes no difference once it is trimmed. -/
theorem trim_margins (hu : u.all isBlank) (hv : v.all isBlank) : trim (u ++ s ++ v) = trim s := by
  have hstart : trimStart (u ++ s ++ v) = trimStart (s ++ v) := by
    rw [List.append_assoc]
    exact List.dropWhile_append_of_pos (List.all_eq_true.mp hu)
  rw [trim, trim, hstart]
  unfold trimStart
  rw [List.dropWhile_append]
  split
  · next hs =>
    have hblank : v.dropWhile isBlank = [] :=
      List.dropWhile_eq_nil_iff.mpr (List.all_eq_true.mp hv)
    rw [hblank, List.isEmpty_iff.mp hs]
  · exact trimEnd_append hv

end

/-! ### The last character -/

/-- The text ends with a character that is not white space. -/
def EndsPlain (s : List Char) : Prop := ∃ c ∈ s.getLast?, isBlank c = false

section
variable {s t : List Char}

theorem not_endsPlain_nil : ¬ EndsPlain [] := by
  rintro ⟨c, hc, -⟩
  cases hc

theorem EndsPlain.ne_nil (h : EndsPlain s) : s ≠ [] := by
  rintro rfl
  exact not_endsPlain_nil h

theorem endsPlain_append (ht : t ≠ []) : EndsPlain (s ++ t) ↔ EndsPlain t := by
  unfold EndsPlain
  rw [List.getLast?_append_of_ne_nil _ ht]

theorem EndsPlain.append (h : EndsPlain t) (s : List Char) : EndsPlain (s ++ t) :=
  (endsPlain_append h.ne_nil).mpr h

/-- What stands behind white space ends the text. -/
theorem EndsPlain.behind {c : Char} (h : EndsPlain (s ++ c :: t)) (hc : isBlank c = true) :
    EndsPlain t := by
  rw [endsPlain_append (List.cons_ne_nil c t)] at h
  rcases t with _ | ⟨d, t⟩
  · obtain ⟨c', hlast, hblank⟩ := h
    obtain rfl : c = c' := by simpa using hlast
    cases hc.symm.trans hblank
  · exact (endsPlain_append (s := [c]) (List.cons_ne_nil d t)).mp h

theorem endsPlain_trim (h : trim s ≠ []) : EndsPlain (trim s) := by
  rcases hlast : (trim s).getLast? with _ | c
  · exact absurd (List.getLast?_eq_none_iff.mp hlast) h
  · exact ⟨c, hlast, isBlank_getLast_trim c hlast⟩

theorem EndsPlain.isBlank (h : EndsPlain s) : ∀ c ∈ s.getLast?, isBlank c = false := by
  obtain ⟨d, hd, hblank⟩ := h
  intro c hc
  rwa [Option.mem_unique hc hd]

end

end GeoRules.Text
