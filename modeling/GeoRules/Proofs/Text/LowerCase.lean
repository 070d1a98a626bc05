import GeoRules.Proofs.Text.Blank
import GeoRules.Proofs.Text.Case

/-! # The lower case of a lower case

What comes out of the lower-case table is its own lower case (`settled_of_mem_lowerChar`), so a text
in lower case stays as it is, also where a final sigma stands in it: the rule for the sigma is for
the capital one alone. Main statement: `lower_lower`. No letter becomes white space, so that a text
that ends with something else does so in lower case as well (`EndsPlain.lower`). -/

namespace GeoRules.Text

/-! ### Single letters -/

theorem pairwise_lowerRuns : lowerRuns.Pairwise fun r s => r.first ≤ s.first :=
  pairwise_of_isChain (by decide +kernel)

theorem pairwise_lowerExpansions : lowerExpansions.Pairwise fun e f => e.1 ≤ f.1 :=
  pairwise_of_isChain (by decide +kernel)

/-- Whether the image `m` of a code point of the run is its own lower case, and no white space. -/
def CaseRun.settles (r : CaseRun) (m : ℕ) : Bool :=
  (m.blt 0xD800 || (Nat.blt 0xDFFF m && m.blt 0x110000)) &&
    (caseCodes
      (within CaseRun.first CaseRun.last r.image (r.image + (r.last - r.first)) lowerRuns)
      (within Prod.fst Prod.fst r.image (r.image + (r.last - r.first)) lowerExpansions) m == [m]) &&
    blankRanges.all fun b => m.blt b.1 || b.2.blt m

/-- The runs of the lower-case table, checked: no image has another lower case. -/
-- a definition, for the reason that `checkedRuns` is one
def settledRuns : { runs : List CaseRun //
    (runs.all fun r => r.codes.all fun n => r.settles (r.image + (n - r.first))) = true } :=
  ⟨lowerRuns, by decide +kernel⟩

theorem lowerRuns_settle :
    (lowerRuns.all fun r => r.codes.all fun n => r.settles (r.image + (n - r.first))) = true :=
  settledRuns.property

theorem lowerExpansions_settle : ∀ e ∈ lowerExpansions, e.2 ≠ [] ∧ ∀ n ∈ e.2,
    lowerChar (Char.ofNat n) = [Char.ofNat n] ∧ isBlank (Char.ofNat n) = false := by
  decide +kernel

/-- Whether `c` is its own lower case. -/
def IsLower (c : Char) : Prop := lowerChar c = [c]

theorem CaseRun.isLower_of_settles {r : CaseRun} {m : ℕ} (h : r.settles m) (h1 : r.image ≤ m)
    (h2 : m ≤ r.image + (r.last - r.first)) :
    IsLower (Char.ofNat m) ∧ isBlank (Char.ofNat m) = false := by
  simp only [settles, Bool.and_eq_true, Bool.or_eq_true, Nat.blt_eq, beq_iff_eq] at h
  obtain ⟨⟨hvalid, hcodes⟩, hblank⟩ := h
  have hnat : (Char.ofNat m).toNat = m := toNat_ofNat hvalid
  rw [caseCodes_within pairwise_lowerRuns pairwise_lowerExpansions h1 h2] at hcodes
  constructor
  · unfold IsLower lowerChar
    rw [caseImage_eq, hnat, hcodes]
    rfl
  · unfold isBlank inRanges
    rw [List.any_eq_false, hnat]
    intro b hb
    have hout := List.all_eq_true.mp hblank b hb
    simp at hout ⊢
    omega

/-- **What comes out of the lower-case table** is its own lower case, and it is white space only
where white space stays as it is. -/
theorem settled_of_mem_lowerChar {c d : Char} (h : d ∈ lowerChar c) :
    IsLower d ∧ (isBlank d = true → d = c) := by
  unfold lowerChar at h
  rcases caseImage_cases lowerRuns lowerExpansions c with ⟨e, he, himage⟩ | ⟨r, hr, hit, himage⟩ |
    himage
  · rw [himage] at h
    obtain ⟨n, hn, rfl⟩ := List.mem_map.mp h
    obtain ⟨hlower, hblank⟩ := (lowerExpansions_settle e he).2 n hn
    exact ⟨hlower, fun hd => absurd hd (by simp [hblank])⟩
  · rw [himage, List.mem_singleton] at h
    subst h
    obtain ⟨h1, h2, -⟩ := CaseRun.hits_iff.mp hit
    have hall := List.all_eq_true.mp lowerRuns_settle r hr
    have hsettle := List.all_eq_true.mp hall c.toNat (CaseRun.mem_codes hit)
    obtain ⟨hlower, hblank⟩ :=
      CaseRun.isLower_of_settles hsettle (Nat.le_add_right _ _) (by omega)
    exact ⟨hlower, fun hd => absurd hd (by simp [hblank])⟩
  · rw [himage, List.mem_singleton] at h
    subst h
    exact ⟨himage, fun _ => rfl⟩

theorem IsLower.ne_sigma {c : Char} (h : IsLower c) : c ≠ 'Σ' := by
  rintro rfl
  revert h
  unfold IsLower
  decide +kernel

theorem lowerChar_ne_nil (c : Char) : lowerChar c ≠ [] := by
  unfold lowerChar
  rcases caseImage_cases lowerRuns lowerExpansions c with ⟨e, he, himage⟩ | ⟨r, -, -, himage⟩ |
    himage
  · rw [himage, Ne, List.map_eq_nil_iff]
    exact (lowerExpansions_settle e he).1
  · rw [himage]
    exact List.cons_ne_nil _ _
  · rw [himage]
    exact List.cons_ne_nil _ _

/-! ### Texts -/

/-- Neither form of the small sigma changes, and neither is white space. -/
theorem settled_lowerSigma (before after : List Char) :
    IsLower (lowerSigma before after) ∧ isBlank (lowerSigma before after) = false := by
  unfold lowerSigma IsLower
  split <;> decide +kernel

theorem isLower_of_mem_lowerAfter {c : Char} {before s : List Char}
    (h : c ∈ lowerAfter before s) : IsLower c := by
  induction s generalizing before with
  | nil => exact absurd h List.not_mem_nil
  | cons d s ih =>
    rw [lowerAfter, List.mem_append] at h
    rcases h with h | h
    · split at h
      · rw [List.mem_singleton.mp h]
        exact (settled_lowerSigma before s).1
      · exact (settled_of_mem_lowerChar h).1
    · exact ih h

theorem lowerAfter_eq_self {s : List Char} (h : ∀ c ∈ s, IsLower c) (before : List Char) :
    lowerAfter before s = s := by
  induction s generalizing before with
  | nil => rfl
  | cons c s ih =>
    obtain ⟨hc, hs⟩ := List.forall_mem_cons.mp h
    rw [lowerAfter, if_neg hc.ne_sigma, ih hs, hc]
    rfl

/-- **The lower case of a lower case** is the same text. -/
theorem lower_lower (s : List Char) : lower (lower s) = lower s :=
  lowerAfter_eq_self (fun _ => isLower_of_mem_lowerAfter) []

theorem lower_ne_nil {s : List Char} (h : s ≠ []) : lower s ≠ [] := by
  obtain ⟨c, s, rfl⟩ := List.exists_cons_of_ne_nil h
  rw [lower, lowerAfter]
  refine List.append_ne_nil_of_left_ne_nil ?_ _
  split
  · exact List.cons_ne_nil _ _
  · exact lowerChar_ne_nil c

theorem EndsPlain.lowerAfter {s : List Char} (h : EndsPlain s) (before : List Char) :
    EndsPlain (lowerAfter before s) := by
  induction s generalizing before with
  | nil => exact absurd h not_endsPlain_nil
  | cons c s ih =>
    rw [Text.lowerAfter]
    rcases s with _ | ⟨d, s⟩
    · obtain ⟨c', hlast, hc⟩ := h
      obtain rfl : c = c' := by simpa using hlast
      rw [Text.lowerAfter, List.append_nil]
      split
      · exact ⟨_, rfl, (settled_lowerSigma before []).2⟩
      · rcases himage : (lowerChar c).getLast? with _ | e
        · exact absurd (List.getLast?_eq_none_iff.mp himage) (lowerChar_ne_nil c)
        · have hmem : e ∈ lowerChar c := List.mem_of_getLast? himage
          refine ⟨e, himage, Bool.eq_false_iff.mpr fun he => ?_⟩
          rw [(settled_of_mem_lowerChar hmem).2 he, hc] at he
          cases he
    · have htail : EndsPlain (d :: s) :=
        (endsPlain_append (s := [c]) (List.cons_ne_nil d s)).mp h
      exact (ih htail (c :: before)).append _

theorem EndsPlain.lower {s : List Char} (h : EndsPlain s) : EndsPlain (lower s) := h.lowerAfter []

end GeoRules.Text
