import GeoRules.Text.Case
import Mathlib.Data.List.Chain
import Mathlib.Data.Nat.Notation

/-! # Upper case behind lower case

The lower case of a text has the upper case of the text itself, unless the text holds one of six
capitals (`lostCapitals`): these are their own upper case, but what they become in lower case
belongs to another capital. Main statement: `upper_lower_iff`. Digits and the marks before the
letters are in the lower or upper case of a text only if they are in the text (`mem_of_mem_lower`,
`mem_of_mem_upper`).

The tables are checked by evaluation (`lowerRuns_agree`). A look-up tries all rows of a table, so
the check of a run first cuts the tables down to the rows that can hit its code points and their
images (`upperCodes_eq`); that the rows are sorted makes the cut lose nothing (`find?_within`). -/

namespace GeoRules.Text

/-! ### Rows that a code point can hit -/

/-- The rows from the first one that reaches up to `lo` to the last one that starts below `hi`. -/
def within {α : Type} (lower upper : α → ℕ) (lo hi : ℕ) (rows : List α) : List α :=
  (rows.dropWhile fun a => (upper a + 1).ble lo).takeWhile fun a => (lower a).ble hi

theorem find?_dropWhile {α : Type} {p q : α → Bool} (h : ∀ a, p a → ¬ q a) (as : List α) :
    (as.dropWhile q).find? p = as.find? p := by
  induction as with
  | nil => rfl
  | cons a as ih =>
    by_cases hq : q a
    · have hp : ¬ p a := fun hp => h a hp hq
      rw [List.dropWhile_cons_of_pos hq, ih, List.find?_cons_of_neg hp]
    · rw [List.dropWhile_cons_of_neg hq]

theorem find?_takeWhile {α : Type} {p q : α → Bool} (h : ∀ a, p a → q a) {as : List α}
    (hs : as.Pairwise fun a b => q b → q a) : (as.takeWhile q).find? p = as.find? p := by
  induction as with
  | nil => rfl
  | cons a as ih =>
    obtain ⟨ha, hs⟩ := List.pairwise_cons.mp hs
    by_cases hq : q a
    · rw [List.takeWhile_cons_of_pos hq, List.find?_cons, List.find?_cons, ih hs]
    · rw [List.takeWhile_cons_of_neg hq, eq_comm, List.find?_nil, List.find?_eq_none]
      intro b hb hp
      rcases List.mem_cons.mp hb with rfl | hb
      · exact hq (h b hp)
      · exact hq (ha b hb (h b hp))

theorem find?_within {α : Type} {lower upper : α → ℕ} {lo hi : ℕ} {p : α → Bool}
    (hp : ∀ a, p a → lo ≤ upper a ∧ lower a ≤ hi) {rows : List α}
    (hs : rows.Pairwise fun a b => lower a ≤ lower b) :
    (within lower upper lo hi rows).find? p = rows.find? p := by
  unfold within
  rw [find?_takeWhile, find?_dropWhile]
  · intro a ha hlt
    have := (hp a ha).1
    rw [Nat.ble_eq] at hlt
    omega
  · intro a ha
    exact Nat.ble_eq.mpr (hp a ha).2
  · refine (hs.sublist (List.dropWhile_sublist _)).imp fun hab hb => ?_
    rw [Nat.ble_eq] at hb ⊢
    omega

theorem pairwise_of_isChain {α : Type} {lower : α → ℕ} {rows : List α}
    (h : rows.IsChain fun a b => lower a ≤ lower b) :
    rows.Pairwise fun a b => lower a ≤ lower b := by
  have : Trans (fun a b : α => lower a ≤ lower b) (fun a b => lower a ≤ lower b)
      (fun a b => lower a ≤ lower b) := ⟨Nat.le_trans⟩
  exact List.isChain_iff_pairwise.mp h

theorem pairwise_upperRuns : upperRuns.Pairwise fun r s => r.first ≤ s.first :=
  pairwise_of_isChain (by decide +kernel)

theorem pairwise_upperExpansions : upperExpansions.Pairwise fun e f => e.1 ≤ f.1 :=
  pairwise_of_isChain (by decide +kernel)

/-! ### Look-ups by code point -/

/-- Whether `n` is a code point of the run. -/
def CaseRun.hits (r : CaseRun) (n : ℕ) : Bool :=
  r.first.ble n && n.ble r.last && ((n - r.first) % r.step).beq 0

/-- The code points of the run. -/
def CaseRun.codes (r : CaseRun) : List ℕ :=
  (List.range ((r.last - r.first) / r.step + 1)).map fun k => r.first + k * r.step

/-- The code points that the other case of `n` has by the tables. -/
def caseCodes (runs : List CaseRun) (expansions : List (ℕ × List ℕ)) (n : ℕ) : List ℕ :=
  match expansions.find? (·.1.beq n) with
  | some e => e.2
  | none => match runs.find? (·.hits n) with
    | some r => [r.image + (n - r.first)]
    | none => [n]

theorem CaseRun.hits_iff {r : CaseRun} {n : ℕ} :
    r.hits n = true ↔ r.first ≤ n ∧ n ≤ r.last ∧ (n - r.first) % r.step = 0 := by
  simp [hits, and_assoc]

theorem CaseRun.mem_codes {r : CaseRun} {n : ℕ} (h : r.hits n) : n ∈ r.codes := by
  obtain ⟨h1, h2, h3⟩ := hits_iff.mp h
  refine List.mem_map.mpr ⟨(n - r.first) / r.step, ?_, ?_⟩
  · have := Nat.div_le_div_right (c := r.step) (Nat.sub_le_sub_right h2 r.first)
    exact List.mem_range.mpr (by omega)
  · have := Nat.div_mul_cancel (Nat.dvd_of_mod_eq_zero h3)
    omega

theorem CaseRun.image?_eq (r : CaseRun) (n : ℕ) :
    r.image? n = if r.hits n then some (r.image + (n - r.first)) else none := by
  unfold image?
  simp only [hits_iff]

theorem lookup_eq_find? (expansions : List (ℕ × List ℕ)) (n : ℕ) :
    expansions.lookup n = (expansions.find? (·.1.beq n)).map Prod.snd := by
  induction expansions with
  | nil => rfl
  | cons e es ih =>
    rw [List.lookup_cons, List.find?_cons, ih]
    by_cases h : n = e.1
    · simp [h]
    · have h' : e.1.beq n = false := by
        rw [← Bool.not_eq_true, Nat.beq_eq]
        exact Ne.symm h
      simp [h', beq_false_of_ne h]

theorem findSome?_image? (runs : List CaseRun) (n : ℕ) :
    runs.findSome? (·.image? n) =
      (runs.find? (·.hits n)).map fun r => r.image + (n - r.first) := by
  induction runs with
  | nil => rfl
  | cons r rs ih =>
    rw [List.findSome?_cons, List.find?_cons, CaseRun.image?_eq, ih]
    cases r.hits n <;> rfl

theorem caseImage_eq (runs : List CaseRun) (expansions : List (ℕ × List ℕ)) (c : Char) :
    caseImage runs expansions c = (caseCodes runs expansions c.toNat).map Char.ofNat := by
  unfold caseImage caseCodes
  rw [lookup_eq_find?, findSome?_image?]
  cases he : expansions.find? (fun e => e.1.beq c.toNat) with
  | some e => rfl
  | none =>
    cases hr : runs.find? (fun r => r.hits c.toNat) with
    | some r => rfl
    | none => simp

/-- The rows that cannot hit a code point between `lo` and `hi` may be left out. -/
theorem caseCodes_within {runs : List CaseRun} {expansions : List (ℕ × List ℕ)}
    (hruns : runs.Pairwise fun r s => r.first ≤ s.first)
    (hexpansions : expansions.Pairwise fun e f => e.1 ≤ f.1) {lo hi n : ℕ} (h1 : lo ≤ n)
    (h2 : n ≤ hi) :
    caseCodes (within CaseRun.first CaseRun.last lo hi runs)
      (within Prod.fst Prod.fst lo hi expansions) n = caseCodes runs expansions n := by
  unfold caseCodes
  rw [find?_within ?_ hruns, find?_within ?_ hexpansions]
  · intro e he
    rw [Nat.beq_eq] at he
    omega
  · intro r hr
    obtain ⟨h3, h4, -⟩ := CaseRun.hits_iff.mp hr
    omega

/-- The code points of the upper case of a code point between `lo` and `hi`. -/
def upperCodes (lo hi n : ℕ) : List ℕ :=
  caseCodes (within CaseRun.first CaseRun.last lo hi upperRuns)
    (within Prod.fst Prod.fst lo hi upperExpansions) n

theorem upperCodes_eq {lo hi n : ℕ} (h1 : lo ≤ n) (h2 : n ≤ hi) :
    upperCodes lo hi n = caseCodes upperRuns upperExpansions n :=
  caseCodes_within pairwise_upperRuns pairwise_upperExpansions h1 h2

theorem hits_of_find? {runs : List CaseRun} {n : ℕ} {r : CaseRun}
    (h : runs.find? (·.hits n) = some r) : r ∈ runs ∧ r.hits n :=
  ⟨List.mem_of_find?_eq_some h, by simpa using List.find?_some h⟩

theorem toNat_ofNat {n : ℕ} (h : n.isValidChar) : (Char.ofNat n).toNat = n := by
  rw [Char.ofNat, dif_pos h]
  rfl

theorem eq_toNat_of_ofNat {n : ℕ} {c : Char} (hc : c ≠ '\x00') (h : Char.ofNat n = c) :
    n = c.toNat := by
  by_cases hn : n.isValidChar
  · rw [← h, toNat_ofNat hn]
  · rw [Char.ofNat, dif_neg hn] at h
    exact absurd h.symm hc

/-! ### Single letters -/

/-- The capitals whose lower case is that of another capital or of several characters. -/
def lostCapitals : List Char := ['\u0130', '\u03f4', '\u1e9e', '\u2126', '\u212a', '\u212b']

/-- Whether `n` is the code point of a lost capital. -/
def isLost (n : ℕ) : Bool := lostCapitals.any (·.toNat.beq n)

theorem isLost_iff {c : Char} : isLost c.toNat ↔ c ∈ lostCapitals := by
  simp only [isLost, List.any_eq_true, Nat.beq_eq, Char.toNat_inj, exists_eq_right]

/-- Whether the image `m` of the code point `n` of a run has the upper case that `n` has. Nothing is
asked of the lost capitals. -/
def CaseRun.agrees (r : CaseRun) (n m : ℕ) : Bool :=
  isLost n || ((m.blt 0xD800 || (Nat.blt 0xDFFF m && m.blt 0x110000)) &&
    upperCodes r.first r.last n == upperCodes r.image (r.image + (r.last - r.first)) m)

/-- The runs of the lower-case table, checked: the images have the upper case that the letters
have. -/
-- a definition, as the proofs after it are not begun before this long check is done
def checkedRuns : { runs : List CaseRun //
    (runs.all fun r => r.codes.all fun n => r.agrees n (r.image + (n - r.first))) = true } :=
  ⟨lowerRuns, by decide +kernel⟩

theorem lowerRuns_agree :
    (lowerRuns.all fun r => r.codes.all fun n => r.agrees n (r.image + (n - r.first))) = true :=
  checkedRuns.property

/-- No run leads to a lost capital. -/
theorem runs_avoid :
    ((lowerRuns ++ upperRuns).all fun r => lostCapitals.all fun c =>
      (r.image + (r.last - r.first)).blt c.toNat || c.toNat.blt r.image) = true := by
  decide +kernel

/-- No expansion holds a lost capital. -/
theorem expansions_avoid :
    ((lowerExpansions ++ upperExpansions).all fun e => e.2.all fun n => !isLost n) = true := by
  decide +kernel

theorem isValidChar_of_agrees {r : CaseRun} {n m : ℕ} (h : r.agrees n m) (hn : ¬ isLost n) :
    m.isValidChar ∧ upperCodes r.first r.last n =
      upperCodes r.image (r.image + (r.last - r.first)) m := by
  simp only [CaseRun.agrees, hn, Bool.false_or, Bool.and_eq_true, Bool.or_eq_true, Nat.blt_eq,
    beq_iff_eq] at h
  exact h

theorem isLost_of_mem_lowerExpansions : ∀ e ∈ lowerExpansions, isLost e.1 := by decide +kernel

/-- **The upper case of the lower case of a letter** is that of the letter, but for the lost
capitals. -/
theorem upper_lowerChar {c : Char} (hc : c ∉ lostCapitals) : upper (lowerChar c) = upperChar c := by
  have hlost : ¬ isLost c.toNat := fun h => hc (isLost_iff.mp h)
  unfold lowerChar
  rw [caseImage_eq]
  unfold caseCodes
  cases he : lowerExpansions.find? (fun e => e.1.beq c.toNat) with
  | some e =>
    have hkey : e.1 = c.toNat := by simpa using List.find?_some he
    exact absurd (hkey ▸ isLost_of_mem_lowerExpansions e (List.mem_of_find?_eq_some he)) hlost
  | none =>
    cases hr : lowerRuns.find? (fun r => r.hits c.toNat) with
    | none => simp [upper]
    | some r =>
      obtain ⟨hmem, hit⟩ := hits_of_find? hr
      obtain ⟨h1, h2, -⟩ := CaseRun.hits_iff.mp hit
      have hall := List.all_eq_true.mp lowerRuns_agree r hmem
      have hagree := List.all_eq_true.mp hall c.toNat (CaseRun.mem_codes hit)
      obtain ⟨hvalid, hcodes⟩ := isValidChar_of_agrees hagree hlost
      rw [upperCodes_eq h1 h2, upperCodes_eq (Nat.le_add_right _ _) (by omega)] at hcodes
      simp only [upper, List.map_cons, List.map_nil, List.flatMap_cons, List.flatMap_nil,
        List.append_nil, upperChar, caseImage_eq, toNat_ofNat hvalid, hcodes]

/-- What a table sends `d` to: an expansion, the image of a run, or `d` itself. -/
theorem caseImage_cases (runs : List CaseRun) (expansions : List (ℕ × List ℕ)) (d : Char) :
    (∃ e ∈ expansions, caseImage runs expansions d = e.2.map Char.ofNat) ∨
      (∃ r ∈ runs, r.hits d.toNat ∧
        caseImage runs expansions d = [Char.ofNat (r.image + (d.toNat - r.first))]) ∨
      caseImage runs expansions d = [d] := by
  rw [caseImage_eq]
  unfold caseCodes
  cases he : expansions.find? (fun e => e.1.beq d.toNat) with
  | some e => exact Or.inl ⟨e, List.mem_of_find?_eq_some he, rfl⟩
  | none =>
    cases hr : runs.find? (fun r => r.hits d.toNat) with
    | some r =>
      obtain ⟨hmem, hit⟩ := hits_of_find? hr
      exact Or.inr (Or.inl ⟨r, hmem, hit, rfl⟩)
    | none => exact Or.inr (Or.inr (by simp))

/-- A character that comes out of a table is one of an expansion or one of the images of a run, or
it stays as it is. -/
theorem mem_caseImage {runs : List CaseRun} {expansions : List (ℕ × List ℕ)} {c d : Char}
    (h : c ∈ caseImage runs expansions d) :
    (∃ e ∈ expansions, ∃ n ∈ e.2, Char.ofNat n = c) ∨
      (∃ r ∈ runs, ∃ n, r.image ≤ n ∧ n ≤ r.image + (r.last - r.first) ∧ Char.ofNat n = c) ∨
      c = d ∧ caseImage runs expansions d = [d] := by
  rcases caseImage_cases runs expansions d with ⟨e, he, himage⟩ | ⟨r, hr, hit, himage⟩ | himage
  · rw [himage] at h
    obtain ⟨n, hn, hc⟩ := List.mem_map.mp h
    exact Or.inl ⟨e, he, n, hn, hc⟩
  · obtain ⟨h1, h2, -⟩ := CaseRun.hits_iff.mp hit
    rw [himage, List.mem_singleton] at h
    exact Or.inr (Or.inl ⟨r, hr, _, Nat.le_add_right _ _, by omega, h.symm⟩)
  · rw [himage, List.mem_singleton] at h
    exact Or.inr (Or.inr ⟨h, himage⟩)

/-- A lost capital comes out of the tables only where a letter stays as it is. -/
theorem eq_of_mem_caseImage {runs : List CaseRun} {expansions : List (ℕ × List ℕ)} {c d : Char}
    (hc : c ∈ lostCapitals) (hruns : ∀ r ∈ runs, r ∈ lowerRuns ++ upperRuns)
    (hexp : ∀ e ∈ expansions, e ∈ lowerExpansions ++ upperExpansions)
    (h : c ∈ caseImage runs expansions d) : c = d ∧ caseImage runs expansions d = [d] := by
  have hzero : ∀ c ∈ lostCapitals, c ≠ '\x00' := by simp [lostCapitals]
  have hnat : ∀ n, Char.ofNat n = c → n = c.toNat := fun n => eq_toNat_of_ofNat (hzero c hc)
  rcases mem_caseImage h with ⟨e, he, n, hn, hcn⟩ | ⟨r, hr, n, h1, h2, hcn⟩ | heq
  · have hrow := List.all_eq_true.mp expansions_avoid e (hexp e he)
    have hnot := List.all_eq_true.mp hrow n hn
    rw [hnat n hcn, isLost_iff.mpr hc] at hnot
    cases hnot
  · have hrow := List.all_eq_true.mp runs_avoid r (hruns r hr)
    have hout := List.all_eq_true.mp hrow c hc
    rw [Bool.or_eq_true, Nat.blt_eq, Nat.blt_eq, ← hnat n hcn] at hout
    omega
  · exact heq

theorem eq_of_mem_upperChar {c d : Char} (hc : c ∈ lostCapitals) (h : c ∈ upperChar d) : c = d :=
  (eq_of_mem_caseImage hc (fun _ => List.mem_append_right _) (fun _ => List.mem_append_right _)
    h).1

theorem not_mem_lowerChar {c d : Char} (hc : c ∈ lostCapitals) : c ∉ lowerChar d := by
  intro h
  obtain ⟨rfl, hself⟩ := eq_of_mem_caseImage hc (fun _ => List.mem_append_left _)
    (fun _ => List.mem_append_left _) h
  have hne : lostCapitals.all (fun c => lowerChar c != [c]) := by decide +kernel
  exact bne_iff_ne.mp (List.all_eq_true.mp hne c hc) hself

theorem mem_upperChar_self {c : Char} (hc : c ∈ lostCapitals) : c ∈ upperChar c := by
  have hself : lostCapitals.all (fun c => (upperChar c).contains c) := by decide +kernel
  exact List.contains_iff_mem.mp (List.all_eq_true.mp hself c hc)

/-! ### Texts -/

theorem upper_append (s t : List Char) : upper (s ++ t) = upper s ++ upper t :=
  List.flatMap_append

theorem upper_cons (c : Char) (s : List Char) : upper (c :: s) = upperChar c ++ upper s := rfl

/-- Both forms of the small sigma have the capital one as upper case. -/
theorem upper_lowerSigma (before after : List Char) :
    upper [lowerSigma before after] = upperChar 'Σ' := by
  unfold lowerSigma
  split <;> decide +kernel

theorem upper_lowerAfter {s : List Char} (hs : ∀ c ∈ s, c ∉ lostCapitals) (before : List Char) :
    upper (lowerAfter before s) = upper s := by
  induction s generalizing before with
  | nil => rfl
  | cons c s ih =>
    obtain ⟨hc, hs⟩ := List.forall_mem_cons.mp hs
    rw [lowerAfter, upper_append, ih hs, upper_cons]
    split
    · next hsigma => rw [upper_lowerSigma, hsigma]
    · rw [upper_lowerChar hc]

theorem not_mem_lowerAfter {c : Char} (hc : c ∈ lostCapitals) (before s : List Char) :
    c ∉ lowerAfter before s := by
  induction s generalizing before with
  | nil => exact List.not_mem_nil
  | cons d s ih =>
    rw [lowerAfter, List.mem_append, not_or]
    refine ⟨?_, ih _⟩
    split
    · rw [List.mem_singleton]
      rintro rfl
      unfold lowerSigma at hc
      split at hc <;> revert hc <;> decide
    · exact not_mem_lowerChar hc

/-- **A text and its lower case have the same upper case** exactly if the text holds none of the
lost capitals. -/
theorem upper_lower_iff (s : List Char) :
    upper (lower s) = upper s ↔ ∀ c ∈ s, c ∉ lostCapitals := by
  constructor
  · intro h c hc hlost
    have hmem : c ∈ upper (lower s) := by
      rw [h]
      exact List.mem_flatMap.mpr ⟨c, hc, mem_upperChar_self hlost⟩
    obtain ⟨d, hd, hcd⟩ := List.mem_flatMap.mp hmem
    obtain rfl := eq_of_mem_upperChar hlost hcd
    exact not_mem_lowerAfter hlost [] s hd
  · intro h
    exact upper_lowerAfter h []

/-! ### Characters before the letters -/

/-- No row of the tables leads to a character before the letters. -/
theorem rows_above : ((lowerRuns ++ upperRuns).all fun r => Nat.ble 0x41 r.image) ∧
    (lowerExpansions ++ upperExpansions).all fun e => e.2.all fun n => Nat.ble 0x41 n := by
  decide +kernel

/-- A character before the letters comes out of the tables only where it stays as it is. -/
theorem eq_of_mem_caseImage_of_lt {runs : List CaseRun} {expansions : List (ℕ × List ℕ)}
    {c d : Char} (hruns : ∀ r ∈ runs, r ∈ lowerRuns ++ upperRuns)
    (hexp : ∀ e ∈ expansions, e ∈ lowerExpansions ++ upperExpansions) (hzero : c ≠ '\x00')
    (hc : c.toNat < 0x41) (h : c ∈ caseImage runs expansions d) : c = d := by
  rcases mem_caseImage h with ⟨e, he, n, hn, hcn⟩ | ⟨r, hr, n, h1, -, hcn⟩ | ⟨heq, -⟩
  · have hrow := List.all_eq_true.mp rows_above.2 e (hexp e he)
    have hle := List.all_eq_true.mp hrow n hn
    rw [Nat.ble_eq, eq_toNat_of_ofNat hzero hcn] at hle
    omega
  · have hle := List.all_eq_true.mp rows_above.1 r (hruns r hr)
    rw [Nat.ble_eq] at hle
    rw [eq_toNat_of_ofNat hzero hcn] at h1
    omega
  · exact heq

theorem eq_of_mem_lowerChar {c d : Char} (hzero : c ≠ '\x00') (hc : c.toNat < 0x41)
    (h : c ∈ lowerChar d) : c = d :=
  eq_of_mem_caseImage_of_lt (fun _ => List.mem_append_left _) (fun _ => List.mem_append_left _)
    hzero hc h

theorem mem_of_mem_lowerAfter {c : Char} (hzero : c ≠ '\x00') (hc : c.toNat < 0x41)
    {before s : List Char} (h : c ∈ lowerAfter before s) : c ∈ s := by
  induction s generalizing before with
  | nil => exact absurd h List.not_mem_nil
  | cons d s ih =>
    rw [lowerAfter, List.mem_append] at h
    rcases h with h | h
    · split at h
      · rw [List.mem_singleton] at h
        have hsigma : ¬ (lowerSigma before s).toNat < 0x41 := by
          unfold lowerSigma
          split <;> decide
        exact absurd (h ▸ hc) hsigma
      · rw [eq_of_mem_lowerChar hzero hc h]
        exact List.mem_cons_self
    · exact List.mem_cons_of_mem _ (ih h)

theorem mem_of_mem_lower {c : Char} (hzero : c ≠ '\x00') (hc : c.toNat < 0x41) {s : List Char}
    (h : c ∈ lower s) : c ∈ s := mem_of_mem_lowerAfter hzero hc h

theorem mem_of_mem_upper {c : Char} (hzero : c ≠ '\x00') (hc : c.toNat < 0x41) {s : List Char}
    (h : c ∈ upper s) : c ∈ s := by
  obtain ⟨d, hd, hcd⟩ := List.mem_flatMap.mp h
  have heq : c = d := eq_of_mem_caseImage_of_lt (fun _ => List.mem_append_right _)
    (fun _ => List.mem_append_right _) hzero hc hcd
  rwa [heq]

end GeoRules.Text
