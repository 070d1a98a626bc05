import GeoRules.Proofs.Text.LowerCase
import GeoRules.Proofs.Text.Utf8
import GeoRules.Text.Integer

/-! # Texts that differ in the case of plain letters

The capitals from A to Z are made small in a text (`small`) and in its bytes (`smallBytes`). No
reader of texts tells them apart: where text is trimmed, cut or read as a number, and where letters
of any script are put in lower case with a look at their neighbours, the small letters give what the
capitals give. A function of single characters is checked on the 26 capitals (`eq_toLower`), and
then texts are read character by character.

Bytes encode a text with small letters if they encode a text with capitals (`ofUtf8?_small`). -/

namespace GeoRules.Text

/-! ### Letters -/

/-- The capitals from A to Z. -/
def capitals : List Char := "ABCDEFGHIJKLMNOPQRSTUVWXYZ".toList

/-- The text with its capitals from A to Z made small. -/
def small (s : List Char) : List Char := s.map Char.toLower

/-- The string with its capitals from A to Z made small. -/
def smallText (s : String) : String := String.ofList (small s.toList)

/-- The bytes with those that encode the capitals from A to Z made those of the small letters. -/
def smallBytes (bytes : List UInt8) : List UInt8 := bytes.map UInt8.toAsciiLower

theorem mem_capitals {c : Char} (hmin : 65 ≤ c.toNat) (hmax : c.toNat ≤ 90) : c ∈ capitals := by
  have hall : ∀ n < 26, Char.ofNat (65 + n) ∈ capitals := by decide
  have hmem := hall (c.toNat - 65) (by omega)
  have hnat : 65 + (c.toNat - 65) = c.toNat := by omega
  rwa [hnat, Char.ofNat_toNat] at hmem

theorem toLower_cases (c : Char) :
    c ∈ capitals ∨ (c.toLower = c ∧ ¬ (65 ≤ c.toNat ∧ c.toNat ≤ 90)) := by
  by_cases hc : 65 ≤ c.toNat ∧ c.toNat ≤ 90
  · exact Or.inl (mem_capitals hc.1 hc.2)
  · refine Or.inr ⟨?_, hc⟩
    unfold Char.toLower
    exact dif_neg hc

/-- A function that gives the same for each capital and its small letter gives the same for every
character and what it becomes. -/
theorem eq_toLower {α : Type} [BEq α] [LawfulBEq α] {f : Char → α}
    (h : (capitals.all fun c => f c.toLower == f c) = true) (c : Char) : f c.toLower = f c := by
  rcases toLower_cases c with hc | ⟨hc, -⟩
  · exact eq_of_beq (List.all_eq_true.mp h c hc)
  · rw [hc]

theorem isBlank_toLower : ∀ c : Char, isBlank c.toLower = isBlank c :=
  eq_toLower (by decide +kernel)

theorem digit?_toLower : ∀ c : Char, digit? c.toLower = digit? c :=
  eq_toLower (by decide +kernel)

theorem isCased_toLower : ∀ c : Char, isCased c.toLower = isCased c :=
  eq_toLower (by decide +kernel)

/-- No letter from A to Z is a mark inside a word. -/
theorem isCaseIgnorable_eq_false {c : Char}
    (hc : (65 ≤ c.toNat ∧ c.toNat ≤ 90) ∨ (97 ≤ c.toNat ∧ c.toNat ≤ 122)) :
    isCaseIgnorable c = false := by
  -- row by row, as a look-up for each letter would go through the whole table
  have hrows : (caseIgnorableRanges.all fun r =>
      (r.2.blt 65 || Nat.blt 90 r.1) && (r.2.blt 97 || Nat.blt 122 r.1)) = true := by
    decide +kernel
  unfold isCaseIgnorable inRanges
  rw [List.any_eq_false]
  intro r hr
  have hrow := List.all_eq_true.mp hrows r hr
  simp only [Bool.and_eq_true, Bool.or_eq_true, Nat.blt_eq, decide_eq_true_eq] at hrow ⊢
  omega

theorem isCaseIgnorable_toLower (c : Char) : isCaseIgnorable c.toLower = isCaseIgnorable c := by
  rcases toLower_cases c with hc | ⟨hc, -⟩
  · have hletters : (capitals.all fun c => Nat.ble 65 c.toNat && c.toNat.ble 90 &&
        Nat.ble 97 c.toLower.toNat && c.toLower.toNat.ble 122) = true := by decide
    have hletter := List.all_eq_true.mp hletters c hc
    simp only [Bool.and_eq_true, Nat.ble_eq] at hletter
    obtain ⟨⟨⟨hmin, hmax⟩, hmin'⟩, hmax'⟩ := hletter
    rw [isCaseIgnorable_eq_false (Or.inl ⟨hmin, hmax⟩),
      isCaseIgnorable_eq_false (Or.inr ⟨hmin', hmax'⟩)]
  · rw [hc]

theorem lowerChar_toLower (c : Char) : lowerChar c.toLower = lowerChar c := by
  rcases toLower_cases c with hc | ⟨hc, -⟩
  · have hcapitals : (capitals.all fun c => lowerChar c == [c.toLower]) = true := by decide +kernel
    have himage := eq_of_beq (List.all_eq_true.mp hcapitals c hc)
    have hlower : IsLower c.toLower :=
      (settled_of_mem_lowerChar (himage ▸ List.mem_singleton_self c.toLower)).1
    rw [himage]
    exact hlower
  · rw [hc]

/-- Whether a character is none of the capitals and none of their small letters. -/
def isMark (d : Char) : Bool := capitals.all fun c => c != d && c.toLower != d

theorem toLower_eq_iff {d : Char} (hd : isMark d) (c : Char) : c.toLower = d ↔ c = d := by
  rcases toLower_cases c with hc | ⟨hc, -⟩
  · have hmark := List.all_eq_true.mp hd c hc
    simp only [Bool.and_eq_true, bne_iff_ne] at hmark
    exact iff_of_false hmark.2 hmark.1
  · rw [hc]

/-! ### Texts -/

section
variable {s before : List Char}

theorem small_cons (c : Char) (s : List Char) : small (c :: s) = c.toLower :: small s := rfl

theorem smallText_ofList (s : List Char) :
    smallText (String.ofList s) = String.ofList (small s) := by
  rw [smallText, String.toList_ofList]

theorem small_eq_nil_iff : small s = [] ↔ s = [] := List.map_eq_nil_iff

theorem dropWhile_small {p : Char → Bool} (hp : ∀ c : Char, p c.toLower = p c) (s : List Char) :
    (small s).dropWhile p = small (s.dropWhile p) := by
  have hcomp : p ∘ Char.toLower = p := funext hp
  unfold small
  rw [List.dropWhile_map, hcomp]

theorem takeWhile_small {p : Char → Bool} (hp : ∀ c : Char, p c.toLower = p c) (s : List Char) :
    (small s).takeWhile p = small (s.takeWhile p) := by
  have hcomp : p ∘ Char.toLower = p := funext hp
  unfold small
  rw [List.takeWhile_map, hcomp]

theorem ne_toLower {d : Char} (hd : isMark d) (c : Char) :
    decide (c.toLower ≠ d) = decide (c ≠ d) := by
  simp only [ne_eq, toLower_eq_iff hd]

theorem trim_small (s : List Char) : trim (small s) = small (trim s) := by
  have hreverse : ∀ t, (small t).reverse = small t.reverse := fun t => List.map_reverse.symm
  unfold trim trimEnd trimStart
  rw [dropWhile_small isBlank_toLower, hreverse, dropWhile_small isBlank_toLower, hreverse]

theorem splitOn_map {α β : Type} [BEq α] [LawfulBEq α] [BEq β] [LawfulBEq β] {f : α → β} {a : α}
    {b : β} (h : ∀ x, f x = b ↔ x = a) (xs : List α) :
    (xs.map f).splitOn b = (xs.splitOn a).map (List.map f) := by
  induction xs with
  | nil => rfl
  | cons x xs ih =>
    rw [List.map_cons, List.splitOn_cons_eq_if_modifyHead, List.splitOn_cons_eq_if_modifyHead, ih]
    by_cases hx : x = a
    · rw [if_pos (beq_iff_eq.mpr ((h x).mpr hx)), if_pos (beq_iff_eq.mpr hx)]
      rfl
    · have hx' : ¬ f x = b := fun heq => hx ((h x).mp heq)
      rw [if_neg (mt beq_iff_eq.mp hx'), if_neg (mt beq_iff_eq.mp hx)]
      rcases xs.splitOn a with _ | ⟨part, parts⟩
      · rfl
      · rfl

theorem splitOn_small {d : Char} (hd : isMark d) (s : List Char) :
    (small s).splitOn d = (s.splitOn d).map small :=
  splitOn_map (toLower_eq_iff hd) s

/-! ### Lower case -/

theorem startsCased_small (s : List Char) : startsCased (small s) = startsCased s := by
  unfold startsCased
  rw [dropWhile_small isCaseIgnorable_toLower]
  rcases s.dropWhile isCaseIgnorable with _ | ⟨c, rest⟩
  · rfl
  · exact isCased_toLower c

theorem lowerAfter_small (before s : List Char) :
    lowerAfter (small before) (small s) = lowerAfter before s := by
  induction s generalizing before with
  | nil => rfl
  | cons c s ih =>
    have hsigma : c.toLower = 'Σ' ↔ c = 'Σ' := toLower_eq_iff (by decide) c
    have hnext : lowerAfter (c.toLower :: small before) (small s) = lowerAfter (c :: before) s :=
      ih (c :: before)
    rw [small_cons, lowerAfter, lowerAfter, hnext, lowerChar_toLower]
    simp only [hsigma, lowerSigma, startsCased_small]

/-- **The lower case of a text** is that of the text with small letters. -/
theorem lower_small (s : List Char) : lower (small s) = lower s := lowerAfter_small [] s

/-! ### Numbers -/

theorem digitsAfter_small (limit : ℕ) (beyond : IntegerError) (n : ℕ) (s : List Char) :
    digitsAfter limit beyond n (small s) = digitsAfter limit beyond n s := by
  induction s generalizing n with
  | nil => rfl
  | cons c s ih =>
    rw [small_cons, digitsAfter, digitsAfter, digit?_toLower]
    rcases digit? c with _ | d
    · rfl
    · simp only [ih]

theorem integer_small (s : List Char) : integer (small s) = integer s := by
  rcases s with _ | ⟨c, s⟩
  · rfl
  · have hplus : c.toLower = '+' ↔ c = '+' := toLower_eq_iff (by decide) c
    have hminus : c.toLower = '-' ↔ c = '-' := toLower_eq_iff (by decide) c
    have hwhole : ∀ limit beyond, digitsAfter limit beyond 0 (c.toLower :: small s) =
        digitsAfter limit beyond 0 (c :: s) := fun limit beyond =>
      digitsAfter_small limit beyond 0 (c :: s)
    rw [small_cons, integer, integer]
    simp only [hplus, hminus, small_eq_nil_iff, digitsAfter_small, hwhole]

end

/-! ### Bytes -/

theorem toNat_toAsciiLower (b : UInt8) : b.toAsciiLower.toNat =
    if 65 ≤ b.toNat ∧ b.toNat ≤ 90 then b.toNat + 32 else b.toNat := by
  have hall : ∀ n < 256, (UInt8.ofNat n).toAsciiLower.toNat =
      if 65 ≤ n ∧ n ≤ 90 then n + 32 else n := by decide +kernel
  have h := hall b.toNat b.toNat_lt
  rwa [UInt8.ofNat_toNat] at h

theorem toAsciiLower_eq_iff {b d : UInt8} (hd : d.toNat < 65) : b.toAsciiLower = d ↔ b = d := by
  rw [← UInt8.toNat_inj, ← UInt8.toNat_inj, toNat_toAsciiLower]
  split
  · omega
  · exact Iff.rfl

/-- A byte below 128 in the encoding of a character is the character. -/
theorem eq_of_mem_utf8EncodeChar {b : UInt8} {c : Char} (hmem : b ∈ String.utf8EncodeChar c)
    (hb : b.toNat < 128) : c.toNat = b.toNat := by
  have hnat : (Char.ofNat b.toNat).toNat = b.toNat := toNat_ofNat (Or.inl (by omega))
  have hc : c = Char.ofNat b.toNat := by
    refine (mem_utf8EncodeChar (by omega)).mp ?_
    rwa [hnat, UInt8.ofNat_toNat]
  rw [hc, hnat]

theorem utf8EncodeChar_toLower (c : Char) :
    String.utf8EncodeChar c.toLower = smallBytes (String.utf8EncodeChar c) := by
  rcases toLower_cases c with hc | ⟨hself, hc⟩
  · have hall : (capitals.all fun c => String.utf8EncodeChar c.toLower ==
        smallBytes (String.utf8EncodeChar c)) = true := by decide +kernel
    exact eq_of_beq (List.all_eq_true.mp hall c hc)
  · have hbytes : ∀ b ∈ String.utf8EncodeChar c, b.toAsciiLower = b := by
      intro b hb
      rw [← UInt8.toNat_inj, toNat_toAsciiLower, if_neg]
      intro hrange
      have hnat := eq_of_mem_utf8EncodeChar hb (by omega)
      omega
    rw [hself, smallBytes, List.map_congr_left hbytes, List.map_id']

theorem utf8_small (s : String) : utf8 (smallText s) = smallBytes (utf8 s) := by
  unfold smallText small
  rw [utf8_eq_flatMap, utf8_eq_flatMap, String.toList_ofList, List.flatMap_map]
  unfold smallBytes
  rw [List.map_flatMap]
  exact List.flatMap_congr fun c _ => utf8EncodeChar_toLower c

/-- Bytes that make up a character with small letters make up a character. -/
theorem exists_utf8EncodeChar {c : Char} {bytes : List UInt8}
    (h : smallBytes bytes = String.utf8EncodeChar c) :
    ∃ d, bytes = String.utf8EncodeChar d := by
  by_cases hc : c.toNat < 128
  · rw [utf8EncodeChar_of_lt hc] at h
    obtain ⟨b, rfl, hb⟩ := List.map_eq_singleton_iff.mp h
    have hlt : b.toNat < 128 := by
      have hnat := congrArg UInt8.toNat hb
      rw [toNat_toAsciiLower, UInt8.toNat_ofNat'] at hnat
      split at hnat
      · omega
      · omega
    have hnat : (Char.ofNat b.toNat).toNat = b.toNat := toNat_ofNat (Or.inl (by omega))
    refine ⟨Char.ofNat b.toNat, ?_⟩
    rw [utf8EncodeChar_of_lt (by omega), hnat, UInt8.ofNat_toNat]
  · refine ⟨c, ?_⟩
    have hself : ∀ b ∈ bytes, b.toAsciiLower = b := by
      intro b hb
      have hmem : b.toAsciiLower ∈ String.utf8EncodeChar c := h ▸ List.mem_map_of_mem hb
      rw [← UInt8.toNat_inj, toNat_toAsciiLower, if_neg]
      intro hrange
      have hsmall := toNat_toAsciiLower b
      rw [if_pos hrange] at hsmall
      have hnat := eq_of_mem_utf8EncodeChar hmem (by omega)
      omega
    rw [← h, smallBytes, List.map_congr_left hself, List.map_id']

theorem exists_utf8_of_smallBytes {bytes : List UInt8} {t : List Char}
    (h : smallBytes bytes = t.flatMap String.utf8EncodeChar) :
    ∃ s : List Char, bytes = s.flatMap String.utf8EncodeChar := by
  induction t generalizing bytes with
  | nil => exact ⟨[], List.map_eq_nil_iff.mp h⟩
  | cons c t ih =>
    rw [List.flatMap_cons] at h
    obtain ⟨first, rest, rfl, hfirst, hrest⟩ := List.map_eq_append_iff.mp h
    obtain ⟨d, rfl⟩ := exists_utf8EncodeChar hfirst
    obtain ⟨s, rfl⟩ := ih hrest
    exact ⟨d :: s, rfl⟩

/-- **Bytes with small letters** encode the text with small letters, or no text if the bytes encode
none. -/
theorem ofUtf8?_small (bytes : List UInt8) :
    ofUtf8? (smallBytes bytes) = (ofUtf8? bytes).map smallText := by
  rcases h : ofUtf8? bytes with _ | s
  · refine Option.eq_none_iff_forall_ne_some.mpr fun t ht => ?_
    have hsmall : smallBytes bytes = t.toList.flatMap String.utf8EncodeChar := by
      rw [ofUtf8?_eq_some_iff.mp ht, utf8_eq_flatMap]
    obtain ⟨s, hs⟩ := exists_utf8_of_smallBytes hsmall
    have hread : ofUtf8? bytes = some (String.ofList s) := by
      rw [ofUtf8?_eq_some_iff, utf8_eq_flatMap, String.toList_ofList, hs]
    cases h.symm.trans hread
  · rw [ofUtf8?_eq_some_iff.mp h, ← utf8_small, ofUtf8?_utf8, Option.map_some]

end GeoRules.Text
