import GeoRules.Proofs.Address.Printer
import GeoRules.Proofs.Text.Cut

/-! # Printed ranges are read back

The ranges that are read back from their text are the canonical ones (`Cidr.Canonical`): four bytes,
or sixteen that do not stand for four, and a mask no longer than they are. Sixteen bytes that stand
for four are printed with them at the end and read as the four alone.

A printed address is made of digits, colons and dots (`Address.isAddressChar_of_text?`), so that no
bracket, no blank and no slash in it misleads the reader. Main statement: `Cidr.ofText_display`. -/

namespace GeoRules

namespace Address

/-! ### Sixteen bytes that stand for four -/

/-- What the four bytes stand behind: the twelve bytes `::ffff`. -/
def mappedPrefix : List UInt8 := List.replicate 10 0 ++ [0xFF, 0xFF]

variable {bytes four : List UInt8} {s : List Char}

theorem mapped?_eq_some_iff :
    mapped? bytes = some four ↔ bytes = mappedPrefix ++ four ∧ four.length = 4 := by
  constructor
  · intro h
    unfold mapped? at h
    split at h
    · obtain rfl := Option.some.inj h
      exact ⟨rfl, rfl⟩
    · cases h
  · rintro ⟨rfl, hlength⟩
    match four, hlength with
    | [_, _, _, _], _ => rfl

theorem mapped?_eq_none_iff (h : bytes.length = 16) :
    mapped? bytes = none ↔ ¬ mappedPrefix <+: bytes := by
  rw [Option.eq_none_iff_forall_ne_some, ← not_exists, not_iff_not]
  simp only [mapped?_eq_some_iff]
  constructor
  · rintro ⟨four, rfl, -⟩
    exact List.prefix_append _ _
  · rintro ⟨four, rfl⟩
    rw [List.length_append] at h
    exact ⟨four, rfl, Nat.add_left_cancel h⟩

theorem mapped?_of_length (h : bytes.length = 4) : mapped? bytes = none := by
  refine Option.eq_none_iff_forall_ne_some.mpr fun four hmapped => ?_
  obtain ⟨rfl, -⟩ := mapped?_eq_some_iff.mp hmapped
  rw [List.length_append] at h
  exact absurd (Nat.le_of_add_right_le h.le) (by decide)

/-- An address in its shortest form stands for no shorter one. -/
theorem mapped?_collapse (bytes : List UInt8) : mapped? (collapse bytes) = none := by
  unfold collapse
  rcases h : mapped? bytes with _ | four
  · exact h
  · exact mapped?_of_length (mapped?_eq_some_iff.mp h).2

theorem collapse_eq_self (h : mapped? bytes = none) : collapse bytes = bytes := by
  rw [collapse, h, Option.getD_none]

/-! ### The characters of an address -/

/-- Whether `c` may stand in the text of an address. -/
def IsAddressChar (c : Char) : Prop := isDigitIn 16 c = true ∨ c = ':' ∨ c = '.'

instance (c : Char) : Decidable (IsAddressChar c) :=
  inferInstanceAs (Decidable (_ ∨ _ ∨ _))

theorem isDigitIn_mono {base base' : ℕ} (hle : base ≤ base') {c : Char}
    (h : isDigitIn base c = true) : isDigitIn base' c = true := by
  unfold isDigitIn at h ⊢
  rcases hd : hexDigit? c with _ | d
  · rw [hd] at h
    cases h
  · rw [hd, Option.any_some, decide_eq_true_eq] at h
    simpa using h.trans_le hle

theorem isAddressChar_of_mem_dottedText {c : Char} (h : c ∈ dottedText bytes) :
    IsAddressChar c := by
  induction bytes with
  | nil => exact absurd h List.not_mem_nil
  | cons b bytes ih =>
    have hdigit : c ∈ Text.decimal b.toNat → IsAddressChar c := fun hmem =>
      Or.inl (isDigitIn_mono (by decide) (isDigitIn_of_mem (by decide) (by decide) hmem))
    cases bytes with
    | nil =>
      have hone : dottedText [b] = Text.decimal b.toNat := by simp [dottedText]
      exact hdigit (hone ▸ h)
    | cons b' bytes =>
      rw [dottedText_cons, List.mem_append, List.mem_cons] at h
      rcases h with h | h | h
      · exact hdigit h
      · exact Or.inr (Or.inr h)
      · exact ih h

/-- **An address is printed with digits, colons and dots.** -/
theorem isAddressChar_of_text? (hs : text? bytes = some s) (hmapped : mapped? bytes = none)
    {c : Char} (h : c ∈ s) : IsAddressChar c := by
  unfold text? at hs
  rw [hmapped] at hs
  split at hs
  · obtain rfl := Option.some.inj hs
    exact isAddressChar_of_mem_dottedText h
  · split at hs
    · obtain rfl := Option.some.inj hs
      exact (mem_compressedText h).imp_right Or.inl
    · cases hs

theorem toNat_of_isDigitIn {base : ℕ} {c : Char} (h : isDigitIn base c = true) :
    '0'.toNat ≤ c.toNat ∧ c.toNat ≤ 'f'.toNat := by
  have hle : ∀ a b : Char, a ≤ b ↔ a.toNat ≤ b.toNat := fun _ _ => UInt32.le_iff_toNat_le
  unfold isDigitIn hexDigit? at h
  simp only [hle, Char.reduceToNat] at h ⊢
  split_ifs at h
  · omega
  · omega
  · omega
  · cases h

namespace IsAddressChar

variable {c : Char} (h : IsAddressChar c)
include h

theorem ne_slash : c ≠ '/' := by
  rintro rfl
  revert h
  decide

theorem ne_bracket : c ≠ '[' := by
  rintro rfl
  revert h
  decide

theorem isBlank : Text.isBlank c = false := by
  rcases h with h | rfl | rfl
  · obtain ⟨hzero, hf⟩ := toNat_of_isDigitIn h
    exact Text.isBlank_of_lt (hzero.trans_lt' (by decide)) (hf.trans_lt (by decide))
  · decide
  · decide

end IsAddressChar

end Address

namespace Cidr

open Address

/-! ### Ranges -/

/-- The ranges that their text stands for. -/
def Canonical (c : Cidr) : Prop :=
  (c.address.length = 4 ∧ c.bits.toNat ≤ 32) ∨
  (c.address.length = 16 ∧ ¬ mappedPrefix <+: c.address ∧ c.bits.toNat ≤ 128)

theorem canonical_iff {c : Cidr} : c.Canonical ↔
    (c.address.length = 4 ∨ c.address.length = 16) ∧ mapped? c.address = none ∧
      c.bits.toNat ≤ width c.address := by
  unfold Canonical width
  constructor
  · rintro (⟨hlength, hbits⟩ | ⟨hlength, hmapped, hbits⟩)
    · exact ⟨Or.inl hlength, mapped?_of_length hlength, by rwa [hlength]⟩
    · exact ⟨Or.inr hlength, (mapped?_eq_none_iff hlength).mpr hmapped, by rwa [hlength]⟩
  · rintro ⟨hlength | hlength, hmapped, hbits⟩
    · exact Or.inl ⟨hlength, by rwa [hlength] at hbits⟩
    · exact Or.inr ⟨hlength, (mapped?_eq_none_iff hlength).mp hmapped, by rwa [hlength] at hbits⟩

/-- **A range that is read is canonical.** -/
theorem canonical_of_ofText {s : List Char} {c : Cidr} (h : ofText s = .ok c) : c.Canonical := by
  obtain ⟨hbits, hlength⟩ := bounds_of_ofText h
  obtain ⟨bytes, -, hcollapse⟩ := Option.map_eq_some_iff.mp (address?_of_ofText h).1
  refine canonical_iff.mpr ⟨hlength.imp_right And.left, ?_, hbits⟩
  rw [← hcollapse]
  exact mapped?_collapse bytes

/-- Neither brackets nor white space are taken from the text of an address. -/
theorem bare_of_text? {bytes : List UInt8} {s : List Char} (hs : text? bytes = some s)
    (hmapped : mapped? bytes = none) : unbracket s = s ∧ Text.trim s = s := by
  have hchar : ∀ c ∈ s, IsAddressChar c := fun c => isAddressChar_of_text? hs hmapped
  constructor
  · unfold unbracket
    rw [if_neg]
    rintro ⟨hhead, -⟩
    exact (hchar '[' (List.mem_of_mem_head? hhead)).ne_bracket rfl
  · exact Text.trim_eq_self
      (fun c hc => (hchar c (List.mem_of_mem_head? hc)).isBlank)
      (fun c hc => (hchar c (List.mem_of_mem_getLast? hc)).isBlank)

/-- The address of a text without blanks and brackets is read from the text as it stands. -/
theorem address?_of_text? {bytes : List UInt8} {s : List Char} (hs : text? bytes = some s)
    (hmapped : mapped? bytes = none) : address? s = some bytes := by
  obtain ⟨hbracket, htrim⟩ := bare_of_text? hs hmapped
  rw [address?, hbracket, htrim, ofText?_of_text? hs (Or.inr hmapped), Option.map_some,
    collapse_eq_self hmapped]

theorem maskBits?_decimal {n : ℕ} (h : n < UInt32.size) :
    maskBits? (Text.decimal n) = some n := by
  rw [maskBits?, Text.natural?_decimal, Option.filter_some, if_pos (by simpa using h)]

/-- A canonical range is printed as its address and its mask. -/
theorem display_of_canonical {c : Cidr} (h : c.Canonical) : ∃ s, text? c.address = some s ∧
    c.netText? = some (s ++ '/' :: Text.decimal c.bits.toNat) ∧
    c.display = s ++ '/' :: Text.decimal c.bits.toNat := by
  obtain ⟨hlength, hmapped, hbits⟩ := canonical_iff.mp h
  obtain ⟨s, hs⟩ : ∃ s, text? c.address = some s := by
    rcases hlength with hlength | hlength
    · simp [text?, hlength]
    · simp [text?, hlength, hmapped]
  have hnet : c.netText? = some (s ++ '/' :: Text.decimal c.bits.toNat) := by
    rw [netText?, if_pos hbits, hs, Option.map_some]
  exact ⟨s, hs, hnet, by rw [display, hnet, Option.getD_some]⟩

/-- **A canonical range is read back from its text.** -/
theorem ofText_of_canonical {c : Cidr} (h : c.Canonical) : ofText c.display = .ok c := by
  obtain ⟨-, hmapped, hbits⟩ := canonical_iff.mp h
  obtain ⟨s, hs, -, hdisplay⟩ := display_of_canonical h
  have hslash : '/' ∉ s := fun hmem => (isAddressChar_of_text? hs hmapped hmem).ne_slash rfl
  have htake : c.display.takeWhile (· ≠ '/') = s := by rw [hdisplay, Text.takeWhile_cut hslash]
  have hdrop : c.display.dropWhile (· ≠ '/') = '/' :: Text.decimal c.bits.toNat := by
    rw [hdisplay, Text.dropWhile_cut hslash]
  unfold ofText
  simp only [htake, hdrop, List.tail_cons, address?_of_text? hs hmapped, Text.decimal_ne_nil,
    if_false, maskBits?_decimal c.bits.toNat_lt, Nat.not_lt.mpr hbits, UInt32.ofNat_toNat]

/-- **Printing and reading ranges agree.** The ranges that are read back from their text are the
canonical ones, with the bits beyond the mask, and only such ranges are read, from whatever text. -/
theorem ofText_display : (∀ c : Cidr, ofText c.display = .ok c ↔ c.Canonical) ∧
    ∀ s c, ofText s = .ok c → c.Canonical ∧ ofText c.display = .ok c := by
  refine ⟨fun c => ⟨canonical_of_ofText, ofText_of_canonical⟩, fun s c h => ?_⟩
  have hc := canonical_of_ofText h
  exact ⟨hc, ofText_of_canonical hc⟩

/-- Two runs of zeros of one length, capitals, leading zeros and a dotted end, in brackets. -/
theorem ofText_display_brackets :
    display ⟨[0x20, 1, 0xD, 0xB8, 0, 0, 0, 0, 0, 1, 0, 0, 0, 0, 0xFF, 1], 33⟩ =
      "2001:db8::1:0:0:ff01/33".toList ∧
    Canonical ⟨[0x20, 1, 0xD, 0xB8, 0, 0, 0, 0, 0, 1, 0, 0, 0, 0, 0xFF, 1], 33⟩ ∧
    ofText (display ⟨[0x20, 1, 0xD, 0xB8, 0, 0, 0, 0, 0, 1, 0, 0, 0, 0, 0xFF, 1], 33⟩) =
      .ok ⟨[0x20, 1, 0xD, 0xB8, 0, 0, 0, 0, 0, 1, 0, 0, 0, 0, 0xFF, 1], 33⟩ :=
  ⟨by decide +kernel,
    ofText_display.2 "[2001:DB8:0:0:01::0.0.255.1]/0033".toList _ (by decide +kernel)⟩

/-- Sixteen bytes that stand for four are printed as such, and read as the four. -/
example : ofText (display ⟨mappedPrefix ++ [10, 0, 0, 1], 24⟩) = .ok ⟨[10, 0, 0, 1], 24⟩ := by
  decide +kernel

end Cidr

end GeoRules
