import GeoRules.Proofs.Address.Cidr

/-! # What a text of a range is read as

A text is cut at its first slash into an address and a mask (`Cidr.Parts`), and every outcome of
reading it is said by the two alone (`Cidr.Outcome`): whether the address is one, which decides
before anything else, how wide it is (`Cidr.AddressIn`), and which number the mask denotes. The
number is compared with 2^32 before it is compared with the width.

Main statement: `Cidr.ofText_outcome`. -/

namespace GeoRules.Cidr

open Address Text

/-! ### The parts of a text -/

/-- The first slash of a text, if it has one, parts the two others. -/
inductive Cut : List Char → List Char → List Char → Prop
  | bare {s : List Char} (h : '/' ∉ s) : Cut s s []
  | slash {before mask : List Char} (h : '/' ∉ before) : Cut (before ++ '/' :: mask) before mask

/-- The second text is the first one without the brackets around it, if it has both. -/
inductive Unwrapped : List Char → List Char → Prop
  | brackets (inner : List Char) : Unwrapped ('[' :: (inner ++ [']'])) inner
  | plain {s : List Char} (h : ∀ inner, s ≠ '[' :: (inner ++ [']'])) : Unwrapped s s

/-- The mask of a text and what stands for the address: the part before the mask without brackets,
and then without white space at its ends. -/
def Parts (s mask x : List Char) : Prop :=
  ∃ before inner, Cut s before mask ∧ Unwrapped before inner ∧ trim inner = x

section
variable {s before mask inner x : List Char}

theorem cut_iff : Cut s before mask ↔
    s.takeWhile (· ≠ '/') = before ∧ (s.dropWhile (· ≠ '/')).tail = mask := by
  constructor
  · rintro (h | h)
    · rw [takeWhile_of_not_mem h, dropWhile_of_not_mem h]
      exact ⟨rfl, rfl⟩
    · rw [takeWhile_cut h, dropWhile_cut h]
      exact ⟨rfl, rfl⟩
  · rintro ⟨rfl, rfl⟩
    by_cases hs : '/' ∈ s
    · obtain ⟨before, mask, rfl, h⟩ := List.eq_append_cons_of_mem hs
      rw [takeWhile_cut h, dropWhile_cut h]
      exact .slash h
    · rw [takeWhile_of_not_mem hs, dropWhile_of_not_mem hs]
      exact .bare hs

theorem unbracket_eq_self (h : ∀ inner, s ≠ '[' :: (inner ++ [']'])) : unbracket s = s := by
  refine if_neg fun ⟨hhead, hlast⟩ => ?_
  obtain ⟨t, rfl⟩ := List.head?_eq_some_iff.mp hhead
  obtain ⟨inner, rfl⟩ := List.getLast?_eq_some_iff.mp hlast
  exact h inner rfl

theorem unwrapped_iff : Unwrapped s inner ↔ unbracket s = inner := by
  constructor
  · rintro (_ | h)
    · simp [unbracket]
    · exact unbracket_eq_self h
  · rintro rfl
    by_cases h : ∃ inner, s = '[' :: (inner ++ [']'])
    · obtain ⟨inner, rfl⟩ := h
      simpa [unbracket] using Unwrapped.brackets inner
    · rw [not_exists] at h
      rw [unbracket_eq_self h]
      exact .plain h

/-- Every text has its parts. -/
theorem parts_iff : Parts s mask x ↔ (s.dropWhile (· ≠ '/')).tail = mask ∧
    trim (unbracket (s.takeWhile (· ≠ '/'))) = x := by
  unfold Parts
  simp only [cut_iff, unwrapped_iff]
  constructor
  · rintro ⟨before, inner, ⟨rfl, rfl⟩, rfl, rfl⟩
    exact ⟨rfl, rfl⟩
  · rintro ⟨rfl, rfl⟩
    exact ⟨_, _, ⟨rfl, rfl⟩, rfl, rfl⟩

end

/-! ### The address -/

/-- The address of a text and how wide it is: four bytes as they are, sixteen that stand for four as
these, and any other sixteen as they are. -/
inductive AddressIn (x : List Char) : List UInt8 → ℕ → Prop
  | four {bytes : List UInt8} (h : ofText? x = some bytes) (hlength : bytes.length = 4) :
      AddressIn x bytes 32
  | mapped {four : List UInt8} (h : ofText? x = some (mappedPrefix ++ four))
      (hlength : four.length = 4) : AddressIn x four 32
  | sixteen {bytes : List UInt8} (h : ofText? x = some bytes) (hlength : bytes.length = 16)
      (hmapped : ¬ mappedPrefix <+: bytes) : AddressIn x bytes 128

theorem addressIn_iff {x : List Char} {address : List UInt8} {width : ℕ} :
    AddressIn x address width ↔
      (ofText? x).map collapse = some address ∧ Address.width address = width := by
  constructor
  · rintro (⟨h, hlength⟩ | ⟨h, hlength⟩ | ⟨h, hlength, hmapped⟩)
    · rw [h, Option.map_some, collapse_eq_self (mapped?_of_length hlength), Address.width, hlength]
      exact ⟨rfl, rfl⟩
    · rw [h, Option.map_some, collapse, mapped?_eq_some_iff.mpr ⟨rfl, hlength⟩, Option.getD_some,
        Address.width, hlength]
      exact ⟨rfl, rfl⟩
    · rw [h, Option.map_some, collapse_eq_self ((mapped?_eq_none_iff hlength).mpr hmapped),
        Address.width, hlength]
      exact ⟨rfl, rfl⟩
  · rintro ⟨haddress, rfl⟩
    obtain ⟨bytes, hbytes, rfl⟩ := Option.map_eq_some_iff.mp haddress
    rcases length_of_ofText? hbytes with hfour | ⟨hsixteen, -⟩
    · rw [collapse_eq_self (mapped?_of_length hfour), Address.width, hfour]
      exact .four hbytes hfour
    · by_cases hmapped : mappedPrefix <+: bytes
      · obtain ⟨four, rfl⟩ := hmapped
        have hfour : four.length = 4 := by
          rw [List.length_append] at hsixteen
          exact Nat.add_left_cancel hsixteen
        rw [collapse, mapped?_eq_some_iff.mpr ⟨rfl, hfour⟩, Option.getD_some, Address.width, hfour]
        exact .mapped hbytes hfour
      · rw [collapse_eq_self ((mapped?_eq_none_iff hsixteen).mpr hmapped), Address.width, hsixteen]
        exact .sixteen hbytes hsixteen hmapped

/-! ### The outcome -/

/-- What a text is read as. -/
inductive Outcome (s : List Char) : Except AddressError Cidr → Prop
  | unsupported {mask x : List Char} (h : Parts s mask x) (hx : ofText? x = none) :
      Outcome s (.error (.unsupported (String.ofList s)))
  | whole {x : List Char} {address : List UInt8} {width : ℕ} (h : Parts s [] x)
      (hx : AddressIn x address width) : Outcome s (.ok ⟨address, UInt32.ofNat width⟩)
  | masked {mask x : List Char} {address : List UInt8} {width n : ℕ} (h : Parts s mask x)
      (hx : AddressIn x address width) (hmask : Denotes mask n) (hn : n ≤ width) :
      Outcome s (.ok ⟨address, UInt32.ofNat n⟩)
  | long {mask x : List Char} {address : List UInt8} {width n : ℕ} (h : Parts s mask x)
      (hx : AddressIn x address width) (hmask : Denotes mask n) (hn : width < n)
      (hsize : n < 2 ^ 32) : Outcome s (.error (.longMask n width))
  | beyond {mask x : List Char} {address : List UInt8} {width n : ℕ} (h : Parts s mask x)
      (hx : AddressIn x address width) (hmask : Denotes mask n) (hsize : 2 ^ 32 ≤ n) :
      Outcome s (.error (.badMask (String.ofList mask)))
  | noNumber {mask x : List Char} {address : List UInt8} {width : ℕ} (h : Parts s mask x)
      (hx : AddressIn x address width) (hmask : ∃ c ∈ mask, c.isDigit = false) :
      Outcome s (.error (.badMask (String.ofList mask)))

/-- What becomes of an address with the mask behind it. -/
def ofMask (address : List UInt8) (width : ℕ) (mask : List Char) : Except AddressError Cidr :=
  if mask = [] then .ok ⟨address, UInt32.ofNat width⟩
  else match maskBits? mask with
    | none => .error (.badMask (String.ofList mask))
    | some bits =>
      if width < bits then .error (.longMask bits width) else .ok ⟨address, UInt32.ofNat bits⟩

section
variable {s mask x : List Char} {address : List UInt8} {width n : ℕ} {r : Except AddressError Cidr}

theorem ofText_of_unsupported (h : Parts s mask x) (hx : ofText? x = none) :
    ofText s = .error (.unsupported (String.ofList s)) := by
  obtain ⟨-, rfl⟩ := parts_iff.mp h
  unfold ofText
  simp only [address?, hx, Option.map_none]

/-- **An address and its mask say all** about what a text is read as. -/
theorem ofText_of_addressIn (h : Parts s mask x) (hx : AddressIn x address width) :
    ofText s = ofMask address width mask := by
  obtain ⟨rfl, rfl⟩ := parts_iff.mp h
  obtain ⟨haddress, rfl⟩ := addressIn_iff.mp hx
  unfold ofText
  simp only [address?, haddress]
  rfl

theorem AddressIn.width_le (hx : AddressIn x address width) : width ≤ 128 := by
  cases hx with
  | four | mapped => decide
  | sixteen => exact le_rfl

theorem maskBits?_of_denotes (hmask : Denotes mask n) (hsize : n < 2 ^ 32) :
    maskBits? mask = some n := by
  rw [maskBits?, (denotes_iff.mp hmask).2, Option.filter_some, if_pos]
  simpa [UInt32.size] using hsize

theorem ofMask_eq_badMask (hne : mask ≠ []) (hbits : maskBits? mask = none) :
    ofMask address width mask = .error (.badMask (String.ofList mask)) := by
  unfold ofMask
  rw [if_neg hne, hbits]

theorem Outcome.eq (h : Outcome s r) : ofText s = r := by
  cases h with
  | unsupported h hx => exact ofText_of_unsupported h hx
  | whole h hx =>
    rw [ofText_of_addressIn h hx, ofMask, if_pos rfl]
  | masked h hx hmask hn =>
    have hsize := (hn.trans hx.width_le).trans_lt (show 128 < 2 ^ 32 by decide)
    rw [ofText_of_addressIn h hx, ofMask, if_neg hmask.ne_nil, maskBits?_of_denotes hmask hsize]
    exact if_neg (Nat.not_lt.mpr hn)
  | long h hx hmask hn hsize =>
    rw [ofText_of_addressIn h hx, ofMask, if_neg hmask.ne_nil, maskBits?_of_denotes hmask hsize]
    exact if_pos hn
  | beyond h hx hmask hsize =>
    rw [ofText_of_addressIn h hx]
    refine ofMask_eq_badMask hmask.ne_nil ?_
    rw [maskBits?, (denotes_iff.mp hmask).2, Option.filter_some, if_neg]
    simpa [UInt32.size] using hsize
  | noNumber h hx hmask =>
    rw [ofText_of_addressIn h hx]
    obtain ⟨c, hc, -⟩ := id hmask
    refine ofMask_eq_badMask (List.ne_nil_of_mem hc) ?_
    rw [maskBits?, natural?_eq_none_iff.mpr hmask, Option.filter_none]

/-- Every text has an outcome. -/
theorem exists_outcome (s : List Char) : ∃ r, Outcome s r := by
  obtain ⟨mask, x, h⟩ : ∃ mask x, Parts s mask x := ⟨_, _, parts_iff.mpr ⟨rfl, rfl⟩⟩
  rcases hbytes : ofText? x with _ | bytes
  · exact ⟨_, .unsupported h hbytes⟩
  have hx : AddressIn x (collapse bytes) (Address.width (collapse bytes)) :=
    addressIn_iff.mpr ⟨by rw [hbytes, Option.map_some], rfl⟩
  by_cases hne : mask = []
  · exact ⟨_, .whole (hne ▸ h) hx⟩
  rcases hnumber : natural? mask with _ | n
  · exact ⟨_, .noNumber h hx (natural?_eq_none_iff.mp hnumber)⟩
  have hmask : Denotes mask n := denotes_iff.mpr ⟨hne, hnumber⟩
  rcases Nat.lt_or_ge (Address.width (collapse bytes)) n with hn | hn
  · rcases Nat.lt_or_ge n (2 ^ 32) with hsize | hsize
    · exact ⟨_, .long h hx hmask hn hsize⟩
    · exact ⟨_, .beyond h hx hmask hsize⟩
  · exact ⟨_, .masked h hx hmask hn⟩

end

/-- A mask that is too long is worded as one that is its number and the width. -/
theorem message_longMask (bits width : ℕ) : (AddressError.longMask bits width).message =
    (AddressError.badMask (natText bits ++ " > " ++ natText width)).message := by
  have happend : ∀ a b c d : String, a ++ b ++ c ++ d = a ++ (b ++ c ++ d) := fun a b c d => by
    rw [String.append_assoc, String.append_assoc, String.append_assoc]
  exact happend _ _ _ _

/-- Four bytes with dots are what stands for the address of a text that has them before its mask. -/
theorem parts_of_dottedText {t mask : List Char} {four : List UInt8} (hfour : four.length = 4)
    (h : Cut t (dottedText four) mask) : Parts t mask (dottedText four) := by
  have htext : text? four = some (dottedText four) := by rw [text?, if_pos hfour]
  obtain ⟨hbracket, htrim⟩ := bare_of_text? htext (mapped?_of_length hfour)
  exact ⟨_, _, h, unwrapped_iff.mpr hbracket, htrim⟩

/-- **What a text of a range is read as**, for every text. An address of sixteen bytes that stands
for four is read, in each of its spellings, as the four with dots would be with the same mask. A
mask that is too long is reported by its number and the width. -/
theorem ofText_outcome : (∀ s r, ofText s = r ↔ Outcome s r) ∧
    (∀ s t mask x four, Parts s mask x → ofText? x = some (mappedPrefix ++ four) →
      four.length = 4 → Cut t (dottedText four) mask → ofText s = ofText t) ∧
    ∀ bits width, (AddressError.longMask bits width).message =
      (AddressError.badMask (natText bits ++ " > " ++ natText width)).message := by
  refine ⟨fun s r => ⟨fun h => ?_, fun h => h.eq⟩, ?_, message_longMask⟩
  · obtain ⟨r', h'⟩ := exists_outcome s
    rw [← h, h'.eq]
    exact h'
  · intro s t mask x four hs hx hfour ht
    have hdotted : ofText? (dottedText four) = some four :=
      ofText?_of_text? (by rw [text?, if_pos hfour]) (Or.inl hfour)
    rw [ofText_of_addressIn hs (.mapped hx hfour),
      ofText_of_addressIn (parts_of_dottedText hfour ht) (.four hdotted hfour)]

/-- Brackets, white space, capitals and a mask with a zero before it. -/
theorem ofText_outcome_mapped :
    Parts "[ ::FFFF:a00:1 ]/033".toList "033".toList "::FFFF:a00:1".toList ∧
    ofText? "::FFFF:a00:1".toList = some (mappedPrefix ++ [10, 0, 0, 1]) ∧
    Cut "10.0.0.1/033".toList (dottedText [10, 0, 0, 1]) "033".toList ∧
    ofText "[ ::FFFF:a00:1 ]/033".toList = ofText "10.0.0.1/033".toList ∧
    Outcome "10.0.0.1/033".toList (.error (.longMask 33 32)) := by
  have hs : Parts "[ ::FFFF:a00:1 ]/033".toList "033".toList "::FFFF:a00:1".toList :=
    parts_iff.mpr (by decide +kernel)
  have hx : ofText? "::FFFF:a00:1".toList = some (mappedPrefix ++ [10, 0, 0, 1]) := by
    decide +kernel
  have ht : Cut "10.0.0.1/033".toList (dottedText [10, 0, 0, 1]) "033".toList :=
    cut_iff.mpr (by decide +kernel)
  exact ⟨hs, hx, ht, ofText_outcome.2.1 _ _ _ _ _ hs hx rfl ht,
    (ofText_outcome.1 _ _).mp (by decide +kernel)⟩

/-- A mask of 2^32 is no mask at all, and zeros before a number do not count. -/
example : ofText "::/4294967296".toList = .error (.badMask "4294967296") ∧
    ofText "::/0000000000128".toList = .ok ⟨List.replicate 16 0, 128⟩ := by decide +kernel

end GeoRules.Cidr
