import GeoRules.Text.Utf8
import Mathlib.Data.List.Basic
import Mathlib.Data.Nat.Notation
import Mathlib.Tactic.SplitIfs

/-! # Bytes of texts

The bytes of a text are those of its characters one after the other, and a byte below 128 comes from
the character with that code point alone; so such a byte at the end makes no difference to whether
the others encode a text (`ofUtf8?_concat`). -/

namespace GeoRules.Text

theorem utf8_eq_flatMap (s : String) : utf8 s = s.toList.flatMap String.utf8EncodeChar := by
  simp [utf8, String.toUTF8, ← String.utf8Encode_toList, List.utf8Encode]

theorem utf8_eq_nil_iff {s : String} : utf8 s = [] ↔ s = "" := by
  rw [utf8_eq_flatMap, List.flatMap_eq_nil_iff]
  constructor
  · intro h
    refine String.toList_eq_nil_iff.mp (List.eq_nil_iff_forall_not_mem.mpr fun c hc => ?_)
    exact String.utf8EncodeChar_ne_nil (h c hc)
  · rintro rfl c hc
    exact absurd hc (by simp)

/-- A character below 128 is a byte that no other character has. -/
theorem mem_utf8EncodeChar {c d : Char} (hd : d.toNat < 128) :
    UInt8.ofNat d.toNat ∈ String.utf8EncodeChar c ↔ c = d := by
  have hval : (UInt8.ofNat d.toNat).toNat = d.toNat := by
    rw [UInt8.toNat_ofNat']
    omega
  have hnat : c.toNat = c.val.toNat := rfl
  rw [String.utf8EncodeChar, ← Char.toNat_inj]
  simp only [← hnat]
  split_ifs with h1 h2 h3
  all_goals
    simp only [List.mem_cons, List.not_mem_nil, or_false, ← UInt8.toNat_inj, hval,
      UInt8.toNat_ofNat']
    omega

theorem mem_utf8_iff {d : Char} (hd : d.toNat < 128) {s : String} :
    UInt8.ofNat d.toNat ∈ utf8 s ↔ d ∈ s.toList := by
  rw [utf8_eq_flatMap, List.mem_flatMap]
  constructor
  · rintro ⟨c, hc, h⟩
    rwa [← (mem_utf8EncodeChar hd).mp h]
  · intro h
    exact ⟨d, h, (mem_utf8EncodeChar hd).mpr rfl⟩

/-- Line feeds of a text are seen in its bytes. -/
theorem feed_mem_utf8 {s : String} : (10 : UInt8) ∈ utf8 s ↔ '\n' ∈ s.toList :=
  mem_utf8_iff (d := '\n') (by decide)

theorem utf8EncodeChar_feed : String.utf8EncodeChar '\n' = [10] := by decide

/-! ### Bytes at the end -/

theorem utf8EncodeChar_of_lt {d : Char} (hd : d.toNat < 128) :
    String.utf8EncodeChar d = [UInt8.ofNat d.toNat] :=
  String.utf8EncodeChar_eq_singleton (Char.utf8Size_eq_one_iff.mpr (Nat.le_of_lt_succ hd))

theorem utf8_push (s : String) (c : Char) :
    utf8 (s.push c) = utf8 s ++ String.utf8EncodeChar c := by
  rw [utf8_eq_flatMap, utf8_eq_flatMap, String.toList_push, List.flatMap_append,
    List.flatMap_singleton]

/-- A byte below 128 at the end of a text is its last character. -/
theorem exists_push_of_utf8 {d : Char} (hd : d.toNat < 128) {t : String} {bytes : List UInt8}
    (h : utf8 t = bytes ++ [UInt8.ofNat d.toNat]) :
    ∃ s : String, t = s.push d ∧ utf8 s = bytes := by
  have hne : t ≠ "" := fun hempty => by
    rw [utf8_eq_nil_iff.mpr hempty] at h
    simp at h
  obtain ⟨s, c, rfl⟩ : ∃ (s : String) (c : Char), t = s.push c := by
    obtain ⟨front, c, hfront⟩ :=
      (List.eq_nil_or_concat t.toList).resolve_left (mt String.toList_eq_nil_iff.mp hne)
    refine ⟨String.ofList front, c, String.toList_injective ?_⟩
    rw [hfront, String.toList_push, String.toList_ofList, List.concat_eq_append]
  rw [utf8_push] at h
  have hlast : UInt8.ofNat d.toNat ∈ (String.utf8EncodeChar c).getLast? := by
    rw [← List.getLast?_append_of_ne_nil _ String.utf8EncodeChar_ne_nil, h]
    exact List.getLast?_concat
  obtain rfl : c = d := (mem_utf8EncodeChar hd).mp (List.mem_of_getLast? hlast)
  rw [utf8EncodeChar_of_lt hd] at h
  exact ⟨s, rfl, List.append_cancel_right h⟩

/-- A character below 128 can be taken from the end of a text. -/
theorem ofUtf8?_concat {d : Char} (hd : d.toNat < 128) (bytes : List UInt8) :
    ofUtf8? (bytes ++ [UInt8.ofNat d.toNat]) = (ofUtf8? bytes).map (·.push d) := by
  rcases h : ofUtf8? bytes with _ | s
  · refine Option.eq_none_iff_forall_ne_some.mpr fun t ht => ?_
    obtain ⟨s, -, rfl⟩ := exists_push_of_utf8 hd (ofUtf8?_eq_some_iff.mp ht).symm
    cases h.symm.trans (ofUtf8?_utf8 s)
  · rw [ofUtf8?_eq_some_iff.mp h, ← utf8EncodeChar_of_lt hd, ← utf8_push, ofUtf8?_utf8,
      Option.map_some]

end GeoRules.Text
