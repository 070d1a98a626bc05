import GeoRules.Address.Cidr
import GeoRules.Proofs.Text.Blank
import Mathlib.Data.List.Infix
import Mathlib.Data.Nat.Notation

/-! # The sizes of the addresses that are read

An address that is read has four bytes or sixteen. Sixteen are read only from a text with two colons
at least: eight groups have a colon between any two of them, a dotted end in the place of the last
two, and fewer groups need a double colon (`length_of_ofText?`). A mask is never longer than its
address (`Cidr.bounds_of_ofText`). -/

namespace GeoRules.Address

variable {s digits rest : List Char} {base most : ℕ}

/-! ### What the readers leave -/

theorem suffix_of_digits? (h : digits? base most s = some (digits, rest)) : rest <:+ s := by
  unfold digits? at h
  dsimp only at h
  split at h
  · cases h
  · obtain ⟨-, rfl⟩ := Prod.mk.inj (Option.some.inj h)
    exact List.dropWhile_suffix _

theorem suffix_of_octet? {b : UInt8} (h : octet? s = some (b, rest)) : rest <:+ s := by
  unfold octet? at h
  split at h
  · cases h
  · next hdigits =>
    split at h
    · cases h
    · split at h
      · cases h
      · obtain ⟨-, rfl⟩ := Prod.mk.inj (Option.some.inj h)
        exact suffix_of_digits? hdigits

theorem suffix_of_group? {g : ℕ} (h : group? s = some (g, rest)) : rest <:+ s := by
  obtain ⟨⟨digits, rest'⟩, hdigits, hg⟩ := Option.map_eq_some_iff.mp h
  obtain ⟨-, rfl⟩ := Prod.mk.inj hg
  exact suffix_of_digits? hdigits

theorem octets?_bounds {more : ℕ} {bytes : List UInt8} (h : octets? more s = some (bytes, rest)) :
    bytes.length = more + 1 ∧ rest <:+ s := by
  induction more generalizing s bytes with
  | zero =>
    obtain ⟨⟨b, rest'⟩, hoctet, hb⟩ := Option.map_eq_some_iff.mp h
    obtain ⟨rfl, rfl⟩ := Prod.mk.inj hb
    exact ⟨rfl, suffix_of_octet? hoctet⟩
  | succ more ih =>
    rw [octets?] at h
    split at h
    · next b after hoctet =>
      obtain ⟨⟨bs, rest'⟩, hmore, hb⟩ := Option.map_eq_some_iff.mp h
      obtain ⟨rfl, rfl⟩ := Prod.mk.inj hb
      obtain ⟨hlength, hsuffix⟩ := ih hmore
      refine ⟨by rw [List.length_cons, hlength], hsuffix.trans ?_⟩
      exact (List.suffix_cons _ _).trans (suffix_of_octet? hoctet)
    · cases h

theorem dotted?_bounds {bytes : List UInt8} (h : dotted? s = some (bytes, rest)) :
    bytes.length = 4 ∧ rest <:+ s := octets?_bounds h

/-! ### Runs of groups -/

theorem length_groupsOfBytes (bytes : List UInt8) :
    (groupsOfBytes bytes).length = bytes.length / 2 := by
  fun_induction groupsOfBytes bytes with
  | case1 high low bytes ih =>
    rw [List.length_cons, ih]
    simp only [List.length_cons]
    omega
  | case2 bytes hshort =>
    rcases bytes with _ | ⟨high, _ | ⟨low, bytes⟩⟩
    · rfl
    · simp
    · exact absurd rfl (hshort high low bytes)

/-- One turn of a run: it stops, or behind its colon it goes on with four bytes, which end it, or
with a group. -/
theorem groupRun_cases (room : ℕ) (first : Bool) (s : List Char) :
    groupRun (room + 1) first s = ⟨[], false, s⟩ ∨
    ∃ t, ((first = true ∧ s = t) ∨ (first = false ∧ s = ':' :: t)) ∧
      ((∃ bytes rest, room ≠ 0 ∧ dotted? t = some (bytes, rest) ∧
          groupRun (room + 1) first s = ⟨groupsOfBytes bytes, true, rest⟩) ∨
        ∃ g rest, group? t = some (g, rest) ∧ groupRun (room + 1) first s =
          { groupRun room false rest with groups := g :: (groupRun room false rest).groups }) := by
  rw [groupRun]
  split
  · exact Or.inl rfl
  · next t ht =>
    have hcolon : (first = true ∧ s = t) ∨ (first = false ∧ s = ':' :: t) := by
      rcases first with _ | _
      · rcases s with _ | ⟨c, s⟩
        · simp at ht
        · simp at ht
          simp [ht]
      · simpa using ht
    split
    · next bytes rest hdotted =>
      rcases room with _ | room
      · simp at hdotted
      · exact Or.inr ⟨t, hcolon, Or.inl ⟨bytes, rest, by omega, by simpa using hdotted, rfl⟩⟩
    · split
      · exact Or.inl rfl
      · next g rest hgroup => exact Or.inr ⟨t, hcolon, Or.inr ⟨g, rest, hgroup, rfl⟩⟩

/-- What a run is bounded by. Every group stands behind a colon of its own but for the first one and
one that is dotted. -/
structure GroupRun.Bounded (run : GroupRun) (room : ℕ) (first : Bool) (s : List Char) : Prop where
  suffix : run.rest <:+ s
  length_le : run.groups.length ≤ room
  colons : run.groups.length + run.rest.count ':' ≤ s.count ':' + first.toNat + run.dotted.toNat

theorem GroupRun.Bounded.nil (room : ℕ) (first : Bool) (s : List Char) :
    (⟨[], false, s⟩ : GroupRun).Bounded room first s :=
  ⟨List.suffix_refl s, Nat.zero_le _, by simp⟩

theorem groupRun_bounded (room : ℕ) (first : Bool) (s : List Char) :
    (groupRun room first s).Bounded room first s := by
  induction room generalizing first s with
  | zero => exact .nil 0 first s
  | succ room ih =>
    rcases groupRun_cases room first s with hrun | ⟨t, ht, hrun⟩
    · rw [hrun]
      exact .nil _ first s
    have hsuffix : t <:+ s := by
      rcases ht with ⟨-, rfl⟩ | ⟨-, rfl⟩
      · exact List.suffix_refl _
      · exact List.suffix_cons _ _
    have hcount : t.count ':' + 1 = s.count ':' + first.toNat := by
      rcases ht with ⟨rfl, rfl⟩ | ⟨rfl, rfl⟩
      · rfl
      · simp
    rcases hrun with ⟨bytes, rest, hroom, hdotted, hrun⟩ | ⟨g, rest, hgroup, hrun⟩
    · obtain ⟨hlength, hrest⟩ := dotted?_bounds hdotted
      have hrestCount := hrest.sublist.count_le ':'
      have hgroups : (groupsOfBytes bytes).length = 2 := by rw [length_groupsOfBytes, hlength]
      rw [hrun]
      exact ⟨hrest.trans hsuffix, by simp only; omega, by simp only [Bool.toNat_true]; omega⟩
    · have hrest := suffix_of_group? hgroup
      have hrestCount := hrest.sublist.count_le ':'
      obtain ⟨hsuffix', hlength, hcolons⟩ := ih false rest
      rw [hrun]
      refine ⟨(hsuffix'.trans hrest).trans hsuffix, ?_, ?_⟩
      · simp only [List.length_cons]
        omega
      · simp only [List.length_cons]
        simp only [Bool.toNat_false] at hcolons
        omega

/-! ### Whole addresses -/

theorem eightGroups?_bounds {groups : List ℕ} (h : eightGroups? s = some (groups, rest)) :
    groups.length = 8 ∧ 2 ≤ s.count ':' := by
  obtain ⟨hsuffix, hlength, hcolons⟩ := groupRun_bounded 8 true s
  unfold eightGroups? at h
  dsimp only at h
  split at h
  · next height =>
    obtain ⟨rfl, rfl⟩ := Prod.mk.inj (Option.some.inj h)
    refine ⟨height, ?_⟩
    have := Bool.toNat_le (groupRun 8 true s).dotted
    rw [Bool.toNat_true] at hcolons
    omega
  · split at h
    · cases h
    · split at h
      · next hne _ after hrest =>
        obtain ⟨rfl, rfl⟩ := Prod.mk.inj (Option.some.inj h)
        obtain ⟨-, htail, -⟩ := groupRun_bounded (7 - (groupRun 8 true s).groups.length) true after
        have hcount := hsuffix.sublist.count_le ':'
        rw [hrest] at hcount
        simp only [List.count_cons_self] at hcount
        refine ⟨?_, by omega⟩
        simp only [List.length_append, List.length_replicate]
        omega
      · cases h

theorem length_bytesOfGroups (groups : List ℕ) :
    (bytesOfGroups groups).length = 2 * groups.length := by
  induction groups with
  | nil => rfl
  | cons g groups ih =>
    rw [bytesOfGroups, List.flatMap_cons, List.length_append, ← bytesOfGroups, ih]
    simp
    omega

/-- **An address that is read has four bytes or sixteen**, and sixteen need two colons. -/
theorem length_of_ofText? {bytes : List UInt8} (h : ofText? s = some bytes) :
    bytes.length = 4 ∨ (bytes.length = 16 ∧ 2 ≤ s.count ':') := by
  unfold ofText? at h
  split at h
  · next hdotted =>
    split at h
    · obtain rfl := Option.some.inj h
      exact Or.inl (dotted?_bounds hdotted).1
    · cases h
  · split at h
    · next groups hgroups =>
      obtain rfl := Option.some.inj h
      obtain ⟨hlength, hcolons⟩ := eightGroups?_bounds hgroups
      exact Or.inr ⟨by rw [length_bytesOfGroups, hlength], hcolons⟩
    · cases h

theorem collapse_eq_or (bytes : List UInt8) :
    collapse bytes = bytes ∨ (collapse bytes).length = 4 := by
  unfold collapse
  rcases h : mapped? bytes with _ | four
  · exact Or.inl rfl
  · right
    unfold mapped? at h
    split at h
    · obtain rfl := Option.some.inj h
      rfl
    · cases h

end GeoRules.Address

namespace GeoRules.Cidr

open Text

variable {s : List Char} {address : List UInt8} {r : Cidr}

theorem unbracket_sublist (s : List Char) : (unbracket s).Sublist s := by
  unfold unbracket
  split
  · exact (List.dropLast_sublist _).trans (List.tail_sublist _)
  · exact List.Sublist.refl _

theorem length_of_address? (h : address? s = some address) :
    address.length = 4 ∨ (address.length = 16 ∧ 2 ≤ s.count ':') := by
  obtain ⟨bytes, hbytes, rfl⟩ := Option.map_eq_some_iff.mp h
  rcases Address.collapse_eq_or bytes with hself | hfour
  · rw [hself]
    have hcount := ((trim_sublist _).trans (unbracket_sublist s)).count_le ':'
    exact (Address.length_of_ofText? hbytes).imp_right (And.imp_right (le_trans · hcount))
  · exact Or.inl hfour

/-- A range that is read has the address before its mask, and a mask no longer than the address. -/
theorem address?_of_ofText (h : ofText s = .ok r) :
    address? (s.takeWhile (· ≠ '/')) = some r.address ∧
      r.bits.toNat ≤ Address.width r.address := by
  have hofNat : ∀ n, (UInt32.ofNat n).toNat ≤ n := fun n => by
    rw [UInt32.toNat_ofNat']
    exact Nat.mod_le _ _
  unfold ofText at h
  dsimp only at h
  split at h
  · cases h
  · next address haddress =>
    split at h
    · obtain rfl := Except.ok.inj h
      exact ⟨haddress, hofNat _⟩
    · split at h
      · cases h
      · next bits hbits =>
        split at h
        · cases h
        · next hle =>
          obtain rfl := Except.ok.inj h
          exact ⟨haddress, (hofNat bits).trans (Nat.le_of_not_lt hle)⟩

/-- **The mask of a range that is read is no longer than its address**, which has four bytes or
sixteen; sixteen need two colons. -/
theorem bounds_of_ofText (h : ofText s = .ok r) : r.bits.toNat ≤ Address.width r.address ∧
    (r.address.length = 4 ∨ (r.address.length = 16 ∧ 2 ≤ s.count ':')) := by
  obtain ⟨haddress, hbits⟩ := address?_of_ofText h
  have hcount := (List.takeWhile_sublist (l := s) (· ≠ '/')).count_le ':'
  exact ⟨hbits, (length_of_address? haddress).imp_right (And.imp_right (le_trans · hcount))⟩

end GeoRules.Cidr
