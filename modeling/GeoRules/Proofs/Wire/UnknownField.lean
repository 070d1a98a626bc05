import GeoRules.Proofs.Wire.Prefix

/-! # Unknown fields

The grammar of the fields that a decoder skips. A number may be written longer than it needs
(`Spells`), a payload is laid out by its wire type (`IsPayload`), and a group holds fields up to the
end that has its number (`FieldRow`). Groups nest as long as there is room; the end of a group takes
none, so that a group with nothing in it needs one level.

The fields of a row are skipped (`FieldRow.skip`), whatever follows them. -/

namespace GeoRules.Wire

/-! ### Numbers and keys -/

/-- The bytes of a number, seven bits to a byte, the lowest first; they may be more than it
needs. -/
inductive SevenBits : ℕ → List UInt8 → Prop
  | last {b : UInt8} (hb : b < 128) : SevenBits b.toNat [b]
  | more {b : UInt8} {n : ℕ} {bytes : List UInt8} (hb : 128 ≤ b) (h : SevenBits n bytes) :
      SevenBits (b.toNat % 128 + 128 * n) (b :: bytes)

/-- The bytes of a number of 64 bits, ten of them at most. -/
structure Spells (n : ℕ) (bytes : List UInt8) : Prop where
  sevenBits : SevenBits n bytes
  length_le : bytes.length ≤ 10
  fits : Fits n

/-- The bytes of a key. -/
structure SpellsKey (key : Key) (bytes : List UInt8) : Prop where
  fieldNumber : FieldNumber key.number
  spells : Spells (8 * key.number + key.type.code) bytes

theorem SevenBits.length_pos {n : ℕ} {bytes : List UInt8} (h : SevenBits n bytes) :
    0 < bytes.length := by
  cases h with
  | last => simp
  | more => simp

theorem SevenBits.varintWithin? {n : ℕ} {bytes : List UInt8} (h : SevenBits n bytes) {more : ℕ}
    (hlength : bytes.length ≤ more + 1) (hn : n < 2 * 128 ^ more) (rest : List UInt8) :
    varintWithin? more (bytes ++ rest) = some ⟨n, bytes.length⟩ := by
  induction h generalizing more with
  | @last b hb =>
    rw [List.singleton_append]
    cases more with
    | zero =>
      have hlt : b < 2 := by
        rw [UInt8.lt_iff_toNat_lt]
        simpa using hn
      rw [Wire.varintWithin?, if_pos hlt]
      rfl
    | succ more =>
      rw [Wire.varintWithin?, if_pos hb]
      rfl
  | @more b n bytes hb h ih =>
    have hpos := h.length_pos
    rw [List.length_cons] at hlength
    obtain ⟨more, rfl⟩ : ∃ m, more = m + 1 := ⟨more - 1, by omega⟩
    have hlt : n < 2 * 128 ^ more := by
      rw [pow_succ] at hn
      omega
    rw [List.cons_append, Wire.varintWithin?, if_neg (UInt8.not_lt.mpr hb), ih (by omega) hlt]
    rfl

/-- The shortest bytes of a number. -/
theorem sevenBits_varint (n : ℕ) : SevenBits n (varint n) := by
  induction n using varint.induct with
  | case1 n hn =>
    have hval : (UInt8.ofNat n).toNat = n := by rw [UInt8.toNat_ofNat']; omega
    have hlast : SevenBits (UInt8.ofNat n).toNat [UInt8.ofNat n] :=
      .last (by rw [UInt8.lt_iff_toNat_lt, hval]; exact hn)
    rw [varint, if_pos hn]
    rwa [hval] at hlast
  | case2 n hn ih =>
    have hval : (UInt8.ofNat (n % 128 + 128)).toNat = n % 128 + 128 := by
      rw [UInt8.toNat_ofNat']; omega
    have hmore : SevenBits ((UInt8.ofNat (n % 128 + 128)).toNat % 128 + 128 * (n / 128))
        (UInt8.ofNat (n % 128 + 128) :: varint (n / 128)) :=
      .more (by rw [UInt8.le_iff_toNat_le, hval]; exact Nat.le_add_left ..) ih
    have hn' : (n % 128 + 128) % 128 + 128 * (n / 128) = n := by omega
    rw [varint, if_neg hn]
    rwa [hval, hn'] at hmore

theorem Spells.takes {n : ℕ} {bytes : List UInt8} (h : Spells n bytes) :
    Takes Input.number bytes n := by
  intro rest
  refine yields_number_iff.mpr ⟨bytes.length, ?_, List.drop_left.symm⟩
  exact h.sevenBits.varintWithin? h.length_le (lt_of_lt_of_eq h.fits (by norm_num)) rest

theorem SpellsKey.takes {key : Key} {bytes : List UInt8} (h : SpellsKey key bytes) :
    Takes Input.key bytes key := fun rest =>
  yields_key_iff.mpr ⟨_, h.spells.takes rest, ofNat_key h.fieldNumber⟩

/-- A number below 128 may be written as one byte. -/
theorem spells_byte {n : ℕ} {b : UInt8} (hn : n < 128) (hb : b.toNat = n) : Spells n [b] := by
  have hlt : b < 128 := by
    rw [UInt8.lt_iff_toNat_lt, hb]
    exact hn
  exact ⟨hb ▸ .last hlt, by simp, Nat.lt_trans hn (by decide)⟩

/-! ### Payloads -/

/-- The bytes of a payload of the wire type, other than those of a group. -/
inductive IsPayload : WireType → List UInt8 → Prop
  | varint {n : ℕ} {v : List UInt8} (h : Spells n v) : IsPayload .varint v
  | fixed64 {v : List UInt8} (h : v.length = 8) : IsPayload .fixed64 v
  | delimited {v body : List UInt8} (h : Spells body.length v) : IsPayload .delimited (v ++ body)
  | fixed32 {v : List UInt8} (h : v.length = 4) : IsPayload .fixed32 v

/-- A reader that drops what it reads. -/
theorem yields_map_unit_iff {ε α : Type} {bound bound' : ℕ} {x : Except ε (Read α bound)}
    {g : Read α bound → Read Unit bound'} (hg : ∀ r, (g r).rest = r.rest) {rest : Input} :
    Yields (x.map g) () rest ↔ ∃ a, Yields x a rest := by
  rw [yields_map_iff (f := fun _ => ()) fun r => ⟨rfl, hg r⟩]
  simp

theorem yields_skipPayload_varint {c rest : Input} :
    Yields (skipPayload .varint c) () rest ↔ ∃ n, Yields c.number n rest :=
  yields_map_unit_iff (by intro r; rfl)

theorem yields_skipPayload_delimited {c rest : Input} :
    Yields (skipPayload .delimited c) () rest ↔ ∃ bytes, Yields c.delimited bytes rest :=
  yields_map_unit_iff (by intro r; rfl)

theorem takes_take {n : ℕ} {v : List UInt8} (h : v.length = n) : Takes (Input.take n) v v :=
  fun _ => yields_take_iff.mpr ⟨h, rfl⟩

theorem IsPayload.takes {type : WireType} {v : List UInt8} (h : IsPayload type v) :
    Takes (skipPayload type) v () := by
  intro rest
  cases h with
  | varint h => exact yields_skipPayload_varint.mpr ⟨_, h.takes rest⟩
  | fixed64 h =>
    exact (yields_map_unit_iff (by intro r; rfl)).mpr ⟨v, takes_take h rest⟩
  | @delimited v body h =>
    rw [List.append_assoc]
    exact yields_skipPayload_delimited.mpr
      ⟨body, yields_delimited_iff.mpr ⟨_, _, h.takes _, takes_take rfl rest⟩⟩
  | fixed32 h =>
    exact (yields_map_unit_iff (by intro r; rfl)).mpr ⟨v, takes_take h rest⟩

theorem IsPayload.ne_group {type : WireType} {v : List UInt8} (h : IsPayload type v) :
    type ≠ .groupStart ∧ type ≠ .groupEnd := by
  cases h with
  | varint | fixed64 | delimited | fixed32 => exact ⟨by simp, by simp⟩

/-! ### Fields -/

/-- **The bytes are those of fields by the numbers**, one behind the other; groups nest in as many
levels as there is room for. -/
inductive FieldRow : ℕ → List ℕ → List UInt8 → Prop
  | nil {room : ℕ} : FieldRow room [] []
  | plain {room k : ℕ} {type : WireType} {ks : List ℕ} {u v rest : List UInt8}
      (hkey : SpellsKey ⟨k, type⟩ u) (hpayload : IsPayload type v)
      (h : FieldRow (room + 1) ks rest) : FieldRow (room + 1) (k :: ks) (u ++ (v ++ rest))
  | group {room k : ℕ} {ks inner : List ℕ} {u v body rest : List UInt8}
      (hstart : SpellsKey ⟨k, .groupStart⟩ u) (hbody : FieldRow room inner body)
      (hend : SpellsKey ⟨k, .groupEnd⟩ v) (h : FieldRow (room + 1) ks rest) :
      FieldRow (room + 1) (k :: ks) (u ++ (body ++ (v ++ rest)))

/-- Fields in a group are skipped: the rest of the group is left. -/
theorem FieldRow.skip {room : ℕ} {ks : List ℕ} {bytes : List UInt8} (h : FieldRow room ks bytes)
    {number : ℕ} {outer : List ℕ} {after : List UInt8} {rest : Input}
    (hrest : Yields (skipGroup (room + (outer.length + 1)) number outer (.ofBytes after)) () rest) :
    Yields (skipGroup (room + (outer.length + 1)) number outer (.ofBytes (bytes ++ after))) ()
      rest := by
  induction h generalizing number outer after with
  | nil => exact hrest
  | @plain room k type ks u v more hkey hpayload _ ih =>
    rw [List.append_assoc, List.append_assoc]
    obtain ⟨hstart, hend⟩ := hpayload.ne_group
    exact yields_skipGroup_iff.mpr ⟨_, _, hkey.takes _, Or.inr (Or.inr
      ⟨hend, hstart, by omega, _, hpayload.takes _, ih hrest⟩)⟩
  | @group room k ks inner u v body more hstart _ hend _ ihbody ih =>
    rw [List.append_assoc, List.append_assoc, List.append_assoc]
    -- behind the end of the inner group, the outer one goes on
    have hclose : Yields (skipGroup (room + ((number :: outer).length + 1)) k (number :: outer)
        (.ofBytes (v ++ (more ++ after)))) () rest := by
      have hroom : room + ((number :: outer).length + 1) = room + 1 + (outer.length + 1) := by
        rw [List.length_cons]; omega
      rw [hroom]
      exact yields_skipGroup_iff.mpr ⟨_, _, hend.takes _, Or.inl
        ⟨rfl, rfl, Or.inr ⟨number, outer, rfl, ih hrest⟩⟩⟩
    have hinner := ihbody hclose
    have hroom : room + 1 + (outer.length + 1) = room + ((number :: outer).length + 1) := by
      rw [List.length_cons]; omega
    rw [hroom]
    refine yields_skipGroup_iff.mpr ⟨_, _, hstart.takes _, Or.inr (Or.inl ⟨rfl, ?_, hinner⟩)⟩
    rw [List.length_cons]
    omega

/-- A group is skipped up to its end. -/
theorem FieldRow.takes_group {room k : ℕ} {ks : List ℕ} {body v : List UInt8}
    (h : FieldRow room ks body) (hend : SpellsKey ⟨k, .groupEnd⟩ v) :
    Takes (skipField (room + 1) ⟨k, .groupStart⟩) (body ++ v) () := by
  intro rest
  rw [List.append_assoc]
  have hclose : Yields (skipGroup (room + 1) k [] (.ofBytes (v ++ rest))) () (.ofBytes rest) :=
    yields_skipGroup_iff.mpr ⟨_, _, hend.takes rest, Or.inl ⟨rfl, rfl, Or.inl ⟨rfl, rfl⟩⟩⟩
  exact @FieldRow.skip room ks body h k [] _ _ hclose

/-- Any other field is skipped with its payload. -/
theorem IsPayload.takes_field {room k : ℕ} {type : WireType} {v : List UInt8}
    (h : IsPayload type v) : Takes (skipField (room + 1) ⟨k, type⟩) v () := by
  have hskip : skipField (room + 1) ⟨k, type⟩ = skipPayload type := by
    rcases skipField_cases (Nat.succ_ne_zero room) ⟨k, type⟩ with ⟨hstart, -⟩ | ⟨-, hskip⟩
    · exact absurd hstart h.ne_group.1
    · exact hskip
  rw [hskip]
  exact h.takes

end GeoRules.Wire
