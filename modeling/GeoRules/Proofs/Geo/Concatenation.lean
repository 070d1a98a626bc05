import GeoRules.Geo.Codec
import GeoRules.Proofs.Wire.Grammar

/-! # Databases one behind the other

Bytes that hold fields are read as these fields whatever follows them, and then the reader is where
it would be if it had started behind them. So what comes of two messages one behind the other is
what comes of the second one, with the fields of the first before its own (`decode_behind`):
the fields of both, or the fault of the second. The bytes of two databases one behind the other are
therefore a database with the lists of both (`decode_append`). -/

namespace GeoRules.Wire

variable {ι : Type} {schema : Schema ι} {m : ι} {room limit k : ℕ} {label : String}
  {c c₁ c₂ c₃ : Input} {fields inner : List (ℕ × Value)}

/-- The fields of the message `m` up to its end, or what is wrong with them. -/
def fieldsFrom (schema : Schema ι) (m : ι) (room limit : ℕ) (c : Input) :
    Except DecodeError (List (ℕ × Value)) :=
  (readFields schema m room limit c).map Read.value

/-! ### What comes of a message behind its first field -/

theorem fieldsFrom_unknown {key : Key} (hkey : Yields c.key key c₁)
    (hfield : schema.field? m key.number = none) (hskip : Yields (skipField room key c₁) () c₂)
    (hlimit : limit ≤ c₂.size) :
    fieldsFrom schema m room limit c = fieldsFrom schema m room limit c₂ := by
  obtain ⟨hlt, hk⟩ := hkey
  obtain ⟨_, hs⟩ := hskip
  unfold fieldsFrom
  rw [readFields, if_neg (by omega), hk]
  simp only [hfield, hs]
  rcases readFields schema m room limit c₂ with e | r
  · rfl
  · rfl

theorem fieldsFrom_scalar {type : FieldType ι} {value : Value}
    (hkey : Yields c.key ⟨k, type.wireType⟩ c₁) (hfield : schema.field? m k = some ⟨label, type⟩)
    (htype : ∀ i, type ≠ .message i) (hvalue : Yields (readScalar type c₁) value c₂)
    (hlimit : limit ≤ c₂.size) :
    fieldsFrom schema m room limit c =
      (fieldsFrom schema m room limit c₂).map ((k, value) :: ·) := by
  obtain ⟨hlt, hk⟩ := hkey
  obtain ⟨_, hv⟩ := hvalue
  unfold fieldsFrom
  rw [readFields, if_neg (by omega), hk]
  simp only [hfield, expect, if_true]
  cases type with
  | message i => exact absurd rfl (htype i)
  | number | bytes | text =>
    simp only [hv]
    rcases readFields schema m room limit c₂ with e | r
    · rfl
    · rfl

theorem fieldsFrom_message {i : ι} {bound : ℕ} (hkey : Yields c.key ⟨k, .delimited⟩ c₁)
    (hfield : schema.field? m k = some ⟨label, .message i⟩)
    (hbound : Yields (readLimit room c₁) bound c₂)
    (hinner : Yields (readFields schema i (room - 1) bound c₂) inner c₃)
    (hlimit : limit ≤ c₃.size) :
    fieldsFrom schema m room limit c =
      (fieldsFrom schema m room limit c₃).map ((k, .message inner) :: ·) := by
  obtain ⟨hlt, hk⟩ := hkey
  obtain ⟨hlt', hb⟩ := hbound
  obtain ⟨_, hi⟩ := hinner
  unfold fieldsFrom
  rw [readFields, if_neg (by omega), hk]
  simp only [hfield, expect, FieldType.wireType, if_true, hb, hi]
  rcases readFields schema m room limit c₃ with e | r
  · rfl
  · rfl

/-! ### What comes of a message behind several fields -/

theorem map_append_nil {ε α : Type} (x : Except ε (List α)) : x.map ([] ++ ·) = x := by
  rcases x with e | fields
  · rfl
  · rfl

theorem map_append_cons {ε α : Type} (x : Except ε (List α)) (a : α) (as : List α) :
    (x.map (as ++ ·)).map (a :: ·) = x.map (a :: as ++ ·) := by
  rcases x with e | fields
  · rfl
  · rfl

/-- **The reader goes on behind bytes that hold fields as if it had started there.** -/
theorem Holds.fieldsFrom_append {bytes rest : List UInt8} (h : Holds schema m room bytes fields)
    (hlimit : limit ≤ rest.length) :
    fieldsFrom schema m room limit (.ofBytes (bytes ++ rest)) =
      (fieldsFrom schema m room limit (.ofBytes rest)).map (fields ++ ·) := by
  have hbehind : ∀ after : List UInt8, limit ≤ (Input.ofBytes (after ++ rest)).size := by
    intro after
    rw [Input.size_ofBytes, List.length_append]
    omega
  induction h with
  | nil => exact (map_append_nil _).symm
  | @unknown m room key u v after fields hkey hfield hskip _ ih =>
    rw [List.append_assoc, List.append_assoc,
      fieldsFrom_unknown (hkey _) hfield (hskip (after ++ rest)) (hbehind after), ih]
  | @scalar m room k label type u v value after fields hkey hfield htype hvalue _ ih =>
    rw [List.append_assoc, List.append_assoc,
      fieldsFrom_scalar (hkey _) hfield htype (hvalue (after ++ rest)) (hbehind after), ih,
      map_append_cons]
  | @message m room k label i u v body inner after fields hkey hfield hlength hinner _ _ ih =>
    rw [List.append_assoc, List.append_assoc, List.append_assoc,
      fieldsFrom_message (hkey _) hfield (readLimit_of_takes hlength (after ++ rest))
        (hinner.readFields (after ++ rest)) (hbehind after), ih, map_append_cons]

/-- **A message behind another one**: what comes of both is what comes of the second one, with the
fields of the first before its own. -/
theorem decode_behind {bytes : List UInt8} (h : decode schema m bytes = .ok fields)
    (more : List UInt8) :
    decode schema m (bytes ++ more) = (decode schema m more).map (fields ++ ·) :=
  (decode_eq_ok_iff.mp h).fieldsFrom_append (Nat.zero_le _)

end GeoRules.Wire

namespace GeoRules.Geo

open Wire

theorem messages_append (number : ℕ) (fields fields' : List (ℕ × Value)) :
    messages number (fields ++ fields') = messages number fields ++ messages number fields' :=
  List.filterMap_append

/-- The lists of two databases one behind the other, each made of a message. -/
theorem map_decode_append {α : Type} {m : MessageName} {list : List (ℕ × Value) → α}
    {bytes : List UInt8} {lists : List α}
    (h : ((decode schema m bytes).map fun fields => (messages 1 fields).map list) = .ok lists)
    (more : List UInt8) :
    ((decode schema m (bytes ++ more)).map fun fields => (messages 1 fields).map list) =
      ((decode schema m more).map fun fields => (messages 1 fields).map list).map (lists ++ ·) := by
  rcases hfields : decode schema m bytes with e | fields
  · rw [hfields] at h
    cases h
  · rw [hfields] at h
    obtain rfl := Except.ok.inj h
    rw [decode_behind hfields]
    rcases decode schema m more with e | fields'
    · rfl
    · simp only [Except.map, messages_append, List.map_append]

/-- **Databases can be written one behind the other**: behind the bytes of a database, other bytes
give its lists and then their own, or fail as they do alone. -/
theorem decode_append (bytes more : List UInt8) :
    (∀ sites, decodeSites bytes = .ok sites →
      (∀ sites', decodeSites more = .ok sites' →
        decodeSites (bytes ++ more) = .ok (sites ++ sites')) ∧
      ∀ e, decodeSites more = .error e → decodeSites (bytes ++ more) = .error e) ∧
    ∀ ips, decodeIps bytes = .ok ips →
      (∀ ips', decodeIps more = .ok ips' → decodeIps (bytes ++ more) = .ok (ips ++ ips')) ∧
      ∀ e, decodeIps more = .error e → decodeIps (bytes ++ more) = .error e := by
  refine ⟨fun sites h => ?_, fun ips h => ?_⟩
  · have hboth : decodeSites (bytes ++ more) = (decodeSites more).map (sites ++ ·) :=
      map_decode_append h more
    refine ⟨fun sites' hmore => ?_, fun e hmore => ?_⟩
    · rw [hboth, hmore]
      rfl
    · rw [hboth, hmore]
      rfl
  · have hboth : decodeIps (bytes ++ more) = (decodeIps more).map (ips ++ ·) :=
      map_decode_append h more
    refine ⟨fun ips' hmore => ?_, fun e hmore => ?_⟩
    · rw [hboth, hmore]
      rfl
    · rw [hboth, hmore]
      rfl

/-- An entry behind an empty group of an unknown field, its key and its length a byte too long. -/
def looseEntry : List UInt8 := [0x5b, 0x5c, 0x8a, 0, 0x83, 0, 0x0a, 1, 0x41]

/-- Behind the loose entry, another entry is read, and one that is cut short fails as it does
alone. -/
theorem decode_append_looseEntry :
    decodeSites looseEntry = .ok [⟨"A", []⟩] ∧ decodeSites [0x0a, 0] = .ok [⟨"", []⟩] ∧
    decodeSites (looseEntry ++ [0x0a, 0]) = .ok [⟨"A", []⟩, ⟨"", []⟩] ∧
    decodeSites [0x0a, 5] = .error ⟨[("GeoSiteList", "entry")], .underflow⟩ ∧
    decodeSites (looseEntry ++ [0x0a, 5]) = .error ⟨[("GeoSiteList", "entry")], .underflow⟩ ∧
    decodeIps looseEntry = .ok [⟨"A", []⟩] ∧
    decodeIps (looseEntry ++ looseEntry) = .ok [⟨"A", []⟩, ⟨"A", []⟩] := by
  have hfirst : decodeSites looseEntry = .ok [⟨"A", []⟩] := by decide +kernel
  have hnext : decodeSites [0x0a, 0] = .ok [⟨"", []⟩] := by decide +kernel
  have hcut : decodeSites [0x0a, 5] = .error ⟨[("GeoSiteList", "entry")], .underflow⟩ := by
    decide +kernel
  have hips : decodeIps looseEntry = .ok [⟨"A", []⟩] := by decide +kernel
  exact ⟨hfirst, hnext, ((decode_append _ _).1 _ hfirst).1 _ hnext, hcut,
    ((decode_append _ _).1 _ hfirst).2 _ hcut, hips, ((decode_append _ _).2 _ hips).1 _ hips⟩

end GeoRules.Geo
