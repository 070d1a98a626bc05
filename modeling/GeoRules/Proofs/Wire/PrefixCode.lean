import GeoRules.Proofs.Wire.UnknownField

/-! # Encoded fields can be cut in one way only

Numbers, keys and fields are prefix codes: bytes that begin with the code of a field determine the
field and the bytes behind it (`encodeField_append_inj`). A message is therefore encoded as no other
list of fields is (`encode_injective`). Lengths are not bounded here, as a decoder would have it. -/

namespace GeoRules.Wire

variable {r r' : List UInt8}

/-! ### Numbers -/

theorem SevenBits.append_inj {n n' : ℕ} {u u' : List UInt8} (h : SevenBits n u)
    (h' : SevenBits n' u') (heq : u ++ r = u' ++ r') : n = n' ∧ r = r' := by
  induction h generalizing n' u' with
  | last hb =>
    cases h' with
    | last =>
      obtain ⟨rfl, rfl⟩ := List.cons.inj heq
      exact ⟨rfl, rfl⟩
    | more hb' =>
      -- a last byte is below 128, all others are not
      obtain ⟨rfl, -⟩ := List.cons.inj heq
      exact absurd hb (UInt8.not_lt.mpr hb')
  | more hb _ ih =>
    cases h' with
    | last hb' =>
      obtain ⟨rfl, -⟩ := List.cons.inj heq
      exact absurd hb' (UInt8.not_lt.mpr hb)
    | more _ h' =>
      obtain ⟨rfl, htail⟩ := List.cons.inj heq
      obtain ⟨rfl, rfl⟩ := ih h' htail
      exact ⟨rfl, rfl⟩

theorem varint_append_inj {n n' : ℕ} (h : varint n ++ r = varint n' ++ r') : n = n' ∧ r = r' :=
  (sevenBits_varint n).append_inj (sevenBits_varint n') h

/-! ### Keys and payloads -/

theorem WireType.code_injective : Function.Injective WireType.code := fun t t' h => by
  have hcode := WireType.ofCode?_code t
  rw [h, WireType.ofCode?_code] at hcode
  exact (Option.some.inj hcode).symm

theorem Key.encode_append_inj {key key' : Key} (h : key.encode ++ r = key'.encode ++ r') :
    key = key' ∧ r = r' := by
  obtain ⟨hn, hr⟩ := varint_append_inj h
  obtain ⟨number, type⟩ := key
  obtain ⟨number', type'⟩ := key'
  have hcode := type.code_lt
  have hcode' := type'.code_lt
  obtain rfl : number = number' := by simp only at hn; omega
  obtain rfl : type = type' := WireType.code_injective (by simp only at hn; omega)
  exact ⟨rfl, hr⟩

/-- Payloads of one wire type. -/
theorem Payload.encode_append_inj {p p' : Payload} (htype : p.wireType = p'.wireType)
    (h : p.encode ++ r = p'.encode ++ r') : p = p' ∧ r = r' := by
  cases p with
  | number n =>
    cases p' with
    | number n' =>
      obtain ⟨rfl, hr⟩ := varint_append_inj h
      exact ⟨rfl, hr⟩
    | delimited bytes' => cases htype
  | delimited bytes =>
    cases p' with
    | number n' => cases htype
    | delimited bytes' =>
      rw [Payload.encode, Payload.encode, List.append_assoc, List.append_assoc] at h
      obtain ⟨hlength, hrest⟩ := varint_append_inj h
      obtain ⟨rfl, hr⟩ := List.append_inj hrest hlength
      exact ⟨rfl, hr⟩

/-! ### Fields and messages -/

/-- **A field is a prefix code.** -/
theorem encodeField_append_inj {f f' : ℕ × Payload}
    (h : encodeField f ++ r = encodeField f' ++ r') :
    f = f' ∧ r = r' := by
  rw [encodeField, encodeField, List.append_assoc, List.append_assoc] at h
  obtain ⟨hkey, hrest⟩ := Key.encode_append_inj h
  obtain ⟨hnumber, htype⟩ := Key.mk.inj hkey
  obtain ⟨hpayload, hr⟩ := Payload.encode_append_inj htype hrest
  exact ⟨Prod.ext hnumber hpayload, hr⟩

theorem encodeField_ne_nil (f : ℕ × Payload) : encodeField f ≠ [] := by
  refine List.append_ne_nil_of_left_ne_nil ?_ _
  exact List.ne_nil_of_length_pos (sevenBits_varint _).length_pos

/-- **Different fields make different messages.** -/
theorem encode_injective : Function.Injective encode := by
  intro fields fields' h
  induction fields generalizing fields' with
  | nil =>
    cases fields' with
    | nil => rfl
    | cons f' fields' =>
      exact absurd (List.append_eq_nil_iff.mp h.symm).1 (encodeField_ne_nil f')
  | cons f fields ih =>
    cases fields' with
    | nil => exact absurd (List.append_eq_nil_iff.mp h).1 (encodeField_ne_nil f)
    | cons f' fields' =>
      obtain ⟨rfl, hrest⟩ := encodeField_append_inj h
      rw [ih hrest]

end GeoRules.Wire
