import GeoRules.Proofs.Wire.Grammar
import GeoRules.Proofs.Wire.UnknownField

/-! # Messages with unknown fields put in

`Inserted schema m room old new` says that `new` is made of the bytes `old` of the message `m` by
putting in fields that the schema does not know, at any boundary between two fields, in the messages
inside as well, whose lengths are then written anew.

Readers look at no byte beyond the ones that they take, so what is read at the head of the bytes of
a key or of a payload is the one that was written there (`eq_of_takes_key`, `eq_of_skipPayload`),
and a message is cut into its fields as it was put together (`Holds.field_cases`). With the fields
put in it holds what it held before (`Inserted.holds`). -/

namespace GeoRules.Wire

/-- **The bytes `new` are `old` with unknown fields put in** between the fields of the message `m`
and of the messages inside it. -/
inductive Inserted {ι : Type} (schema : Schema ι) : ι → ℕ → List UInt8 → List UInt8 → Prop
  | nil {m room} : Inserted schema m room [] []
  | insert {m room numbers u old new} (hrow : FieldRow room numbers u)
      (hunknown : ∀ k ∈ numbers, schema.field? m k = none) (h : Inserted schema m room old new) :
      Inserted schema m room old (u ++ new)
  | keep {m room old new} (field : ℕ × Payload) (h : Inserted schema m room old new) :
      Inserted schema m room (encodeField field ++ old) (encodeField field ++ new)
  | inside {m room k label i body body' old new}
      (hfield : schema.field? m k = some ⟨label, .message i⟩) (hfits : Fits body'.length)
      (hbody : Inserted schema i room body body') (h : Inserted schema m (room + 1) old new) :
      Inserted schema m (room + 1) (encodeField (k, .delimited body) ++ old)
        (encodeField (k, .delimited body') ++ new)

/-! ### One way to cut bytes -/

section
variable {r r' : List UInt8}

/-- If the bytes of a number are read, they are read as the number. -/
theorem SevenBits.eq_of_varintWithin? {n : ℕ} {bytes : List UInt8} (h : SevenBits n bytes)
    {more : ℕ} {v : Varint} (hv : Wire.varintWithin? more (bytes ++ r) = some v) :
    v = ⟨n, bytes.length⟩ := by
  induction h generalizing more v with
  | @last b hb =>
    rw [List.singleton_append] at hv
    cases more with
    | zero =>
      rw [Wire.varintWithin?] at hv
      split at hv
      · exact (Option.some.inj hv).symm
      · cases hv
    | succ more =>
      rw [Wire.varintWithin?, if_pos hb] at hv
      exact (Option.some.inj hv).symm
  | @more b n bytes hb h ih =>
    rw [List.cons_append] at hv
    cases more with
    | zero =>
      have hlt : ¬ b < 2 := UInt8.not_lt.mpr (UInt8.le_trans (by decide) hb)
      rw [Wire.varintWithin?, if_neg hlt] at hv
      cases hv
    | succ more =>
      rw [Wire.varintWithin?, if_neg (UInt8.not_lt.mpr hb)] at hv
      obtain ⟨w, hw, rfl⟩ := Option.map_eq_some_iff.mp hv
      rw [ih hw]
      rfl

/-- A number at the head of the bytes is the one that was written there. -/
theorem eq_of_yields_number {n k : ℕ} {v : List UInt8}
    (h : Yields (Input.ofBytes (v ++ r)).number k (.ofBytes r)) (heq : v ++ r = varint n ++ r') :
    k = n ∧ v = varint n ∧ r = r' := by
  obtain ⟨size, hv, hr⟩ := yields_number_iff.mp h
  rw [Input.bytes_ofBytes, heq] at hv hr
  obtain ⟨rfl, rfl⟩ := Varint.mk.inj ((sevenBits_varint n).eq_of_varintWithin? hv)
  rw [Input.bytes_ofBytes, List.drop_left] at hr
  subst hr
  exact ⟨rfl, List.append_cancel_right heq, rfl⟩

/-- A key at the head of the bytes is the one that was written there. -/
theorem eq_of_takes_key {key key' : Key} {u : List UInt8} (h : Takes Input.key u key)
    (heq : u ++ r = key'.encode ++ r') : key = key' ∧ u = key'.encode ∧ r = r' := by
  obtain ⟨n, hn, hkey⟩ := yields_key_iff.mp (h r)
  obtain ⟨rfl, hu, hr⟩ := eq_of_yields_number hn heq
  refine ⟨?_, hu, hr⟩
  have hcode := key'.type.code_lt
  have hmod : (8 * key'.number + key'.type.code) % 8 = key'.type.code := by omega
  have hdiv : (8 * key'.number + key'.type.code) / 8 = key'.number := by omega
  unfold Key.ofNat at hkey
  rw [hmod, hdiv, WireType.ofCode?_code] at hkey
  split at hkey
  · cases hkey
  · split at hkey
    · cases hkey
    · next htype =>
      split at hkey
      · cases hkey
      · obtain rfl := Except.ok.inj hkey
        obtain rfl := Option.some.inj htype
        rfl

/-- A length and the bytes that it counts, at the head of the bytes, are those written there. -/
theorem eq_of_length {bytes body v : List UInt8} {n : ℕ}
    (h : Yields (Input.ofBytes (v ++ (body ++ r))).number n (.ofBytes (body ++ r)))
    (hn : body.length = n) (heq : v ++ (body ++ r) = varint bytes.length ++ (bytes ++ r')) :
    v = varint bytes.length ∧ body = bytes ∧ r = r' := by
  obtain ⟨hlength, hv, hrest⟩ := eq_of_yields_number h heq
  obtain ⟨hbody, hr⟩ := List.append_inj hrest (hn.trans hlength)
  exact ⟨hv, hbody, hr⟩

theorem eq_of_yields_delimited {bytes body v : List UInt8}
    (h : Yields (Input.ofBytes (v ++ r)).delimited body (.ofBytes r))
    (heq : v ++ r = varint bytes.length ++ (bytes ++ r')) :
    v = varint bytes.length ++ bytes ∧ r = r' := by
  obtain ⟨n, c, hnumber, htake⟩ := yields_delimited_iff.mp h
  obtain ⟨used, hused, ht⟩ := frugal_number _ _ _ hnumber
  obtain ⟨hn, hc⟩ := yields_take_iff.mp htake
  rw [Input.bytes_ofBytes] at hused hc
  rw [hc] at hused
  have hv : v = used ++ body :=
    List.append_cancel_right (hused.trans (List.append_assoc ..).symm)
  obtain ⟨hlength, hbody, hr⟩ := eq_of_length (ht _) hn (hused.symm.trans heq)
  rw [hv, hlength, hbody]
  exact ⟨rfl, hr⟩

/-- A payload that can be skipped is the one that was written. -/
theorem eq_of_skipPayload {p : Payload} {v : List UInt8}
    (h : Yields (skipPayload p.wireType (.ofBytes (v ++ r))) () (.ofBytes r))
    (heq : v ++ r = p.encode ++ r') : v = p.encode ∧ r = r' := by
  cases p with
  | number n =>
    obtain ⟨k, hk⟩ := yields_skipPayload_varint.mp h
    exact (eq_of_yields_number hk heq).2
  | delimited bytes =>
    obtain ⟨body, hbody⟩ := yields_skipPayload_delimited.mp h
    rw [Payload.encode, List.append_assoc] at heq
    exact eq_of_yields_delimited hbody heq

/-- A value that can be read can be skipped. -/
theorem skipPayload_of_readScalar {ι : Type} {type : FieldType ι} {c rest : Input} {value : Value}
    (h : Yields (readScalar type c) value rest) :
    Yields (skipPayload type.wireType c) () rest := by
  cases type with
  | number =>
    obtain ⟨n, hn, -⟩ := (yields_map_iff (f := Value.number) (by intro r; exact ⟨rfl, rfl⟩)).mp h
    exact yields_skipPayload_varint.mpr ⟨n, hn⟩
  | text =>
    obtain ⟨bytes, hbytes, -⟩ := yields_text_iff.mp h
    exact yields_skipPayload_delimited.mpr ⟨bytes, hbytes⟩
  | bytes | message i =>
    obtain ⟨bytes, hbytes, -⟩ :=
      (yields_map_iff (f := Value.bytes) (by intro r; exact ⟨rfl, rfl⟩)).mp h
    exact yields_skipPayload_delimited.mpr ⟨bytes, hbytes⟩

/-- A field that is skipped without being a group is skipped as its payload. -/
theorem skipPayload_of_skipField {room : ℕ} {key : Key} {c rest : Input}
    (hkey : key.type ≠ .groupStart) (h : Yields (skipField room key c) () rest) :
    Yields (skipPayload key.type c) () rest := by
  by_cases hroom : room = 0
  · rw [skipField, if_pos hroom] at h
    exact absurd h not_yields_error
  · rcases skipField_cases hroom key with ⟨hstart, -⟩ | ⟨-, hskip⟩
    · exact absurd hstart hkey
    · rwa [hskip] at h

end

/-! ### Messages field by field -/

section
variable {ι : Type} {schema : Schema ι} {m : ι} {room : ℕ} {old new : List UInt8}
  {fields : List (ℕ × Value)}

theorem Payload.wireType_ne_groupStart (p : Payload) : p.wireType ≠ .groupStart := by
  cases p with
  | number | delimited => simp [Payload.wireType]

theorem Key.encode_ne_nil (key : Key) : key.encode ≠ [] :=
  List.ne_nil_of_length_pos (sevenBits_varint _).length_pos

/-- **The field that a message starts with** is unknown, or holds a message or some other value, and
behind it the message goes on. -/
theorem Holds.field_cases {k : ℕ} {p : Payload}
    (h : Holds schema m room (encodeField (k, p) ++ old) fields) :
    Takes Input.key (Key.encode ⟨k, p.wireType⟩) ⟨k, p.wireType⟩ ∧
    ((schema.field? m k = none ∧ Takes (skipField room ⟨k, p.wireType⟩) p.encode () ∧
        Holds schema m room old fields) ∨
      ∃ label type value more, schema.field? m k = some ⟨label, type⟩ ∧
        type.wireType = p.wireType ∧ fields = (k, value) :: more ∧ Holds schema m room old more ∧
        (((∀ i, type ≠ .message i) ∧ Takes (readScalar type) p.encode value) ∨
          ∃ i room' body inner, type = .message i ∧ room = room' + 1 ∧ p = .delimited body ∧
            value = .message inner ∧ Takes Input.number (varint body.length) body.length ∧
            Holds schema i room' body inner)) := by
  rw [encodeField, List.append_assoc] at h
  generalize hbytes : Key.encode ⟨k, p.wireType⟩ ++ (p.encode ++ old) = bytes at h
  cases h with
  | nil => exact absurd (List.append_eq_nil_iff.mp hbytes).1 (Key.encode_ne_nil _)
  | @unknown _ _ key u v rest _ hkey hfield hskip h =>
    obtain ⟨rfl, rfl, hbehind⟩ := eq_of_takes_key hkey hbytes.symm
    obtain ⟨rfl, rfl⟩ := eq_of_skipPayload
      (skipPayload_of_skipField p.wireType_ne_groupStart (hskip rest)) hbehind
    exact ⟨hkey, Or.inl ⟨hfield, hskip, h⟩⟩
  | @scalar _ _ _ label type u v value rest more hkey hfield htype hvalue h =>
    obtain ⟨hkeys, rfl, hbehind⟩ := eq_of_takes_key hkey hbytes.symm
    obtain ⟨rfl, hwire⟩ := Key.mk.inj hkeys
    obtain ⟨rfl, rfl⟩ := eq_of_skipPayload
      (hwire ▸ skipPayload_of_readScalar (hvalue rest)) hbehind
    exact ⟨hwire ▸ hkey, Or.inr
      ⟨label, type, value, more, hfield, hwire, rfl, h, Or.inl ⟨htype, hvalue⟩⟩⟩
  | @message _ room _ label i u v body inner rest more hkey hfield hlength hinner h =>
    obtain ⟨hkeys, rfl, hbehind⟩ := eq_of_takes_key hkey hbytes.symm
    obtain ⟨rfl, hwire⟩ := Key.mk.inj hkeys
    cases p with
    | number n => cases hwire
    | delimited bytes =>
      rw [Payload.encode, List.append_assoc] at hbehind
      obtain ⟨rfl, rfl, rfl⟩ := eq_of_length (hlength _) rfl hbehind
      exact ⟨hkey, Or.inr ⟨label, .message i, _, more, hfield, rfl, rfl, h,
        Or.inr ⟨i, room, body, inner, rfl, rfl, rfl, rfl, hlength, hinner⟩⟩⟩

/-- Behind the bytes of a field, a message could go on in any other way. -/
theorem Holds.keep {field : ℕ × Payload}
    (h : Holds schema m room (encodeField field ++ old) fields)
    (hold : ∀ more, Holds schema m room old more → Holds schema m room new more) :
    Holds schema m room (encodeField field ++ new) fields := by
  obtain ⟨k, p⟩ := field
  obtain ⟨hkey, ⟨hfield, hskip, hmore⟩ | ⟨label, type, value, more, hfield, hwire, rfl, hmore,
    ⟨htype, hvalue⟩ | ⟨i, room, body, inner, rfl, rfl, rfl, rfl, hlength, hinner⟩⟩⟩ := h.field_cases
  · rw [encodeField, List.append_assoc]
    exact .unknown hkey hfield hskip (hold _ hmore)
  · rw [encodeField, List.append_assoc]
    exact .scalar (hwire ▸ hkey) hfield htype hvalue (hold _ hmore)
  · rw [encodeField, Payload.encode, List.append_assoc, List.append_assoc]
    exact .message hkey hfield hlength hinner (hold _ hmore)

/-- In a field that holds a message, there could be any other bytes of a message with what it
holds. -/
theorem Holds.inside {k : ℕ} {label : String} {i : ι} {body body' : List UInt8}
    (hfield : schema.field? m k = some ⟨label, .message i⟩) (hfits : Fits body'.length)
    (h : Holds schema m (room + 1) (encodeField (k, .delimited body) ++ old) fields)
    (hbody : ∀ inner, Holds schema i room body inner → Holds schema i room body' inner)
    (hold : ∀ more, Holds schema m (room + 1) old more → Holds schema m (room + 1) new more) :
    Holds schema m (room + 1) (encodeField (k, .delimited body') ++ new) fields := by
  obtain ⟨hkey, ⟨hunknown, -⟩ | ⟨label', type, value, more, hknown, -, rfl, hmore, hvalue⟩⟩ :=
    h.field_cases
  · cases hunknown.symm.trans hfield
  · cases Option.some.inj (hknown.symm.trans hfield)
    rcases hvalue with ⟨htype, -⟩ | ⟨i', room', body, inner, htype, hroom, hp, rfl, -, hinner⟩
    · exact absurd rfl (htype i)
    · cases htype
      obtain rfl : room = room' := Nat.succ.inj hroom
      cases hp
      rw [encodeField, Payload.encode, List.append_assoc, List.append_assoc]
      exact .message hkey hfield (number_yields hfits) (hbody _ hinner) (hold _ hmore)

/-- **Unknown fields may stand before the fields of a message.** -/
theorem FieldRow.holds {numbers : List ℕ} {u : List UInt8} (h : FieldRow room numbers u)
    (hunknown : ∀ k ∈ numbers, schema.field? m k = none) (hnew : Holds schema m room new fields) :
    Holds schema m room (u ++ new) fields := by
  induction h with
  | nil => exact hnew
  | plain hkey hpayload _ ih =>
    obtain ⟨hk, hks⟩ := List.forall_mem_cons.mp hunknown
    rw [List.append_assoc, List.append_assoc]
    exact .unknown hkey.takes hk hpayload.takes_field (ih hks hnew)
  | @group room k ks inner u v body rest hstart hbody hend _ _ ih =>
    obtain ⟨hk, hks⟩ := List.forall_mem_cons.mp hunknown
    have hbytes : u ++ (body ++ (v ++ rest)) ++ new = u ++ (body ++ v ++ (rest ++ new)) := by
      simp only [List.append_assoc]
    rw [hbytes]
    exact .unknown hstart.takes hk (hbody.takes_group hend) (ih hks hnew)

/-- **A message with unknown fields put in holds what it held before.** -/
theorem Inserted.holds (h : Inserted schema m room old new)
    (hold : Holds schema m room old fields) : Holds schema m room new fields := by
  induction h generalizing fields with
  | nil => exact hold
  | insert hrow hunknown _ ih => exact hrow.holds hunknown (ih hold)
  | keep field _ ih => exact hold.keep fun _ => ih
  | inside hfield hfits _ _ ihbody ih =>
    exact hold.inside hfield hfits (fun _ => ihbody) fun _ => ih

/-- **It decodes to what it decoded to before.** -/
theorem Inserted.map_decode {α : Type} {f : List (ℕ × Value) → α} {a : α}
    (h : Inserted schema m maxDepth old new) (hold : (decode schema m old).map f = .ok a) :
    (decode schema m new).map f = .ok a := by
  rcases hfields : decode schema m old with e | fields
  · rw [hfields] at hold
    cases hold
  · rw [hfields] at hold
    rw [decode_eq_ok_iff.mpr (h.holds (decode_eq_ok_iff.mp hfields))]
    exact hold

/-! ### Where unknown fields can be put in -/

theorem encode_append (f g : List (ℕ × Payload)) : encode (f ++ g) = encode f ++ encode g :=
  List.flatMap_append

theorem Inserted.behind (f : List (ℕ × Payload)) (h : Inserted schema m room old new) :
    Inserted schema m room (encode f ++ old) (encode f ++ new) := by
  induction f with
  | nil => exact h
  | cons field f ih =>
    rw [encode, List.flatMap_cons, ← encode, List.append_assoc, List.append_assoc]
    exact .keep field ih

theorem Inserted.refl (f : List (ℕ × Payload)) : Inserted schema m room (encode f) (encode f) := by
  have h : Inserted schema m room (encode f ++ []) (encode f ++ []) := .behind f .nil
  rwa [List.append_nil] at h

/-- At every boundary between two fields. -/
theorem FieldRow.inserted {numbers : List ℕ} {u : List UInt8} (hrow : FieldRow room numbers u)
    (hunknown : ∀ k ∈ numbers, schema.field? m k = none) (f g : List (ℕ × Payload)) :
    Inserted schema m room (encode (f ++ g)) (encode f ++ (u ++ encode g)) := by
  rw [encode_append]
  exact .behind f (.insert hrow hunknown (.refl g))

/-- In every message inside. -/
theorem Inserted.within {k : ℕ} {label : String} {i : ι} {inner : List (ℕ × Payload)}
    {body : List UInt8} (hfield : schema.field? m k = some ⟨label, .message i⟩)
    (hfits : Fits body.length) (h : Inserted schema i room (encode inner) body)
    (f g : List (ℕ × Payload)) :
    Inserted schema m (room + 1) (encode (f ++ (k, .delimited (encode inner)) :: g))
      (encode f ++ (encodeField (k, .delimited body) ++ encode g)) := by
  rw [encode_append]
  exact .behind f (.inside hfield hfits h (.refl g))

end

end GeoRules.Wire
