import GeoRules.Geo.Codec
import GeoRules.Proofs.Wire.Grammar

/-! # Decoding slice by slice

A message can be decoded in another way: the bytes of every message inside it are cut out first, and
are then decoded alone (`sliceFields`). A field in such a slice cannot go on behind its end.

Both ways follow the grammar of messages (`sliceFields_eq_some_iff`), so they accept the same bytes
and find the same fields in them, although the faults that they report may differ. -/

namespace GeoRules.Wire

variable {ι : Type} {schema : Schema ι} {m : ι} {room : ℕ} {c : Input} {fields : List (ℕ × Value)}

/-- **The fields of the message `m` that the input holds**, each message inside it decoded from its
own bytes alone. -/
def sliceFields {ι : Type} (schema : Schema ι) (m : ι) (room : ℕ) (c : Input) :
    Option (List (ℕ × Value)) :=
  if c.size = 0 then some []
  else match c.key with
    | .error _ => none
    | .ok key => match schema.field? m key.value.number with
      | none => match skipField room key.value key.rest with
        | .error _ => none
        | .ok skipped => sliceFields schema m room skipped.rest
      | some field =>
        if key.value.type ≠ field.type.wireType then none
        else match field.type with
          | .message i =>
            if room = 0 then none
            else match key.rest.delimited with
              | .error _ => none
              | .ok slice => match sliceFields schema i (room - 1) (.ofBytes slice.value) with
                | none => none
                | some inner => (sliceFields schema m room slice.rest).map
                    ((key.value.number, .message inner) :: ·)
          | type => match readScalar type key.rest with
            | .error _ => none
            | .ok value => (sliceFields schema m room value.rest).map
                ((key.value.number, value.value) :: ·)
termination_by (room, c.size)
decreasing_by
  · have := key.lt; have := skipped.lt; exact Prod.Lex.right _ (by omega)
  · exact Prod.Lex.left _ _ (by omega)
  · have := key.lt; have := slice.lt; exact Prod.Lex.right _ (by omega)
  · have := key.lt; have := value.lt; exact Prod.Lex.right _ (by omega)

/-- What slices hold is held by the message that they were cut from. -/
theorem holds_of_sliceFields (h : sliceFields schema m room c = some fields) :
    Holds schema m room c.bytes fields := by
  fun_induction sliceFields schema m room c generalizing fields with
  | case1 m room c hend =>
    obtain rfl := Option.some.inj h
    have hbytes : c.bytes = [] := List.eq_nil_of_length_eq_zero (c.size_eq ▸ hend)
    rw [hbytes]
    exact .nil
  | case4 m room c hend key hkey hfield skipped hskip ih =>
    obtain ⟨u, hc, hu⟩ := frugal_key _ _ _ (Yields.intro hkey rfl)
    obtain ⟨v, hc₁, hv⟩ := frugal_skipField room key.value _ _ _ (Yields.intro hskip rfl)
    rw [hc, hc₁]
    exact .unknown hu hfield hv (ih h)
  | case9 m room c hend key hkey field hfield htype i hi hroom slice hslice inner hinner ihi ih =>
    obtain ⟨more, hmore, rfl⟩ := Option.map_eq_some_iff.mp h
    obtain ⟨room, rfl⟩ := Nat.exists_eq_succ_of_ne_zero hroom
    obtain ⟨u, hc, hu⟩ := frugal_key _ _ _ (Yields.intro hkey rfl)
    obtain ⟨n, c₁, hnumber, htake⟩ := yields_delimited_iff.mp (Yields.intro hslice rfl)
    obtain ⟨v, hc₁, hv⟩ := frugal_number _ _ _ hnumber
    obtain ⟨rfl, hbody⟩ := yields_take_iff.mp htake
    obtain ⟨label, type⟩ := field
    obtain rfl : type = .message i := hi
    have hwire : key.value.type = .delimited := not_ne_iff.mp htype
    rw [hc, hc₁, hbody]
    exact .message (hwire ▸ hu) hfield hv (ihi hinner) (ih hmore)
  | case11 m room c hend key hkey field hfield htype value hscalar hvalue ih =>
    obtain ⟨more, hmore, rfl⟩ := Option.map_eq_some_iff.mp h
    obtain ⟨u, hc, hu⟩ := frugal_key _ _ _ (Yields.intro hkey rfl)
    obtain ⟨v, hc₁, hv⟩ := frugal_readScalar field.type _ _ _ (Yields.intro hvalue rfl)
    have hwire : key.value.type = field.type.wireType := not_ne_iff.mp htype
    rw [hc, hc₁]
    exact .scalar (hwire ▸ hu) hfield hscalar hv (ih hmore)
  | case2 => cases h
  | case3 => cases h
  | case5 => cases h
  | case6 => cases h
  | case7 => cases h
  | case8 => cases h
  | case10 => cases h

/-- A message can be decoded by slices if its bytes hold its fields. -/
theorem sliceFields_of_holds {bytes : List UInt8} (h : Holds schema m room bytes fields) :
    sliceFields schema m room (.ofBytes bytes) = some fields := by
  induction h with
  | nil => simp [sliceFields]
  | @unknown m room key u v rest fields hkey hfield hskip _ ih =>
    obtain ⟨hlt, hk⟩ := hkey (v ++ rest)
    obtain ⟨_, hs⟩ := hskip rest
    have hend : (Input.ofBytes (u ++ (v ++ rest))).size ≠ 0 := by omega
    rw [sliceFields, if_neg hend, hk]
    simp only [hfield, hs]
    exact ih
  | @scalar m room k label type u v value rest fields hkey hfield htype hvalue _ ih =>
    obtain ⟨hlt, hk⟩ := hkey (v ++ rest)
    obtain ⟨_, hv⟩ := hvalue rest
    have hend : (Input.ofBytes (u ++ (v ++ rest))).size ≠ 0 := by omega
    rw [sliceFields, if_neg hend, hk]
    cases type with
    | message i => exact absurd rfl (htype i)
    | number | text | bytes => simp [hfield, hv, ih]
  | @message m room k label i u v body inner rest fields hkey hfield hlength _ _ ihi ih =>
    obtain ⟨hlt, hk⟩ := hkey (v ++ (body ++ rest))
    obtain ⟨_, hslice⟩ : Yields (Input.ofBytes (v ++ (body ++ rest))).delimited body
        (.ofBytes rest) :=
      yields_delimited_iff.mpr ⟨_, _, hlength _, yields_take_iff.mpr ⟨rfl, rfl⟩⟩
    have hend : (Input.ofBytes (u ++ (v ++ (body ++ rest)))).size ≠ 0 := by omega
    rw [sliceFields, if_neg hend, hk]
    simp [hfield, FieldType.wireType, hslice, ihi, ih]

theorem sliceFields_eq_some_iff {bytes : List UInt8} :
    sliceFields schema m room (.ofBytes bytes) = some fields ↔ Holds schema m room bytes fields :=
  ⟨holds_of_sliceFields, sliceFields_of_holds⟩

end GeoRules.Wire

namespace GeoRules.Geo

open Wire

/-- The site database that the bytes encode, decoded slice by slice. -/
def sliceSites (bytes : List UInt8) : Option (List GeoSite) :=
  (sliceFields schema .geoSiteList maxDepth (.ofBytes bytes)).map fun fields =>
    (messages 1 fields).map siteOf

/-- The address database that the bytes encode, decoded slice by slice. -/
def sliceIps (bytes : List UInt8) : Option (List GeoIp) :=
  (sliceFields schema .geoIpList maxDepth (.ofBytes bytes)).map fun fields =>
    (messages 1 fields).map ipOf

/-- What `decode` accepts is what can be decoded by slices. -/
theorem map_decode_eq_ok_iff {α : Type} (f : List (ℕ × Value) → α) (m : MessageName)
    (bytes : List UInt8) (a : α) : (decode schema m bytes).map f = .ok a ↔
      (sliceFields schema m maxDepth (.ofBytes bytes)).map f = some a := by
  have hoption : (decode schema m bytes).toOption =
      sliceFields schema m maxDepth (.ofBytes bytes) := by
    ext fields
    rw [sliceFields_eq_some_iff, ← decode_eq_ok_iff]
    rcases decode schema m bytes with e | r
    · simp [Except.toOption]
    · simp [Except.toOption]
  rw [← hoption]
  rcases decode schema m bytes with e | r
  · simp [Except.map, Except.toOption]
  · simp [Except.map, Except.toOption]

/-- **Decoding a database agrees with decoding it slice by slice**: both accept the same bytes and
find the same lists in them. -/
theorem decode_agrees_with_slices (bytes : List UInt8) :
    (∀ sites, decodeSites bytes = .ok sites ↔ sliceSites bytes = some sites) ∧
      ∀ ips, decodeIps bytes = .ok ips ↔ sliceIps bytes = some ips :=
  ⟨map_decode_eq_ok_iff _ .geoSiteList bytes, map_decode_eq_ok_iff _ .geoIpList bytes⟩

end GeoRules.Geo
