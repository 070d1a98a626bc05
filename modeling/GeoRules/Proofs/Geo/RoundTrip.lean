import GeoRules.Geo.Codec
import GeoRules.Proofs.Wire.RoundTrip
import Mathlib.Data.List.Basic

/-! # Databases are read back from their bytes

For every message of a database the values are listed as which its fields are read: a field that was
left out is missing there too. The fields represent these values (`represents_siteFields`,
`represents_ipFields`), and a message is made again from its values (`siteOf_siteValues`,
`ipOf_ipValues`), because a missing field counts as its default.

The only condition is that the length of no message exceeds 64 bits; a database that is held in
memory has no such message. -/

namespace GeoRules.Geo

open Wire

/-! ### The values of a message -/

/-- The values of a text field. -/
def textValues (k : ℕ) (s : String) : List (ℕ × Value) := if s = "" then [] else [(k, .text s)]

/-- The values of a number field. -/
def numberValues (k n : ℕ) : List (ℕ × Value) := if n = 0 then [] else [(k, .number n)]

/-- The values of a bytes field. -/
def bytesValues (k : ℕ) (bytes : List UInt8) : List (ℕ × Value) :=
  if bytes = [] then [] else [(k, .bytes bytes)]

/-- The values of the messages. -/
def messageValues {α : Type} (k : ℕ) (values : α → List (ℕ × Value)) (ms : List α) :
    List (ℕ × Value) :=
  ms.map fun m => (k, .message (values m))

/-- The values of an attribute's value. -/
def typedValues : Option AttributeValue → List (ℕ × Value)
  | none => []
  | some (.flag b) => [(2, .number b.toNat)]
  | some (.number n) => [(3, .number n.toUInt64.toNat)]

/-- The values of an attribute. -/
def attributeValues (a : DomainAttribute) : List (ℕ × Value) :=
  textValues 1 a.key ++ typedValues a.value

/-- The values of a domain. -/
def domainValues (d : Domain) : List (ℕ × Value) :=
  numberValues 1 d.typeCode.toInt64.toUInt64.toNat ++ textValues 2 d.value ++
    messageValues 3 attributeValues d.attributes

/-- The values of a site. -/
def siteValues (s : GeoSite) : List (ℕ × Value) :=
  textValues 1 s.code ++ messageValues 2 domainValues s.domains

/-- The values of an address range. -/
def cidrValues (c : Cidr) : List (ℕ × Value) :=
  bytesValues 1 c.address ++ numberValues 2 c.bits.toNat

/-- The values of a list of address ranges. -/
def ipValues (g : GeoIp) : List (ℕ × Value) :=
  textValues 1 g.code ++ messageValues 2 cidrValues g.ranges

/-! ### Fields represent their values -/

theorem schema_numbered : schema.Numbered := by
  intro m k field h
  change m.field? k = some field at h
  unfold MessageName.field? at h
  split at h
  all_goals first | decide | cases h

section Represents
variable {m : MessageName} {depth k : ℕ} {label : String}

theorem represents_textField {s : String}
    (hfield : schema.field? m k = some ⟨label, .text⟩)
    (h : Fits (encode (textField k s)).length) :
    Represents schema m depth (textField k s) (textValues k s) := by
  unfold textField textValues at *
  split
  · exact .nil
  · next hs =>
    rw [if_neg hs] at h
    exact .text hfield (h.of_le (length_le_of_mem List.mem_cons_self)) .nil

theorem represents_bytesField {bytes : List UInt8}
    (hfield : schema.field? m k = some ⟨label, .bytes⟩)
    (h : Fits (encode (bytesField k bytes)).length) :
    Represents schema m depth (bytesField k bytes) (bytesValues k bytes) := by
  unfold bytesField bytesValues at *
  split
  · exact .nil
  · next hb =>
    rw [if_neg hb] at h
    exact .bytes hfield (h.of_le (length_le_of_mem List.mem_cons_self)) .nil

theorem represents_numberField {n : ℕ}
    (hfield : schema.field? m k = some ⟨label, .number⟩) (hn : Fits n) :
    Represents schema m depth (numberField k n) (numberValues k n) := by
  unfold numberField numberValues
  split
  · exact .nil
  · exact .number hfield hn .nil

theorem represents_messageFields {α : Type} {i : MessageName} {fields : α → List (ℕ × Payload)}
    {values : α → List (ℕ × Value)} {ms : List α}
    (hfield : schema.field? m k = some ⟨label, .message i⟩)
    (hfits : ∀ a ∈ ms, Fits (encode (fields a)).length)
    (h : ∀ a, Fits (encode (fields a)).length → Represents schema i depth (fields a) (values a)) :
    Represents schema m (depth + 1) (messageFields k fields ms) (messageValues k values ms) := by
  induction ms with
  | nil => exact .nil
  | cons a ms ih =>
    have ha := hfits a List.mem_cons_self
    exact .message hfield ha (h a ha) (ih fun b hb => hfits b (List.mem_cons_of_mem _ hb))

theorem fits_of_mem {α : Type} {fields : α → List (ℕ × Payload)} {ms : List α}
    (h : Fits (encode (messageFields k fields ms)).length) :
    ∀ a ∈ ms, Fits (encode (fields a)).length := by
  intro a ha
  have hmem : (k, Payload.delimited (encode (fields a))) ∈ messageFields k fields ms :=
    List.mem_map.mpr ⟨a, ha, rfl⟩
  exact h.of_le (length_le_of_mem hmem)

end Represents

theorem represents_attributeFields {depth : ℕ} {a : DomainAttribute}
    (h : Fits (encode (attributeFields a)).length) :
    Represents schema .attribute depth (attributeFields a) (attributeValues a) := by
  refine (represents_textField rfl (fits_append h).1).append ?_
  rcases a.value with _ | b | n
  · exact .nil
  · exact .number rfl (by cases b <;> decide) .nil
  · exact .number rfl n.toUInt64.toNat_lt .nil

theorem represents_domainFields {depth : ℕ} {d : Domain}
    (h : Fits (encode (domainFields d)).length) :
    Represents schema .domain (depth + 1) (domainFields d) (domainValues d) := by
  obtain ⟨hscalars, hattributes⟩ := fits_append h
  obtain ⟨-, hvalue⟩ := fits_append hscalars
  exact ((represents_numberField rfl (UInt64.toNat_lt _)).append
    (represents_textField rfl hvalue)).append
      (represents_messageFields rfl (fits_of_mem hattributes)
        fun _ => represents_attributeFields)

theorem represents_siteFields {depth : ℕ} {s : GeoSite}
    (h : Fits (encode (siteFields s)).length) :
    Represents schema .geoSite (depth + 2) (siteFields s) (siteValues s) := by
  obtain ⟨hcode, hdomains⟩ := fits_append h
  exact (represents_textField rfl hcode).append
    (represents_messageFields rfl (fits_of_mem hdomains)
      fun _ => represents_domainFields)

theorem represents_cidrFields {depth : ℕ} {c : Cidr} (h : Fits (encode (cidrFields c)).length) :
    Represents schema .cidr depth (cidrFields c) (cidrValues c) := by
  have hbits : Fits c.bits.toNat := Nat.lt_trans c.bits.toNat_lt (by decide)
  exact (represents_bytesField rfl (fits_append h).1).append
    (represents_numberField rfl hbits)

theorem represents_ipFields {depth : ℕ} {g : GeoIp} (h : Fits (encode (ipFields g)).length) :
    Represents schema .geoIp (depth + 1) (ipFields g) (ipValues g) := by
  obtain ⟨hcode, hranges⟩ := fits_append h
  exact (represents_textField rfl hcode).append
    (represents_messageFields rfl (fits_of_mem hranges)
      fun _ => represents_cidrFields)

/-! ### Messages are made again from their values -/

theorem ofNat_typeCode (x : Int32) : Int32.ofNat x.toInt64.toUInt64.toNat = x := by
  have h : Int32.ofNat x.toInt64.toUInt64.toNat = x.toInt64.toInt32 := by
    apply Int32.toBitVec_inj.mp
    rw [Int32.toBitVec_ofNat', Int64.toBitVec_toInt32,
      BitVec.signExtend_eq_setWidth_of_le _ (by decide), ← BitVec.ofNat_toNat]
    rfl
  rw [h, Int32.toInt32_toInt64]

theorem ofNat_number (x : Int64) : Int64.ofNat x.toUInt64.toNat = x := by
  apply Int64.toBitVec_inj.mp
  rw [Int64.toBitVec_ofNat', BitVec.ofNat_uInt64ToNat, Int64.toBitVec_toUInt64]

section OfValues
variable {k : ℕ} {fields : List (ℕ × Value)}

/-- The fields that go by the number. -/
def under (k : ℕ) (fields : List (ℕ × Value)) : List (ℕ × Value) := fields.filter (·.1 = k)

@[simp] theorem under_append (k : ℕ) (fields fields' : List (ℕ × Value)) :
    under k (fields ++ fields') = under k fields ++ under k fields' :=
  List.filter_append ..

@[simp] theorem under_textValues (k j : ℕ) (s : String) :
    under k (textValues j s) = if j = k then textValues j s else [] := by
  unfold under textValues
  split <;> split <;> simp_all

@[simp] theorem under_numberValues (k j n : ℕ) :
    under k (numberValues j n) = if j = k then numberValues j n else [] := by
  unfold under numberValues
  split <;> split <;> simp_all

@[simp] theorem under_bytesValues (k j : ℕ) (bytes : List UInt8) :
    under k (bytesValues j bytes) = if j = k then bytesValues j bytes else [] := by
  unfold under bytesValues
  split <;> split <;> simp_all

@[simp] theorem under_messageValues {α : Type} (k j : ℕ) (values : α → List (ℕ × Value))
    (ms : List α) :
    under k (messageValues j values ms) = if j = k then messageValues j values ms else [] := by
  unfold under messageValues
  split <;> simp_all

/-- A scan that passes over the fields of other numbers sees only those of its own. -/
theorem filterMap_eq_of_under {α : Type} {f : ℕ × Value → Option α}
    (hf : ∀ j v, j ≠ k → f (j, v) = none) {values : List (ℕ × Value)}
    (h : under k fields = values) : fields.filterMap f = values.filterMap f := by
  rw [← h, under, List.filterMap_filter]
  refine List.filterMap_congr fun ⟨j, v⟩ _ => ?_
  by_cases hj : j = k
  · simp [hj]
  · simp [hj, hf j v hj]

theorem lastText_eq {s : String} (h : under k fields = textValues k s) :
    lastText k fields = s := by
  unfold lastText
  rw [filterMap_eq_of_under (fun j v hj => by cases v <;> simp [hj]) h]
  by_cases hs : s = ""
  · simp [textValues, hs]
  · simp [textValues, hs]

theorem lastNumber_eq {n : ℕ} (h : under k fields = numberValues k n) :
    lastNumber k fields = n := by
  unfold lastNumber
  rw [filterMap_eq_of_under (fun j v hj => by cases v <;> simp [hj]) h]
  by_cases hn : n = 0
  · simp [numberValues, hn]
  · simp [numberValues, hn]

theorem lastBytes_eq {bytes : List UInt8} (h : under k fields = bytesValues k bytes) :
    lastBytes k fields = bytes := by
  unfold lastBytes
  rw [filterMap_eq_of_under (fun j v hj => by cases v <;> simp [hj]) h]
  by_cases hb : bytes = []
  · simp [bytesValues, hb]
  · simp [bytesValues, hb]

theorem messages_eq {α : Type} {values : α → List (ℕ × Value)} {ms : List α}
    (h : under k fields = messageValues k values ms) : messages k fields = ms.map values := by
  unfold messages
  rw [filterMap_eq_of_under (fun j v hj => by cases v <;> simp [hj]) h, messageValues,
    List.filterMap_map, ← List.filterMap_eq_map]
  congr 1
  funext m
  simp

end OfValues

theorem lastValue_attributeValues (a : DomainAttribute) :
    lastValue (attributeValues a) = a.value := by
  unfold lastValue attributeValues textValues
  -- the key is none of the two fields of the value
  by_cases hkey : a.key = ""
  · rcases a.value with _ | b | n <;> simp [hkey, typedValues, ofNat_number]
  · rcases a.value with _ | b | n <;> simp [hkey, typedValues, ofNat_number]

theorem attributeOf_attributeValues (a : DomainAttribute) :
    attributeOf (attributeValues a) = a := by
  have hvalues : under 1 (typedValues a.value) = [] := by
    rcases a.value with _ | b | n <;> simp [typedValues, under]
  have hkey : lastText 1 (attributeValues a) = a.key :=
    lastText_eq (by simp [attributeValues, hvalues])
  rw [attributeOf, hkey, lastValue_attributeValues]

theorem domainOf_domainValues (d : Domain) : domainOf (domainValues d) = d := by
  have htype : lastNumber 1 (domainValues d) = d.typeCode.toInt64.toUInt64.toNat :=
    lastNumber_eq (by simp [domainValues])
  have hvalue : lastText 2 (domainValues d) = d.value := lastText_eq (by simp [domainValues])
  have hattributes : messages 3 (domainValues d) = d.attributes.map attributeValues :=
    messages_eq (by simp [domainValues])
  have hall : (d.attributes.map attributeValues).map attributeOf = d.attributes := by
    simp [Function.comp_def, attributeOf_attributeValues]
  rw [domainOf, htype, hvalue, hattributes, ofNat_typeCode, hall]

theorem siteOf_siteValues (s : GeoSite) : siteOf (siteValues s) = s := by
  have hcode : lastText 1 (siteValues s) = s.code := lastText_eq (by simp [siteValues])
  have hdomains : messages 2 (siteValues s) = s.domains.map domainValues :=
    messages_eq (by simp [siteValues])
  have hall : (s.domains.map domainValues).map domainOf = s.domains := by
    simp [Function.comp_def, domainOf_domainValues]
  rw [siteOf, hcode, hdomains, hall]

theorem cidrOf_cidrValues (c : Cidr) : cidrOf (cidrValues c) = c := by
  have haddress : lastBytes 1 (cidrValues c) = c.address := lastBytes_eq (by simp [cidrValues])
  have hbits : lastNumber 2 (cidrValues c) = c.bits.toNat := lastNumber_eq (by simp [cidrValues])
  rw [cidrOf, haddress, hbits, UInt32.ofNat_toNat]

theorem ipOf_ipValues (g : GeoIp) : ipOf (ipValues g) = g := by
  have hcode : lastText 1 (ipValues g) = g.code := lastText_eq (by simp [ipValues])
  have hranges : messages 2 (ipValues g) = g.ranges.map cidrValues :=
    messages_eq (by simp [ipValues])
  have hall : (g.ranges.map cidrValues).map cidrOf = g.ranges := by
    simp [Function.comp_def, cidrOf_cidrValues]
  rw [ipOf, hcode, hranges, hall]

/-! ### Databases -/

/-- The message is no longer than a length can say, as no message in memory is. -/
def SiteFits (s : GeoSite) : Prop := Fits (encode (siteFields s)).length

instance (s : GeoSite) : Decidable (SiteFits s) := inferInstanceAs (Decidable (Fits _))

/-- The message is no longer than a length can say, as no message in memory is. -/
def IpFits (g : GeoIp) : Prop := Fits (encode (ipFields g)).length

instance (g : GeoIp) : Decidable (IpFits g) := inferInstanceAs (Decidable (Fits _))

/-- **A site database is read back from its bytes.** -/
theorem decodeSites_encodeSites {sites : List GeoSite} (h : ∀ s ∈ sites, SiteFits s) :
    decodeSites (encodeSites sites) = .ok sites := by
  have hfields : Represents schema .geoSiteList 3 (messageFields 1 siteFields sites)
      (messageValues 1 siteValues sites) :=
    represents_messageFields rfl h fun _ => represents_siteFields
  have hvalues : messages 1 (messageValues 1 siteValues sites) = sites.map siteValues :=
    messages_eq (by simp)
  have hall : (sites.map siteValues).map siteOf = sites := by
    simp [Function.comp_def, siteOf_siteValues]
  rw [decodeSites, encodeSites, decode_encode schema_numbered hfields (by decide), Except.map,
    hvalues, hall]

/-- **An address database is read back from its bytes.** -/
theorem decodeIps_encodeIps {ips : List GeoIp} (h : ∀ g ∈ ips, IpFits g) :
    decodeIps (encodeIps ips) = .ok ips := by
  have hfields : Represents schema .geoIpList 2 (messageFields 1 ipFields ips)
      (messageValues 1 ipValues ips) :=
    represents_messageFields rfl h fun _ => represents_ipFields
  have hvalues : messages 1 (messageValues 1 ipValues ips) = ips.map ipValues :=
    messages_eq (by simp)
  have hall : (ips.map ipValues).map ipOf = ips := by
    simp [Function.comp_def, ipOf_ipValues]
  rw [decodeIps, encodeIps, decode_encode schema_numbered hfields (by decide), Except.map,
    hvalues, hall]

end GeoRules.Geo
