import GeoRules.Proofs.Geo.RoundTrip
import GeoRules.Proofs.Wire.Insertion

/-! # Databases of a larger schema

A database may hold fields that the schema does not have, in its lists, their domains, the
attributes of these and their address ranges. Whatever such fields are put between those that are
written, it is read as what was written (`decode_extended`). Groups may go as deep as the decoder
goes: a hundred levels in the database itself, and one level less for every message around them. -/

namespace GeoRules.Geo

open Wire

/-- **Databases with unknown fields put in are read as those that were written**, wherever in them
and in the messages inside them the fields stand. -/
theorem decode_extended :
    (∀ sites bytes, (∀ s ∈ sites, SiteFits s) →
      Inserted schema .geoSiteList maxDepth (encodeSites sites) bytes →
        decodeSites bytes = .ok sites) ∧
    ∀ ips bytes, (∀ g ∈ ips, IpFits g) →
      Inserted schema .geoIpList maxDepth (encodeIps ips) bytes → decodeIps bytes = .ok ips :=
  ⟨fun _ _ hfits h => h.map_decode (decodeSites_encodeSites hfits),
    fun _ _ hfits h => h.map_decode (decodeIps_encodeIps hfits)⟩

/-- Groups of the field 11, each inside another one: `n` of them inside the first. -/
def nestedGroups : ℕ → List UInt8
  | 0 => [0x5b, 0x5c]
  | n + 1 => [0x5b] ++ (nestedGroups n ++ [0x5c])

theorem fieldRow_nestedGroups (n : ℕ) : FieldRow (n + 1) [11] (nestedGroups n) := by
  have hstart : SpellsKey ⟨11, .groupStart⟩ [0x5b] := ⟨by decide, spells_byte (by decide) rfl⟩
  have hend : SpellsKey ⟨11, .groupEnd⟩ [0x5c] := ⟨by decide, spells_byte (by decide) rfl⟩
  induction n with
  | zero => exact .group hstart .nil hend .nil
  | succ n ih => exact .group hstart ih hend .nil

/-- A site with a domain that has an attribute. -/
def taggedSite : GeoSite := ⟨"A", [⟨2, "b", [⟨"@k", some (.flag true)⟩]⟩]⟩

/-- The attribute with 32 bits of the field 4 behind its key. -/
def taggedAttribute : List UInt8 :=
  encode [(1, .delimited (Text.utf8 "@k"))] ++ ([0x25, 1, 2, 3, 4] ++ encode [(2, .number 1)])

/-- The domain with a number of the field 15, written longer than it needs, behind its type. -/
def taggedDomain : List UInt8 :=
  encode [(1, .number 2)] ++ ([0x78, 0x80, 0] ++
    (encode [(2, .delimited (Text.utf8 "b"))] ++
      (encodeField (3, .delimited taggedAttribute) ++ encode [])))

/-- The site between groups, as deep as they may go, and bytes of the field 12. -/
def taggedSites : List UInt8 :=
  nestedGroups 99 ++ (encodeField (1, .delimited
    (encode [(1, .delimited (Text.utf8 "A"))] ++
      (encodeField (2, .delimited taggedDomain) ++ encode []))) ++ ([0x62, 2, 0xff, 0xfe] ++ []))

theorem inserted_taggedAttribute {room : ℕ} : Inserted schema .attribute (room + 1)
    (encode (attributeFields ⟨"@k", some (.flag true)⟩)) taggedAttribute := by
  have hkey : SpellsKey ⟨4, .fixed32⟩ [0x25] := ⟨by decide, spells_byte (by decide) rfl⟩
  have hrow : FieldRow (room + 1) [4] ([0x25] ++ ([1, 2, 3, 4] ++ [])) :=
    .plain hkey (.fixed32 rfl) .nil
  have hfields : attributeFields ⟨"@k", some (.flag true)⟩ =
      [(1, .delimited (Text.utf8 "@k"))] ++ [(2, .number 1)] := by decide +kernel
  rw [hfields]
  exact hrow.inserted (by decide) _ _

theorem inserted_taggedDomain {room : ℕ} : Inserted schema .domain (room + 2)
    (encode (domainFields ⟨2, "b", [⟨"@k", some (.flag true)⟩]⟩)) taggedDomain := by
  have hkey : SpellsKey ⟨15, .varint⟩ [0x78] := ⟨by decide, spells_byte (by decide) rfl⟩
  have hlast : SevenBits 0 [0] := .last (b := 0) (by decide)
  have hzero : SevenBits 0 [0x80, 0] := .more (b := 0x80) (by decide) hlast
  have hrow : FieldRow (room + 2) [15] ([0x78] ++ ([0x80, 0] ++ [])) :=
    .plain hkey (.varint ⟨hzero, by decide, by decide⟩) .nil
  have hfields : domainFields ⟨2, "b", [⟨"@k", some (.flag true)⟩]⟩ =
      [(1, .number 2)] ++ ([(2, .delimited (Text.utf8 "b"))] ++
        (3, .delimited (encode (attributeFields ⟨"@k", some (.flag true)⟩))) :: []) := by
    decide +kernel
  rw [hfields, encode_append]
  exact .behind _ (.insert hrow (by decide)
    (inserted_taggedAttribute.within rfl (by decide +kernel) _ _))

/-- An address list with one range. -/
def classA : GeoIp := ⟨"A", [⟨[10, 0, 0, 1], 8⟩]⟩

/-- The site is read from among the fields that were put in, and the address list from behind
them. -/
theorem decode_extended_taggedSite : SiteFits taggedSite ∧
    Inserted schema .geoSiteList maxDepth (encodeSites [taggedSite]) taggedSites ∧
    decodeSites taggedSites = .ok [taggedSite] ∧ IpFits classA ∧
    decodeIps (nestedGroups 99 ++ encodeIps [classA]) = .ok [classA] := by
  have hfits : ∀ s ∈ [taggedSite], SiteFits s := by decide +kernel
  have hkey : SpellsKey ⟨12, .delimited⟩ [0x62] := ⟨by decide, spells_byte (by decide) rfl⟩
  have hrow : FieldRow 100 [12] ([0x62] ++ ([2] ++ [0xff, 0xfe] ++ [])) :=
    .plain hkey (.delimited (spells_byte (by decide) rfl)) .nil
  have hsite : siteFields taggedSite = [(1, .delimited (Text.utf8 "A"))] ++
      (2, .delimited (encode (domainFields ⟨2, "b", [⟨"@k", some (.flag true)⟩]⟩))) :: [] := by
    decide +kernel
  have hinserted : Inserted schema .geoSiteList maxDepth (encodeSites [taggedSite])
      taggedSites := by
    refine .insert (fieldRow_nestedGroups 99) (by decide) ?_
    refine .inside (i := .geoSite) rfl (by decide +kernel) ?_ (.insert hrow (by decide) .nil)
    rw [hsite]
    exact inserted_taggedDomain.within rfl (by decide +kernel) _ _
  have hips : ∀ g ∈ [classA], IpFits g := by decide +kernel
  have hbehind : Inserted schema .geoIpList maxDepth (encodeIps [classA])
      (nestedGroups 99 ++ encodeIps [classA]) :=
    .insert (fieldRow_nestedGroups 99) (by decide) (.refl _)
  exact ⟨hfits _ (by simp), hinserted, decode_extended.1 _ _ hfits hinserted, hips _ (by simp),
    decode_extended.2 _ _ hips hbehind⟩

/-- One group more is too deep. -/
example : decodeSites (nestedGroups 100) = .error (.bare .recursionLimit) := by decide +kernel

end GeoRules.Geo
