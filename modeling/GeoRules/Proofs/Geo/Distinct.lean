import GeoRules.Geo.OfRules
import GeoRules.Proofs.Geo.RoundTrip
import GeoRules.Proofs.Wire.PrefixCode
import Mathlib.Data.List.Forall2

/-! # Different site lists make different databases

A site message is written as no other is: a field that is left out stands for its default alone, and
the fields that are written follow each other by number (`siteFields_injective`). The message in
turn keeps the name and the rules of a resolved list, the kind of a rule in the type of the domain
and its attributes one by one (`Renders`). So the bytes of a site database tell its lists apart
(`encodeSites_eq_iff`). -/

namespace GeoRules

namespace Geo

open Wire

/-! ### Messages from their fields -/

/-- **A field that may be left out** in front of fields of other numbers. -/
theorem optional_append_inj {α : Type} [DecidableEq α] {k : ℕ} {default a a' : α}
    {payload : α → Payload} {rest rest' : List (ℕ × Payload)} (hpayload : payload.Injective)
    (hrest : ∀ f ∈ rest, f.1 ≠ k) (hrest' : ∀ f ∈ rest', f.1 ≠ k)
    (h : (if a = default then [] else [(k, payload a)]) ++ rest =
      (if a' = default then [] else [(k, payload a')]) ++ rest') : a = a' ∧ rest = rest' := by
  by_cases ha : a = default <;> by_cases ha' : a' = default
  · rw [if_pos ha, if_pos ha'] at h
    exact ⟨ha.trans ha'.symm, h⟩
  · rw [if_pos ha, if_neg ha', List.nil_append, List.singleton_append] at h
    exact absurd rfl (hrest _ (h ▸ List.mem_cons_self))
  · rw [if_neg ha, if_pos ha', List.nil_append, List.singleton_append] at h
    exact absurd rfl (hrest' _ (h ▸ List.mem_cons_self))
  · rw [if_neg ha, if_neg ha', List.singleton_append, List.singleton_append] at h
    obtain ⟨hfield, hr⟩ := List.cons.inj h
    exact ⟨hpayload (Prod.mk.inj hfield).2, hr⟩

section Fields
variable {k : ℕ} {rest rest' : List (ℕ × Payload)}

theorem textField_append_inj {s s' : String} (hrest : ∀ f ∈ rest, f.1 ≠ k)
    (hrest' : ∀ f ∈ rest', f.1 ≠ k) (h : textField k s ++ rest = textField k s' ++ rest') :
    s = s' ∧ rest = rest' := by
  have hpayload : Function.Injective fun t => Payload.delimited (Text.utf8 t) := fun t t' he => by
    have hread := congrArg Text.ofUtf8? (Payload.delimited.inj he)
    rwa [Text.ofUtf8?_utf8, Text.ofUtf8?_utf8, Option.some.injEq] at hread
  exact optional_append_inj hpayload hrest hrest' h

theorem numberField_append_inj {n n' : ℕ} (hrest : ∀ f ∈ rest, f.1 ≠ k)
    (hrest' : ∀ f ∈ rest', f.1 ≠ k) (h : numberField k n ++ rest = numberField k n' ++ rest') :
    n = n' ∧ rest = rest' := by
  have hpayload : Function.Injective Payload.number := fun _ _ => Payload.number.inj
  exact optional_append_inj hpayload hrest hrest' h

theorem number_of_mem_textField {s : String} {f : ℕ × Payload} (h : f ∈ textField k s) :
    f.1 = k := by
  unfold textField at h
  split at h
  · cases h
  · obtain rfl := List.mem_singleton.mp h
    rfl

theorem number_of_mem_messageFields {α : Type} {fields : α → List (ℕ × Payload)} {ms : List α}
    {f : ℕ × Payload} (h : f ∈ messageFields k fields ms) : f.1 = k := by
  obtain ⟨m, -, rfl⟩ := List.mem_map.mp h
  rfl

theorem messageFields_injective {α : Type} {fields : α → List (ℕ × Payload)}
    (h : fields.Injective) : Function.Injective (messageFields k fields) :=
  List.map_injective_iff.mpr fun _ _ he =>
    h (encode_injective (Payload.delimited.inj (Prod.mk.inj he).2))

end Fields

theorem number_of_mem_valueFields {v : Option AttributeValue} {f : ℕ × Payload}
    (h : f ∈ valueFields v) : f.1 ≠ 1 := by
  rcases v with _ | b | n
  · cases h
  · obtain rfl := List.mem_singleton.mp h
    simp
  · obtain rfl := List.mem_singleton.mp h
    simp

/-- The two fields of a value tell a flag from a number, and each its values apart. -/
theorem valueFields_injective : Function.Injective valueFields := by
  have hnumber : Function.Injective fun n : Int64 => n.toUInt64.toNat :=
    Function.LeftInverse.injective ofNat_number
  rintro (_ | b | n) (_ | b' | n') h
  · rfl
  · cases h
  · cases h
  · cases h
  · cases b <;> cases b' <;> first | rfl | simp [valueFields] at h
  · simp [valueFields] at h
  · cases h
  · simp [valueFields] at h
  · obtain rfl : n = n' := hnumber (by simpa [valueFields] using h)
    rfl

theorem attributeFields_injective : Function.Injective attributeFields := by
  intro a a' h
  obtain ⟨hkey, hvalue⟩ := textField_append_inj (fun _ => number_of_mem_valueFields)
    (fun _ => number_of_mem_valueFields) h
  cases a
  cases a'
  exact (DomainAttribute.mk.injEq ..).mpr ⟨hkey, valueFields_injective hvalue⟩

theorem domainFields_injective : Function.Injective domainFields := by
  have hcodes : Function.Injective fun x : Int32 => x.toInt64.toUInt64.toNat :=
    Function.LeftInverse.injective ofNat_typeCode
  intro d d' h
  rw [domainFields, domainFields, List.append_assoc, List.append_assoc] at h
  have hlast : ∀ as : List DomainAttribute, ∀ f ∈ messageFields 3 attributeFields as, f.1 ≠ 2 := by
    intro as f hf
    rw [number_of_mem_messageFields hf]; decide
  have hbehind : ∀ (s : String) (as : List DomainAttribute),
      ∀ f ∈ textField 2 s ++ messageFields 3 attributeFields as, f.1 ≠ 1 := by
    intro s as f hf
    rcases List.mem_append.mp hf with hf | hf
    · rw [number_of_mem_textField hf]; decide
    · rw [number_of_mem_messageFields hf]; decide
  obtain ⟨hcode, hrest⟩ := numberField_append_inj (hbehind _ _) (hbehind _ _) h
  obtain ⟨hvalue, hattributes⟩ := textField_append_inj (hlast _) (hlast _) hrest
  cases d
  cases d'
  exact (Domain.mk.injEq ..).mpr
    ⟨hcodes hcode, hvalue, messageFields_injective attributeFields_injective hattributes⟩

/-- **A site message is written as no other is.** -/
theorem siteFields_injective : Function.Injective siteFields := by
  intro s s' h
  have hbehind : ∀ ds : List Domain, ∀ f ∈ messageFields 2 domainFields ds, f.1 ≠ 1 := by
    intro ds f hf
    rw [number_of_mem_messageFields hf]; decide
  obtain ⟨hcode, hdomains⟩ := textField_append_inj (hbehind _) (hbehind _) h
  cases s
  cases s'
  exact (GeoSite.mk.injEq ..).mpr ⟨hcode, messageFields_injective domainFields_injective hdomains⟩

theorem encodeSites_injective : Function.Injective encodeSites := fun _ _ h =>
  messageFields_injective siteFields_injective (encode_injective h)

end Geo

/-! ### Resolved lists from their messages -/

/-- Of the four types of domains each belongs to one kind of rules. -/
theorem RuleKind.domainType?_inj {kind kind' : RuleKind} {type : DomainType}
    (h : kind.domainType? = some type) (h' : kind'.domainType? = some type) : kind = kind' := by
  cases type <;> cases kind <;> cases h <;> cases kind' <;> cases h' <;> rfl

theorem DomainType.code_injective : Function.Injective DomainType.code := by
  intro type type' h
  cases type <;> cases type' <;> first | rfl | exact absurd h (by decide)

theorem Attribute.toDomainAttribute_injective : Function.Injective Attribute.toDomainAttribute := by
  intro a a' h
  obtain ⟨hkey, hvalue⟩ := DomainAttribute.mk.inj h
  cases a
  cases a'
  exact (Attribute.mk.injEq ..).mpr ⟨hkey, Option.some.inj hvalue⟩

theorem Rule.toDomain?_inj {r r' : Rule} {d : Domain} (h : r.toDomain? = some d)
    (h' : r'.toDomain? = some d) : r = r' := by
  obtain ⟨type, htype, rfl⟩ := Option.map_eq_some_iff.mp h
  obtain ⟨type', htype', hd⟩ := Option.map_eq_some_iff.mp h'
  obtain ⟨hcode, hvalue, hattributes⟩ := Domain.mk.inj hd
  obtain rfl := DomainType.code_injective hcode
  have hkind : r.kind = r'.kind := RuleKind.domainType?_inj htype htype'
  have hinjective := List.map_injective_iff.mpr Attribute.toDomainAttribute_injective
  cases r
  cases r'
  exact (Rule.mk.injEq ..).mpr ⟨hkind, hvalue.symm, (hinjective hattributes).symm⟩

theorem mapM_eq_some_iff {α β : Type} {f : α → Option β} {as : List α} {bs : List β} :
    as.mapM f = some bs ↔ List.Forall₂ (fun a b => f a = some b) as bs := by
  induction as generalizing bs with
  | nil => cases bs <;> simp
  | cons a as ih =>
    rw [List.mapM_cons, List.forall₂_cons_left_iff]
    simp only [← ih]
    rcases f a with _ | b
    · simp
    · rcases as.mapM f with _ | bs' <;> simp [eq_comm]

/-- The message of a name and rules. -/
structure Renders (named : String × List Rule) (s : GeoSite) : Prop where
  code : s.code = named.1
  domains : List.Forall₂ (fun r d => r.toDomain? = some d) named.2 s.domains

theorem ResolvedList.renders_of_toGeoSite {l : ResolvedList} {s : GeoSite}
    (h : l.toGeoSite = .ok s) : Renders (l.name, l.rules) s := by
  rw [toGeoSite] at h
  split at h
  · cases h
  · next domains hdomains =>
    obtain rfl := Except.ok.inj h
    exact ⟨rfl, mapM_eq_some_iff.mp hdomains⟩

/-- A message and what it is the message of determine each other. -/
theorem biUnique_renders : Relator.BiUnique Renders := by
  have hleft : Relator.LeftUnique fun (r : Rule) d => r.toDomain? = some d :=
    fun _ _ _ => Rule.toDomain?_inj
  have hright : Relator.RightUnique fun (r : Rule) d => r.toDomain? = some d :=
    fun _ _ _ h h' => Option.some.inj (h.symm.trans h')
  constructor
  · rintro ⟨name, rules⟩ s ⟨name', rules'⟩ h h'
    exact Prod.ext (h.code.symm.trans h'.code)
      (List.left_unique_forall₂' hleft h.domains h'.domains)
  · rintro ⟨name, rules⟩ ⟨code, domains⟩ ⟨code', domains'⟩ h h'
    obtain rfl : code = code' := h.code.trans h'.code.symm
    rw [show domains = domains' from List.right_unique_forall₂' hright h.domains h'.domains]

/-- **Nothing of a resolved site list is lost.** Two sequences of resolved lists, all of which have
messages, make the same bytes exactly if they agree list by list on the name and on the rules: the
kind, the value and the attributes of every rule, in their order. -/
theorem encodeSites_eq_iff {ls ls' : List ResolvedList} {sites sites' : List GeoSite}
    (h : List.Forall₂ (fun l s => l.toGeoSite = .ok s) ls sites)
    (h' : List.Forall₂ (fun l s => l.toGeoSite = .ok s) ls' sites') :
    Geo.encodeSites sites = Geo.encodeSites sites' ↔
      List.Forall₂ (fun l l' => l.name = l'.name ∧ l.rules = l'.rules) ls ls' := by
  have hrenders : ∀ {ls : List ResolvedList} {sites : List GeoSite},
      List.Forall₂ (fun l s => l.toGeoSite = .ok s) ls sites →
        List.Forall₂ Renders (ls.map fun l => (l.name, l.rules)) sites := fun h =>
    List.forall₂_map_left_iff.mpr (h.imp fun _ _ => ResolvedList.renders_of_toGeoSite)
  have hnamed : (ls.map fun l => (l.name, l.rules)) = ls'.map (fun l => (l.name, l.rules)) ↔
      sites = sites' := Relator.rel_eq biUnique_renders.forall₂ (hrenders h) (hrenders h')
  rw [Geo.encodeSites_injective.eq_iff, ← hnamed, ← List.forall₂_eq_eq_eq,
    List.forall₂_map_left_iff, List.forall₂_map_right_iff]
  simp only [Prod.mk.injEq]

/-- A keyword without a value, with the attribute. -/
def ResolvedList.bare (v : AttributeValue) : ResolvedList :=
  ⟨"A", [], [⟨.keyword, "", [⟨"@a", v⟩]⟩]⟩

/-- A type and a value that are left out, and flags and numbers of value zero, are kept apart. -/
theorem encodeSites_eq_iff_bare :
    (ResolvedList.bare (.flag false)).toGeoSite =
      .ok ⟨"A", [⟨0, "", [⟨"@a", some (.flag false)⟩]⟩]⟩ ∧
    (ResolvedList.bare (.number 0)).toGeoSite =
      .ok ⟨"A", [⟨0, "", [⟨"@a", some (.number 0)⟩]⟩]⟩ ∧
    Geo.encodeSites [⟨"A", [⟨0, "", [⟨"@a", some (.flag false)⟩]⟩]⟩] ≠
      Geo.encodeSites [⟨"A", [⟨0, "", [⟨"@a", some (.number 0)⟩]⟩]⟩] := by
  refine ⟨rfl, rfl, fun h => ?_⟩
  have hagree := (@encodeSites_eq_iff [.bare (.flag false)] [.bare (.number 0)] _ _
    (.cons rfl .nil) (.cons rfl .nil)).mp h
  obtain ⟨⟨-, hrules⟩, -⟩ := List.forall₂_cons.mp hagree
  exact absurd hrules (by decide)

end GeoRules
