import GeoRules.Proofs.Build.Criterion
import GeoRules.Proofs.Geo.Distinct
import GeoRules.Proofs.Inclusion.Missing
import GeoRules.Proofs.Inclusion.Outline
import GeoRules.Proofs.RuleList.Invariant

/-! # Where the attributes of a list go

Attributes are for the domains of a message, but a line of a site list takes them behind every first
word. So they may stand at a rule that matches no domain: at an inclusion, or at a value whose label
names no kind (`Rule.TagsInVain`, `Rule.ofSiteLine_inVain_iff`).

A value of no kind ends the compilation of its list, attributes or not. An inclusion does not, and
its attributes count for nothing: a pass sees of an inclusion its target alone, so that all lists
compile to the same without them (`RuleList.compile_untagged`). Every other rule that a list holds
or reaches is in its message, attributes and all (`RuleList.exists_domain_of_stands`).

Main statement: `RuleList.load_attributes`. -/

namespace GeoRules

open Expansion Text

theorem exists_mem_of_forall₂ {α β : Type} {R : α → β → Prop} {as : List α} {bs : List β}
    (h : List.Forall₂ R as bs) {a : α} (ha : a ∈ as) : ∃ b ∈ bs, R a b := by
  induction h with
  | nil => exact absurd ha List.not_mem_nil
  | cons hab _ ih =>
    rcases List.mem_cons.mp ha with rfl | ha
    · exact ⟨_, List.mem_cons_self, hab⟩
    · obtain ⟨b, hb, hrel⟩ := ih ha
      exact ⟨b, List.mem_cons_of_mem _ hb, hrel⟩

/-! ### Inclusions without attributes -/

/-- The rule without the attributes of an inclusion. -/
def Rule.untagged (r : Rule) : Rule := if r.isInclusion then { r with attributes := [] } else r

/-- The list without the attributes of its inclusions. -/
def RuleList.untagged (l : RuleList) : RuleList := { l with rules := l.rules.map Rule.untagged }

/-- The registry without the attributes of inclusions. -/
def Registry.untagged (reg : Registry) : Registry where
  lists := reg.lists.map RuleList.untagged
  nodup := by
    rw [List.map_map]
    exact reg.nodup

section
variable {r : Rule} {rules : List Rule} {l : RuleList} {reg : Registry} {x : ResolvedList}

theorem Rule.untagged_eq (h : r.isInclusion = false) : r.untagged = r := by simp [untagged, h]

theorem Rule.untagged_inclusion (h : r.isInclusion) : r.untagged = { r with attributes := [] } :=
  if_pos h

@[simp] theorem Rule.value_untagged (r : Rule) : r.untagged.value = r.value := by
  unfold untagged
  split <;> rfl

/-- No pass sees the attributes of inclusions. -/
theorem Expansion.indistinct_untagged (rules : List Rule) :
    Indistinct rules (rules.map Rule.untagged) := by
  induction rules with
  | nil => exact .refl []
  | cons r rules ih =>
    intro taken
    rw [List.map_cons]
    rcases hr : r.isInclusion
    · rw [Rule.untagged_eq hr, outline_cons hr, outline_cons hr, ih taken]
    · have hr' : ({ r with attributes := [] } : Rule).isInclusion := hr
      rw [Rule.untagged_inclusion hr, outline_cons_congr hr hr' rfl]
      by_cases ht : r.target ∈ taken
      · rw [outline_cons_of_mem hr ht, outline_cons_of_mem hr ht, ih taken]
      · rw [outline_cons_of_not_mem hr ht, outline_cons_of_not_mem hr ht, ih (r.target :: taken)]

theorem Registry.get?_untagged (reg : Registry) (name : String) :
    reg.untagged.get? name = (reg.get? name).map RuleList.untagged := by
  unfold get? untagged
  rw [List.find?_map]
  rfl

theorem Registry.indistinctLists_untagged (reg : Registry) : IndistinctLists reg reg.untagged := by
  intro name
  rw [get?_untagged]
  cases reg.get? name with
  | none => exact .none
  | some l => exact .some (indistinct_untagged l.rules)

namespace RuleList

theorem resolve_untagged (h : l.resolve reg = .ok x) : l.untagged.resolve reg.untagged = .ok x := by
  rcases passes_indistinct reg.indistinctLists_untagged (indistinct_untagged l.rules) with
    ⟨y, hy, hy'⟩ | ⟨e, -, he, -, -⟩
  · rw [resolve_of_ok hy] at h
    rw [← h]
    exact resolve_of_ok hy'
  · rw [resolve_of_error he] at h
    cases h

theorem reports_untagged (l : RuleList) : l.untagged.reports = l.reports := by
  have hblock : ProxyRules.block l.untagged = ProxyRules.block l := by
    unfold ProxyRules.block untagged
    simp only [List.map_map, Function.comp_def, Rule.value_untagged]
  unfold reports ProxyRules.record
  rw [hblock]
  rfl

/-- **A list that compiles** does so without the attributes of inclusions, and to the same. -/
theorem compile_untagged {c : Compilation} (h : l.compile reg = .ok c) :
    l.untagged.compile reg.untagged = .ok c := by
  rcases hx : l.resolve reg with e | x
  · rw [compile, hx] at h
    cases h
  · rw [← h, compile, compile, hx, resolve_untagged hx, reports_untagged]
    rfl

/-- The message of a site list that compiles holds a domain for each rule that the list holds or
reaches and that is no inclusion. -/
theorem exists_domain_of_stands {c : Compilation} (h : l.compile reg = .ok c)
    (hsite : l.family = .site) (hstands : Stands reg l.rules r) (hr : r.isInclusion = false) :
    ∃ s ∈ c.sites, ∃ d ∈ s.domains, r.toDomain? = some d ∧
      d.attributes = r.attributes.map Attribute.toDomainAttribute := by
  rcases compile_cases reg l with ⟨e, -, hc⟩ |
    ⟨x, hx, ⟨-, e, -, hc⟩ | ⟨-, s, hs, hc⟩ | ⟨hip, -⟩⟩
  · cases h.symm.trans hc
  · cases h.symm.trans hc
  · obtain rfl := Except.ok.inj (h.symm.trans hc)
    have hmem : r ∈ x.rules := (mem_rules_iff hx).mpr ⟨hr, hstands⟩
    obtain ⟨d, hd, hdomain⟩ :=
      exists_mem_of_forall₂ (ResolvedList.renders_of_toGeoSite hs).domains hmem
    refine ⟨s, List.mem_singleton_self s, d, hd, hdomain, ?_⟩
    obtain ⟨type, -, rfl⟩ := Option.map_eq_some_iff.mp hdomain
    rfl
  · cases hsite.symm.trans hip

end RuleList

end

/-! ### Lines with attributes -/

/-- The rules of the kind match domains, so that attributes are for them. -/
def RuleKind.MatchesDomains (kind : RuleKind) : Prop := kind ∈ [domain, regex, keyword, full]

instance : DecidablePred RuleKind.MatchesDomains :=
  fun kind => inferInstanceAs (Decidable (kind ∈ _))

theorem RuleKind.Named.matchesDomains_iff {name : String} {kind : RuleKind} (h : Named name kind) :
    kind.MatchesDomains ↔ name ∈ ["domain", "regex", "keyword", "full"] := by
  cases h with
  | domain | regex | keyword | full | inclusion => decide
  | unknown hname =>
    refine iff_of_false (by decide) fun hmem => hname ?_
    exact List.mem_append_left ["include"] hmem

namespace Rule

variable {line pattern : List Char} {r : Rule}

/-- **Attributes in vain**: words stand behind the first one of the line, and this one is a value
with a label that names no kind of domains. -/
def TagsInVain (line : List Char) : Prop :=
  (words line).tail ≠ [] ∧ ∃ label value, firstWord line = label ++ ':' :: value ∧ ':' ∉ label ∧
    ':' ∉ value ∧ lowercase (String.ofList label) ∉ ["domain", "regex", "keyword", "full"]

theorem not_matchesDomains_iff (h : ofPattern pattern = .ok r) : ¬ r.kind.MatchesDomains ↔
    ∃ label value, pattern = label ++ ':' :: value ∧ ':' ∉ label ∧ ':' ∉ value ∧
      lowercase (String.ofList label) ∉ ["domain", "regex", "keyword", "full"] := by
  constructor
  · intro hkind
    obtain ⟨kind, value, hheaded, rfl⟩ := ofPattern_eq_ok_iff.mp h
    cases hheaded with
    | bare => exact absurd List.mem_cons_self hkind
    | @labelled label _ _ hlabel hvalue hnamed =>
      refine ⟨label, value, rfl, hlabel, hvalue, fun hmem => hkind ?_⟩
      exact hnamed.matchesDomains_iff.mpr hmem
  · rintro ⟨label, value, rfl, hlabel, hvalue, hname⟩ hkind
    rw [ofPattern_labelled hlabel hvalue] at h
    obtain rfl := Except.ok.inj h
    exact hname ((RuleKind.named_iff.mpr rfl).matchesDomains_iff.mp hkind)

/-- **The rules whose attributes are in vain** are those of the lines that have words for them
behind a label of no kind of domains. -/
theorem ofSiteLine_inVain_iff (h : ofSiteLine line = .ok r) :
    r.attributes ≠ [] ∧ ¬ r.kind.MatchesDomains ↔ TagsInVain line := by
  obtain ⟨rule, attributes, hrule, hattributes, rfl⟩ := ofSiteLine_eq_ok.mp h
  have hlength := (mapM_eq_ok_iff.mp hattributes).length_eq
  have hnil : attributes ≠ [] ↔ (words line).tail ≠ [] := by
    rw [← List.length_pos_iff, ← List.length_pos_iff, hlength]
  have hkind := not_matchesDomains_iff hrule
  exact and_congr hnil hkind

/-- Lines of address lists give no attributes. -/
theorem family_of_attributes {family : Family} (h : ofLine family line = .ok r)
    (ht : r.attributes ≠ []) : family = .site := by
  cases family with
  | site => rfl
  | ip =>
    rcases ofIpLine_eq_ok_iff.mp h with ⟨-, rfl⟩ | ⟨label, name, -, -, -, rfl⟩
    · exact absurd rfl ht
    · exact absurd rfl ht

end Rule

/-! ### Loaded lists -/

namespace RuleList

variable {base : String} {bytes : List UInt8} {l : RuleList} {text : List Char}

/-- Every line of a file that loads makes a rule, unless nothing is left of it. -/
theorem exists_rule_of_hasLine (h : load base bytes = .ok l) (ht : HasLine bytes text) :
    ∃ r ∈ l.rules, Rule.ofLine l.family text = .ok r := by
  obtain ⟨s, hline, htext⟩ := ht
  obtain ⟨rule?, hread, -⟩ := exists_of_readLines (load_eq_ok h).2 hline
  rw [← family_of_load h] at hread
  rcases hrule : Rule.ofLine l.family text with e | r
  · have hfail : readLine l.family (utf8 s) = .error (.line e) := by
      unfold readLine
      simp only [ofUtf8?_utf8, htext, hrule]
    cases hread.symm.trans hfail
  · exact ⟨r, (mem_rules_of_load_iff h).mpr ⟨text, ⟨s, hline, htext⟩, hrule⟩, rfl⟩

/-- **Where attributes are and where they go.** The attributes of a loaded list are at rules of site
lists that match domains, at inclusions, and at values of no kind. They are at the first of these
alone exactly if no line of the list has words for attributes behind a label of no kind of domains.

If the list compiles, every rule that it holds or reaches and that is no inclusion has its domain in
the message, with its attributes. Those of inclusions are lost: without them, in the list and in all
others, it compiles to the same. -/
theorem load_attributes (h : load base bytes = .ok l) :
    (∀ r ∈ l.rules, r.attributes ≠ [] → l.family = .site ∧
      (r.kind.MatchesDomains ∨ r.kind = .inclusion ∨ r.kind = .unknown)) ∧
    ((∀ r ∈ l.rules, r.attributes ≠ [] → r.kind.MatchesDomains) ↔
      (l.family = .site → ∀ text, HasLine bytes text → ¬ Rule.TagsInVain text)) ∧
    ∀ reg c, l.compile reg = .ok c →
      (l.family = .site → ∀ r, Stands reg l.rules r → r.isInclusion = false →
        ∃ s ∈ c.sites, ∃ d ∈ s.domains, r.toDomain? = some d ∧
          d.attributes = r.attributes.map Attribute.toDomainAttribute) ∧
      l.untagged.compile reg.untagged = .ok c := by
  refine ⟨fun r hr ht => ?_, ⟨fun hall hsite text htext hvain => ?_, fun hall r hr ht => ?_⟩,
    fun reg c hc => ⟨fun hsite r hstands hr => ?_, compile_untagged hc⟩⟩
  · obtain ⟨text, -, hrule⟩ := (mem_rules_of_load_iff h).mp hr
    have hsite : l.family = .site := Rule.family_of_attributes hrule ht
    rw [hsite] at hrule
    have hip : r.kind.isIp = false := Rule.isIp_of_ofSiteLine hrule
    refine ⟨hsite, ?_⟩
    revert hip
    cases r.kind <;> decide
  · obtain ⟨r, hr, hrule⟩ := exists_rule_of_hasLine h htext
    rw [hsite] at hrule
    obtain ⟨ht, hkind⟩ := (Rule.ofSiteLine_inVain_iff hrule).mpr hvain
    exact hkind (hall r hr ht)
  · obtain ⟨text, htext, hrule⟩ := (mem_rules_of_load_iff h).mp hr
    have hsite : l.family = .site := Rule.family_of_attributes hrule ht
    rw [hsite] at hrule
    by_contra hkind
    exact hall hsite text htext ((Rule.ofSiteLine_inVain_iff hrule).mp ⟨ht, hkind⟩)
  · exact exists_domain_of_stands hc hsite hstands hr

/-- A list with attributes at a domain and at an inclusion. -/
def tagged : RuleList := ⟨"A", .site,
  [⟨.full, "x", [⟨"@ads", .number 2⟩]⟩, ⟨.inclusion, "b", [⟨"@cn", .flag true⟩]⟩]⟩

/-- A registry with the list that is included, which has an attribute of its own. -/
def included : Registry := .ofList [⟨"B", .site, [⟨.domain, "y", [⟨"@own", .flag true⟩]⟩]⟩]

/-- The attribute of the domain is in the message, and that of the inclusion is in vain. -/
theorem load_attributes_tagged :
    load "a" (utf8 "Full:X @Ads=2\ninclude:b @cn # y") = .ok tagged ∧
    (∃ text, HasLine (utf8 "Full:X @Ads=2\ninclude:b @cn # y") text ∧ Rule.TagsInVain text) ∧
    ∃ c, tagged.compile included = .ok c ∧
      (∃ s ∈ c.sites, ∃ d ∈ s.domains, d.attributes = [⟨"@ads", some (.number 2)⟩]) ∧
      tagged.untagged.compile included.untagged = .ok c := by
  have hload : load "a" (utf8 "Full:X @Ads=2\ninclude:b @cn # y") = .ok tagged := by decide +kernel
  have hresolve : tagged.resolve included = .ok ⟨"A", ["B"],
      [⟨.full, "x", [⟨"@ads", .number 2⟩]⟩, ⟨.domain, "y", [⟨"@own", .flag true⟩]⟩]⟩ :=
    resolve_of_ok (passes_of_step rfl (passes_of_last (ok_of_pass rfl)))
  obtain ⟨c, hcompile⟩ : ∃ c, tagged.compile included = .ok c := by
    rw [compile, hresolve]
    exact ⟨_, rfl⟩
  obtain ⟨-, hcriterion, hcompiled⟩ := load_attributes hload
  obtain ⟨hreach, huntagged⟩ := hcompiled included c hcompile
  refine ⟨hload, ?_, c, hcompile, ?_, huntagged⟩
  · by_contra hnone
    have hall := hcriterion.mpr fun _ text htext hvain => hnone ⟨text, htext, hvain⟩
    exact absurd hall (by decide)
  · obtain ⟨s, hs, d, hd, -, hattributes⟩ :=
      hreach rfl ⟨.full, "x", [⟨"@ads", .number 2⟩]⟩ (Or.inl (by decide)) rfl
    exact ⟨s, hs, d, hd, hattributes⟩

/-- A list that includes another one, with an attribute. -/
def taggedInclusion : RuleList := ⟨"A", .site, [⟨.inclusion, "b", [⟨"@cn", .flag true⟩]⟩]⟩

/-- **A list that compiles may have attributes at a rule that matches no domain.** The expansion
drops them with the inclusion. -/
theorem load_taggedInclusion :
    load "a" (utf8 "include:b @cn") = .ok taggedInclusion ∧
    (∃ r ∈ taggedInclusion.rules, r.attributes ≠ [] ∧ ¬ r.kind.MatchesDomains) ∧
    taggedInclusion.resolve included = .ok ⟨"A", ["B"], [⟨.domain, "y", [⟨"@own", .flag true⟩]⟩]⟩ ∧
    ∃ c, taggedInclusion.compile included = .ok c := by
  have hload : load "a" (utf8 "include:b @cn") = .ok taggedInclusion := by decide +kernel
  have hresolve : taggedInclusion.resolve included =
      .ok ⟨"A", ["B"], [⟨.domain, "y", [⟨"@own", .flag true⟩]⟩]⟩ :=
    resolve_of_ok (passes_of_step rfl (passes_of_last (ok_of_pass rfl)))
  refine ⟨hload, by decide, hresolve, ?_⟩
  rw [compile, hresolve]
  exact ⟨_, rfl⟩

end RuleList

end GeoRules
