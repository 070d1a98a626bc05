import Mathlib.Data.List.Forall2
import GeoRules.Proofs.Build.Criterion

/-! # The order of the lists in a compilation

The parts of a compilation are filled side by side, list by list. `Follows` says what this comes to:
each database holds one message for every list of its family, the index names the messages of either
database in their order, and the proxy rules are the blocks of all lists, one after the other.

The parts are functions of the lists alone (`Follows` determines them), so two orders of the same
lists succeed together and their results differ by the order of the lists only. -/

namespace GeoRules

/-! ### What a compilation holds -/

/-- `s` is the message of what the site list `l` stands for. -/
def RuleList.SiteMessage (reg : Registry) (l : RuleList) (s : GeoSite) : Prop :=
  ∃ x, l.resolve reg = .ok x ∧ x.toGeoSite = .ok s

/-- `g` is the message of what the address list `l` stands for. -/
def RuleList.IpMessage (reg : Registry) (l : RuleList) (g : GeoIp) : Prop :=
  ∃ x, l.resolve reg = .ok x ∧ x.toGeoIp = g

namespace Compilation

/-- The compilation holds what the lists give, in their order. -/
structure Follows (reg : Registry) (ls : List RuleList) (c : Compilation) : Prop where
  sites : List.Forall₂ (RuleList.SiteMessage reg) (ls.filter (·.family = .site)) c.sites
  ips : List.Forall₂ (RuleList.IpMessage reg) (ls.filter (·.family = .ip)) c.ips
  siteNames : c.index.site = c.sites.map (Text.lowercase ·.code)
  ipNames : c.index.ip = c.ips.map (Text.lowercase ·.code)
  proxy : c.proxy.lines = ls.flatMap fun l =>
    ProxyRules.header l.family l.name ::
      l.rules.map fun r => ProxyRules.ruleLine l.family r.value

/-- The compilations hold the same, up to the order of the lists. -/
structure Reordered (c c' : Compilation) : Prop where
  sites : c.sites.Perm c'.sites
  ips : c.ips.Perm c'.ips
  siteNames : c.index.site.Perm c'.index.site
  ipNames : c.index.ip.Perm c'.index.ip
  proxy : ∃ ls ls' : List RuleList, ls.Perm ls' ∧
    c.proxy.lines = ls.flatMap ProxyRules.block ∧ c'.proxy.lines = ls'.flatMap ProxyRules.block

end Compilation

/-! ### One list -/

namespace RuleList

variable {reg : Registry} {l : RuleList}

theorem SiteMessage.code_eq {s : GeoSite} (h : l.SiteMessage reg s) : s.code = l.name := by
  obtain ⟨x, hx, hs⟩ := h
  have hname : x.name = l.name := (resolve_layered hx).1
  rw [ResolvedList.toGeoSite] at hs
  split at hs
  · cases hs
  · obtain rfl := Except.ok.inj hs
    exact hname

theorem IpMessage.code_eq {g : GeoIp} (h : l.IpMessage reg g) : g.code = l.name := by
  obtain ⟨x, hx, rfl⟩ := h
  exact (resolve_layered hx).1

theorem siteMessage_rightUnique : Relator.RightUnique (SiteMessage reg) := by
  rintro l s t ⟨x, hx, hs⟩ ⟨y, hy, ht⟩
  obtain rfl := Except.ok.inj (hx.symm.trans hy)
  exact Except.ok.inj (hs.symm.trans ht)

theorem ipMessage_rightUnique : Relator.RightUnique (IpMessage reg) := by
  rintro l g k ⟨x, hx, rfl⟩ ⟨y, hy, rfl⟩
  obtain rfl := Except.ok.inj (hx.symm.trans hy)
  rfl

/-- A compiled list adds one message to the database of its family and its name to the index. -/
theorem compile_follows {c : Compilation} (h : l.compile reg = .ok c) : c.Follows reg [l] := by
  rcases compile_cases reg l with ⟨e, -, hc⟩ |
    ⟨x, hx, ⟨-, e, -, hc⟩ | ⟨hf, s, hs, hc⟩ | ⟨hf, hc⟩⟩
  · rw [hc] at h; cases h
  · rw [hc] at h; cases h
  · obtain rfl := Except.ok.inj (hc.symm.trans h)
    have hm : l.SiteMessage reg s := ⟨x, hx, hs⟩
    constructor
    · simpa [hf] using hm
    · simp [hf, reports]
    · simp [reports, CategoryIndex.record, hf, hm.code_eq]
    · simp [reports, CategoryIndex.record, hf]
    · simp [reports, ProxyRules.record, ProxyRules.block]
  · obtain rfl := Except.ok.inj (hc.symm.trans h)
    have hm : l.IpMessage reg x.toGeoIp := ⟨x, hx, rfl⟩
    constructor
    · simp [hf, reports]
    · simpa [hf] using hm
    · simp [reports, CategoryIndex.record, hf]
    · simp [reports, CategoryIndex.record, hf, hm.code_eq]
    · simp [reports, ProxyRules.record, ProxyRules.block]

end RuleList

/-! ### All lists -/

namespace Compilation

variable {reg : Registry} {ls ls' : List RuleList} {c c' : Compilation}

theorem Follows.append (h : c.Follows reg ls) (h' : c'.Follows reg ls') :
    (c ++ c').Follows reg (ls ++ ls') where
  sites := by
    rw [List.filter_append]
    exact List.rel_append h.sites h'.sites
  ips := by
    rw [List.filter_append]
    exact List.rel_append h.ips h'.ips
  siteNames := by
    change c.index.site ++ c'.index.site = (c.sites ++ c'.sites).map _
    rw [h.siteNames, h'.siteNames, List.map_append]
  ipNames := by
    change c.index.ip ++ c'.index.ip = (c.ips ++ c'.ips).map _
    rw [h.ipNames, h'.ipNames, List.map_append]
  proxy := by
    change c.proxy.lines ++ c'.proxy.lines = _
    rw [h.proxy, h'.proxy, List.flatMap_append]

theorem Follows.reordered (h : c.Follows reg ls) (h' : c'.Follows reg ls') (hls : ls.Perm ls') :
    c.Reordered c' := by
  have hsites : c.sites.Perm c'.sites :=
    List.rel_perm_imp RuleList.siteMessage_rightUnique h.sites h'.sites (hls.filter _)
  have hips : c.ips.Perm c'.ips :=
    List.rel_perm_imp RuleList.ipMessage_rightUnique h.ips h'.ips (hls.filter _)
  refine ⟨hsites, hips, ?_, ?_, ls, ls', hls, h.proxy, h'.proxy⟩
  · rw [h.siteNames, h'.siteNames]
    exact hsites.map _
  · rw [h.ipNames, h'.ipNames]
    exact hips.map _

end Compilation

namespace Registry

variable {reg : Registry}

theorem compileLists_follows {ls : List RuleList} {c : Compilation}
    (h : reg.compileLists ls = .ok c) : c.Follows reg ls := by
  induction ls generalizing c with
  | nil =>
    obtain rfl := Except.ok.inj h
    exact ⟨.nil, .nil, rfl, rfl, rfl⟩
  | cons l ls ih =>
    rw [compileLists] at h
    rcases hl : l.compile reg with e | part
    · rw [hl] at h; cases h
    · rcases hls : reg.compileLists ls with e | cs
      · rw [hl, hls] at h; cases h
      · rw [hl, hls] at h
        obtain rfl := Except.ok.inj h
        exact (RuleList.compile_follows hl).append (ih hls)

/-- Another order of the lists succeeds where one does, with the same result up to the order. -/
theorem compileLists_perm {ls ls' : List RuleList} (hls : ls.Perm ls') {c : Compilation}
    (h : reg.compileLists ls = .ok c) : ∃ c', reg.compileLists ls' = .ok c' ∧ c.Reordered c' := by
  have hall := (compileLists_isOk_iff ls).mp ⟨c, h⟩
  obtain ⟨c', h'⟩ := (compileLists_isOk_iff ls').mpr fun l hl => hall l (hls.mem_iff.mpr hl)
  exact ⟨c', h', (compileLists_follows h).reordered (compileLists_follows h') hls⟩

/-- Two orders of the lists of a registry compile to the same messages, or neither compiles. -/
theorem compileLists_outcome {ls ls' : List RuleList} (h : ls.Perm ls') :
    (∃ c c', reg.compileLists ls = .ok c ∧ reg.compileLists ls' = .ok c' ∧ c.Reordered c') ∨
    ∃ e e', reg.compileLists ls = .error e ∧ reg.compileLists ls' = .error e' := by
  rcases hls : reg.compileLists ls with e | c
  · rcases hls' : reg.compileLists ls' with e' | c'
    · exact Or.inr ⟨e, e', rfl, rfl⟩
    · obtain ⟨c, hc, -⟩ := compileLists_perm h.symm hls'
      cases hls.symm.trans hc
  · obtain ⟨c', hc', hreordered⟩ := compileLists_perm h hls
    exact Or.inl ⟨c, c', rfl, hc', hreordered⟩

/-- **The order of the lists does not matter.** A registry compiles in every order of its lists or
in none, and two orders give the same up to that order. What comes out follows the lists: in each
database one message for every list of the family, under the name that the index has lower-cased in
the same place, and in the proxy rules a header and a line for every rule as it stands. -/
theorem compileLists_order (reg : Registry) (ls ls' : List RuleList) (h : ls.Perm reg.lists)
    (h' : ls'.Perm reg.lists) :
    ((∃ c, reg.compileLists ls = .ok c) ↔ ∃ c, reg.compileLists ls' = .ok c) ∧
    ∀ c c', reg.compileLists ls = .ok c → reg.compileLists ls' = .ok c' →
      c.Follows reg ls ∧ c'.Follows reg ls' ∧ c.Reordered c' := by
  have hls : ls.Perm ls' := h.trans h'.symm
  refine ⟨⟨?_, ?_⟩, ?_⟩
  · rintro ⟨c, hc⟩
    obtain ⟨c', hc', -⟩ := compileLists_perm hls hc
    exact ⟨c', hc'⟩
  · rintro ⟨c, hc⟩
    obtain ⟨c', hc', -⟩ := compileLists_perm hls.symm hc
    exact ⟨c', hc'⟩
  · intro c c' hc hc'
    have hf := compileLists_follows hc
    have hf' := compileLists_follows hc'
    exact ⟨hf, hf', hf.reordered hf' hls⟩

end Registry

/-- A site list that includes itself. -/
def RuleList.selfSite : RuleList := ⟨"A", .site, [⟨.inclusion, "a", []⟩, ⟨.full, "x", []⟩]⟩

/-- An address list that includes the site list. -/
def RuleList.borrowingIp : RuleList :=
  ⟨"B-IP", .ip, [⟨.ip, "10.0.0.1", []⟩, ⟨.inclusion, "a", []⟩]⟩

namespace Registry

open RuleList (selfSite borrowingIp)

/-- A registry with a list of either family. -/
def both : Registry := .ofList [selfSite, borrowingIp]

/-- Backwards the same messages come out, and the blocks of the proxy rules change places. -/
theorem compileLists_order_both : ∃ c c', both.compileLists [selfSite, borrowingIp] = .ok c ∧
    both.compileLists [borrowingIp, selfSite] = .ok c' ∧ c.Reordered c' ∧
    c.proxy.lines = ["# Domain:a", "- DOMAIN-SUFFIX,a,Proxy", "- DOMAIN-SUFFIX,x,Proxy",
      "# IP:b-ip", "- IP-CIDR,10.0.0.1/32,Proxy", "- IP-CIDR,a/32,Proxy"] ∧
    c'.proxy.lines = ["# IP:b-ip", "- IP-CIDR,10.0.0.1/32,Proxy", "- IP-CIDR,a/32,Proxy",
      "# Domain:a", "- DOMAIN-SUFFIX,a,Proxy", "- DOMAIN-SUFFIX,x,Proxy"] := by
  have hsite : selfSite.resolve both = .ok ⟨"A", ["A"], [⟨.full, "x", []⟩, ⟨.full, "x", []⟩]⟩ :=
    RuleList.resolve_of_ok (Expansion.passes_of_step rfl
      (Expansion.passes_of_last (Expansion.ok_of_pass rfl)))
  have hip : borrowingIp.resolve both = .ok ⟨"B-IP", ["A"],
      [⟨.ip, "10.0.0.1", []⟩, ⟨.full, "x", []⟩]⟩ :=
    RuleList.resolve_of_ok (Expansion.passes_of_step rfl
      (Expansion.passes_of_last (Expansion.ok_of_pass rfl)))
  have hperm : [selfSite, borrowingIp].Perm both.lists := .refl _
  obtain ⟨c, hc⟩ : ∃ c, both.compileLists [selfSite, borrowingIp] = .ok c := by
    refine (compileLists_isOk_iff _).mpr fun l hl => ?_
    rcases List.mem_pair.mp hl with rfl | rfl
    · rw [RuleList.compile, hsite]
      exact ⟨_, rfl⟩
    · rw [RuleList.compile, hip]
      exact ⟨_, rfl⟩
  obtain ⟨hiff, hall⟩ := compileLists_order both [selfSite, borrowingIp] [borrowingIp, selfSite]
    hperm (.trans (.swap ..) hperm)
  obtain ⟨c', hc'⟩ := hiff.mp ⟨c, hc⟩
  obtain ⟨hf, hf', hr⟩ := hall c c' hc hc'
  refine ⟨c, c', hc, hc', hr, ?_, ?_⟩
  · rw [hf.proxy]
    decide +kernel
  · rw [hf'.proxy]
    decide +kernel

end Registry

end GeoRules
