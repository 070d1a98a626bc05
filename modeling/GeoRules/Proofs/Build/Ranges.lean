import GeoRules.Proofs.Address.Reader
import GeoRules.Proofs.Build.Order
import GeoRules.Proofs.RuleList.Loaded

/-! # The address ranges that files can give

An address of sixteen bytes needs two colons, and no rule of a file that matches addresses has one:
a line of an address list with a single colon includes another list, and one with more is no rule.
So the ranges of a compilation are all of four bytes when its lists come from files
(`compileLists_ranges`), brackets, masks and inclusions notwithstanding. -/

namespace GeoRules

open Text

/-- A text without a colon is read as a range of four bytes, if at all. -/
theorem Cidr.length_of_not_mem {s : List Char} (hs : ':' ∉ s) {r : Cidr} (h : ofText s = .ok r) :
    r.address.length = 4 ∧ r.bits.toNat ≤ 32 := by
  obtain ⟨hbits, hfour | ⟨-, hcolons⟩⟩ := bounds_of_ofText h
  · refine ⟨hfour, ?_⟩
    rwa [Address.width, hfour] at hbits
  · rw [List.count_eq_zero_of_not_mem hs] at hcolons
    omega

namespace Registry

variable {reg : Registry} {l : RuleList}

/-- Inclusions bring in rules of files only. -/
theorem not_mem_of_resolve (hfiles : ∀ m ∈ reg.lists, m.FromFile) (hl : l ∈ reg.lists)
    {x : ResolvedList} (hx : l.resolve reg = .ok x) {r : Rule} (hr : r ∈ x.rules) :
    ':' ∉ r.value.toList := by
  obtain ⟨-, hr | ⟨name, m, -, hm, hr⟩⟩ := (RuleList.mem_rules_iff hx).mp hr
  · exact RuleList.not_mem_of_fromFile (hfiles l hl) hr
  · exact RuleList.not_mem_of_fromFile (hfiles m (mem_of_get? hm)) hr

theorem length_of_ipMessage (hfiles : ∀ m ∈ reg.lists, m.FromFile) (hl : l ∈ reg.lists)
    {g : GeoIp} (hg : l.IpMessage reg g) {r : Cidr} (hr : r ∈ g.ranges) :
    r.address.length = 4 ∧ r.bits.toNat ≤ 32 := by
  obtain ⟨x, hx, rfl⟩ := hg
  obtain ⟨⟨rule, range⟩, hmem, hrange⟩ := List.mem_filterMap.mp hr
  obtain ⟨rule', hrule, heq⟩ := List.mem_map.mp hmem
  obtain ⟨rfl, rfl⟩ := Prod.mk.inj heq
  obtain ⟨hrule, -⟩ := List.mem_filter.mp hrule
  rcases htext : Cidr.ofText rule'.value.toList with e | r'
  · simp [htext, Except.toOption] at hrange
  · obtain rfl : r' = r := by simpa [htext, Except.toOption] using hrange
    exact Cidr.length_of_not_mem (not_mem_of_resolve hfiles hl hx hrule) htext

/-- **Files give ranges of four bytes only**: in whatever order lists from files are compiled, no
range of any message has sixteen, although a text can be read as one that has. -/
theorem compileLists_ranges (reg : Registry) (hfiles : ∀ l ∈ reg.lists, l.FromFile)
    (ls : List RuleList) (h : ls.Perm reg.lists) :
    (∀ c, reg.compileLists ls = .ok c → ∀ g ∈ c.ips, ∀ r ∈ g.ranges,
      r.address.length = 4 ∧ r.bits.toNat ≤ 32) ∧
    ∃ text r, Cidr.ofText text = .ok r ∧ r.address.length = 16 := by
  refine ⟨fun c hc g hg r hr => ?_, "2001:db8::/32".toList,
    ⟨[0x20, 1, 0x0d, 0xb8, 0, 0, 0, 0, 0, 0, 0, 0, 0, 0, 0, 0], 32⟩, by decide +kernel, rfl⟩
  have hips := (compileLists_follows hc).ips
  obtain ⟨i, hi, rfl⟩ := List.getElem_of_mem hg
  have hi' : i < (ls.filter (·.family = .ip)).length := hips.length_eq ▸ hi
  have hl : (ls.filter (·.family = .ip))[i] ∈ reg.lists :=
    h.mem_iff.mp (List.mem_of_mem_filter (List.getElem_mem hi'))
  exact length_of_ipMessage hfiles hl (hips.get hi' hi) hr

end Registry

/-- An address list with brackets, with half an address of sixteen bytes and with another list. -/
def RuleList.bracketedIp : RuleList :=
  ⟨"A-IP", .ip, [⟨.ip, "[1.2.3.4]/24", []⟩, ⟨.ip, "[fe80", []⟩, ⟨.inclusion, "b-ip", []⟩]⟩

/-- The other list. -/
def RuleList.plainIp : RuleList := ⟨"B-IP", .ip, [⟨.ip, "10.0.0.1", []⟩]⟩

namespace Registry

open RuleList (bracketedIp plainIp)

/-- Both lists come from files, and they compile to three ranges of four bytes. -/
theorem compileLists_ranges_bracketed :
    RuleList.load "a-ip" (utf8 "[1.2.3.4]/24\n[FE80\nfe80:B-ip") = .ok bracketedIp ∧
    RuleList.load "b-ip" (utf8 "10.0.0.1 @x") = .ok plainIp ∧
    ∃ c, (ofList [bracketedIp, plainIp]).compile = .ok c ∧
      c.ips = [⟨"A-IP", [⟨[1, 2, 3, 4], 24⟩, ⟨[10, 0, 0, 1], 32⟩]⟩,
        ⟨"B-IP", [⟨[10, 0, 0, 1], 32⟩]⟩] ∧
      ∀ g ∈ c.ips, ∀ r ∈ g.ranges, r.address.length = 4 ∧ r.bits.toNat ≤ 32 := by
  have ha : RuleList.load "a-ip" (utf8 "[1.2.3.4]/24\n[FE80\nfe80:B-ip") = .ok bracketedIp := by
    decide +kernel
  have hb : RuleList.load "b-ip" (utf8 "10.0.0.1 @x") = .ok plainIp := by decide +kernel
  have hfiles : ∀ l ∈ (ofList [bracketedIp, plainIp]).lists, l.FromFile := by
    intro l hl
    rcases List.mem_pair.mp hl with rfl | rfl
    · exact ⟨_, _, ha⟩
    · exact ⟨_, _, hb⟩
  have hca : bracketedIp.compile (ofList [bracketedIp, plainIp]) = .ok { bracketedIp.reports with
      ips := [⟨"A-IP", [⟨[1, 2, 3, 4], 24⟩, ⟨[10, 0, 0, 1], 32⟩]⟩] } := by
    rw [RuleList.compile, RuleList.resolve_of_ok (Expansion.passes_of_step rfl
      (Expansion.passes_of_last (Expansion.ok_of_pass rfl)))]
    decide +kernel
  have hcb : plainIp.compile (ofList [bracketedIp, plainIp]) = .ok { plainIp.reports with
      ips := [⟨"B-IP", [⟨[10, 0, 0, 1], 32⟩]⟩] } := by
    rw [RuleList.compile, RuleList.resolve_eq_self (by decide)]
    decide +kernel
  have hlists : (ofList [bracketedIp, plainIp]).lists = [bracketedIp, plainIp] := by decide
  obtain ⟨c, hc, hips⟩ : ∃ c, (ofList [bracketedIp, plainIp]).compile = .ok c ∧
      c.ips = [⟨"A-IP", [⟨[1, 2, 3, 4], 24⟩, ⟨[10, 0, 0, 1], 32⟩]⟩,
        ⟨"B-IP", [⟨[10, 0, 0, 1], 32⟩]⟩] := by
    simp only [compile, hlists, compileLists, hca, hcb]
    exact ⟨_, rfl, rfl⟩
  exact ⟨ha, hb, c, hc, hips, (compileLists_ranges _ hfiles _ (.refl _)).1 c hc⟩

end Registry

end GeoRules
