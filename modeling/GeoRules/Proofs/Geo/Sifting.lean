import GeoRules.Build.Event
import GeoRules.Proofs.Address.Cidr

/-! # The ranges and the drops of an address list

The rules of a list are sifted one by one (`Sifted`): a rule that matches addresses gives a range or
is dropped with an event, and a rule of another kind leaves no trace. The message and the log of an
address list are what is sifted from its rules, and nothing else is (`sifted_iff`). So every range
of a message is canonical, and it is printed with its address and its mask
(`ResolvedList.toGeoIp_sifted`). -/

namespace GeoRules

/-- What is sifted from the rules of the list of the name: ranges for the message and events for the
log, both in the order of the rules. -/
inductive Sifted (name : String) : List Rule → List Cidr → List Event → Prop
  | nil : Sifted name [] [] []
  | range {r : Rule} {c : Cidr} {rules : List Rule} {ranges : List Cidr} {events : List Event}
      (hkind : r.kind = .ip ∨ r.kind = .ipRange) (h : Cidr.ofText r.value.toList = .ok c)
      (hmore : Sifted name rules ranges events) : Sifted name (r :: rules) (c :: ranges) events
  | drop {r : Rule} {e : AddressError} {rules : List Rule} {ranges : List Cidr}
      {events : List Event} (hkind : r.kind = .ip ∨ r.kind = .ipRange)
      (h : Cidr.ofText r.value.toList = .error e) (hmore : Sifted name rules ranges events) :
      Sifted name (r :: rules) ranges (.dropped name r.value e :: events)
  | other {r : Rule} {rules : List Rule} {ranges : List Cidr} {events : List Event}
      (hip : r.kind ≠ .ip) (hrange : r.kind ≠ .ipRange) (hmore : Sifted name rules ranges events) :
      Sifted name (r :: rules) ranges events

theorem RuleKind.isIp_iff {kind : RuleKind} : kind.isIp = true ↔ kind = .ip ∨ kind = .ipRange := by
  cases kind <;> simp [isIp]

section
variable {name : String} {rules : List Rule} {ranges : List Cidr} {events : List Event}

/-- Every rule that matches addresses is accounted for once. -/
theorem Sifted.length_eq (h : Sifted name rules ranges events) :
    ranges.length + events.length = rules.countP (·.kind.isIp) := by
  induction h with
  | nil => rfl
  | range hkind _ _ ih =>
    rw [List.length_cons, List.countP_cons, if_pos (RuleKind.isIp_iff.mpr hkind)]
    omega
  | drop hkind _ _ ih =>
    rw [List.length_cons, List.countP_cons, if_pos (RuleKind.isIp_iff.mpr hkind)]
    omega
  | other hip hrange _ ih =>
    rw [List.countP_cons, if_neg (RuleKind.isIp_iff.not.mpr (not_or.mpr ⟨hip, hrange⟩))]
    exact ih

/-- Every range is read from the text of a rule. -/
theorem Sifted.exists_ofText (h : Sifted name rules ranges events) {c : Cidr} (hc : c ∈ ranges) :
    ∃ s, Cidr.ofText s = .ok c := by
  induction h with
  | nil => cases hc
  | range _ h _ ih =>
    rcases List.mem_cons.mp hc with rfl | hc
    · exact ⟨_, h⟩
    · exact ih hc
  | drop _ _ _ ih => exact ih hc
  | other _ _ _ ih => exact ih hc

/-- Something is sifted from any rules. -/
theorem exists_sifted (name : String) (rules : List Rule) :
    ∃ ranges events, Sifted name rules ranges events := by
  induction rules with
  | nil => exact ⟨[], [], .nil⟩
  | cons r rules ih =>
    obtain ⟨ranges, events, hmore⟩ := ih
    by_cases hkind : r.kind = .ip ∨ r.kind = .ipRange
    · rcases h : Cidr.ofText r.value.toList with e | c
      · exact ⟨_, _, hmore.drop hkind h⟩
      · exact ⟨_, _, hmore.range hkind h⟩
    · rw [not_or] at hkind
      exact ⟨_, _, hmore.other hkind.1 hkind.2⟩

end

/-- A canonical range is printed with digits and marks of an address only. -/
theorem Cidr.not_mem_display {c : Cidr} (h : c.Canonical) : '<' ∉ c.display := by
  obtain ⟨-, hmapped, -⟩ := canonical_iff.mp h
  obtain ⟨s, hs, -, hdisplay⟩ := display_of_canonical h
  rw [hdisplay, List.mem_append, List.mem_cons, not_or, not_or]
  refine ⟨fun hmem => ?_, by decide, fun hmem => ?_⟩
  · have hchar := Address.isAddressChar_of_text? hs hmapped hmem
    revert hchar
    decide
  · cases Text.isDigit_of_mem_decimal hmem

namespace ResolvedList

/-- What is sifted from the rules of a list is its message and its log. -/
theorem eq_of_sifted {name : String} {rules : List Rule} {ranges : List Cidr} {events : List Event}
    (h : Sifted name rules ranges events) (taken : List String) :
    (mk name taken rules).toGeoIp.ranges = ranges ∧ (mk name taken rules).dropEvents = events := by
  induction h with
  | nil => exact ⟨rfl, rfl⟩
  | @range r _ _ _ _ hkind h _ ih =>
    have hip : r.kind.isIp = true := RuleKind.isIp_iff.mpr hkind
    rw [← ih.1, ← ih.2]
    simp [toGeoIp, dropEvents, dropped, addresses, hip, h, Except.toOption]
  | @drop r _ _ _ _ hkind h _ ih =>
    have hip : r.kind.isIp = true := RuleKind.isIp_iff.mpr hkind
    rw [← ih.1, ← ih.2]
    simp [toGeoIp, dropEvents, dropped, addresses, hip, h, Except.toOption]
  | @other r _ _ _ hip hrange _ ih =>
    have hnot : ¬ r.kind.isIp = true := RuleKind.isIp_iff.not.mpr (not_or.mpr ⟨hip, hrange⟩)
    rw [← ih.1, ← ih.2]
    simp [toGeoIp, dropEvents, dropped, addresses, hnot]

variable {l : ResolvedList} {ranges : List Cidr} {events : List Event}

theorem sifted_iff :
    Sifted l.name l.rules ranges events ↔ l.toGeoIp.ranges = ranges ∧ l.dropEvents = events := by
  constructor
  · exact fun h => eq_of_sifted h l.taken
  · obtain ⟨ranges', events', h⟩ := exists_sifted l.name l.rules
    obtain ⟨hranges, hevents⟩ := eq_of_sifted h l.taken
    rintro ⟨rfl, rfl⟩
    rw [hranges, hevents]
    exact h

theorem canonical_of_mem_ranges {c : Cidr} (hc : c ∈ l.toGeoIp.ranges) : c.Canonical := by
  obtain ⟨s, hs⟩ := (sifted_iff.mpr ⟨rfl, rfl⟩).exists_ofText hc
  exact Cidr.canonical_of_ofText hs

/-- **An address list is sifted into ranges and drops**, whatever its rules are. There are as many
of both as rules that match addresses, and a range has four bytes or sixteen that do not stand for
four, and a mask that is no longer; so it is printed with its address and its mask and never as an
invalid one. -/
theorem toGeoIp_sifted (l : ResolvedList) :
    l.toGeoIp.code = l.name ∧
    (∀ ranges events, Sifted l.name l.rules ranges events ↔
      l.toGeoIp.ranges = ranges ∧ l.dropEvents = events) ∧
    l.toGeoIp.ranges.length + l.dropEvents.length = l.rules.countP (·.kind.isIp) ∧
    ∀ c ∈ l.toGeoIp.ranges, c.Canonical ∧ ∃ text, Address.text? c.address = some text ∧
      c.netText? = some (text ++ '/' :: Text.decimal c.bits.toNat) ∧
      c.display = text ++ '/' :: Text.decimal c.bits.toNat ∧
      ¬ "<invalid ".toList <+: c.display := by
  refine ⟨rfl, fun ranges events => sifted_iff, (sifted_iff.mpr ⟨rfl, rfl⟩).length_eq,
    fun c hc => ?_⟩
  have hcanonical := canonical_of_mem_ranges hc
  obtain ⟨text, htext, hnet, hdisplay⟩ := Cidr.display_of_canonical hcanonical
  exact ⟨hcanonical, text, htext, hnet, hdisplay, fun hinvalid =>
    Cidr.not_mem_display hcanonical (hinvalid.mem (by decide))⟩

/-- Rules of most kinds: a dotted address in the clothes of sixteen bytes once with a mask for four
and once with a longer one, and a text that is no address. -/
def sundry : ResolvedList := ⟨"X-IP", [], [
  ⟨.domain, "1.1.1.1", []⟩, ⟨.ip, "[::ffff:1.2.3.4]/24", []⟩, ⟨.ipRange, "::ffff:1.2.3.4/33", []⟩,
  ⟨.inclusion, "b-ip", []⟩, ⟨.ip, "1.2.3", []⟩, ⟨.ipRange, "::/0128", []⟩]⟩

theorem toGeoIp_sifted_sundry :
    sundry.toGeoIp.ranges = [⟨[1, 2, 3, 4], 24⟩, ⟨List.replicate 16 0, 128⟩] ∧
    sundry.dropEvents.map Event.render =
      ["DEBUG X-IP: dropping ::ffff:1.2.3.4/33: invalid network mask: 33 > 32",
        "DEBUG X-IP: dropping 1.2.3: unsupported address: 1.2.3"] ∧
    Cidr.mk [1, 2, 3, 4] 24 ∈ sundry.toGeoIp.ranges ∧ (Cidr.mk [1, 2, 3, 4] 24).Canonical := by
  have hranges : sundry.toGeoIp.ranges = [⟨[1, 2, 3, 4], 24⟩, ⟨List.replicate 16 0, 128⟩] := by
    decide +kernel
  have hmem : Cidr.mk [1, 2, 3, 4] 24 ∈ sundry.toGeoIp.ranges := by
    rw [hranges]
    exact List.mem_cons_self
  exact ⟨hranges, by decide +kernel, hmem, ((toGeoIp_sifted sundry).2.2.2 _ hmem).1⟩

end ResolvedList

end GeoRules
