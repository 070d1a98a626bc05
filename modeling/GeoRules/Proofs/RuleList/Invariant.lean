import GeoRules.Proofs.RuleList.Rendered

/-! # What holds of every loaded list

A file is cut at line feeds, a line at its first number sign and at every space, a first word at
every colon and a token at its first equals sign; then values and keys are put in lower case. No
lower case brings a mark back (`Text.mem_of_mem_lower`) or has another lower case
(`Text.lower_lower`), so what is loaded from any file is lawful (`Rule.Lawful`).

The values of both families come from a part of the first word (`Rule.value_of_ofLine`). For the
rest each family has its own reader: what a line of a site list loads to is settled
(`Rule.settled_of_ofSiteLine`), and a line of an address list is an address or an inclusion without
attributes (`Rule.ofIpLine_eq_ok_iff`).

Main statement: `RuleList.load_lawful`. -/

namespace GeoRules

open Text

namespace Rule

variable {line : List Char} {family : Family} {r : Rule}

/-- **A lawful rule** of a list of the family. The value is in lower case and holds none of the
marks at which a text is cut. Rules of site lists match no addresses, and their attributes are
settled: the keys are in lower case with their signs and without marks, and no flag is off. Rules of
address lists are addresses, which are not empty, or inclusions, and have no attributes. -/
structure Lawful (family : Family) (r : Rule) : Prop where
  lowered : lowercase r.value = r.value
  marks : ∀ c ∈ [':', '#', ' ', '\n'], c ∉ r.value.toList
  ofSite : family = .site → r.kind ≠ .ip ∧ r.kind ≠ .ipRange ∧ ∀ a ∈ r.attributes, a.Settled
  ofIp : family = .ip → (r.kind = .ip ∨ r.kind = .inclusion) ∧ r.attributes = [] ∧
    (r.kind = .ip → r.value ≠ "")

/-! ### First words -/

theorem unmarked_firstWord (htrim : trim line = line) (hnumber : '#' ∉ line) (hfeed : '\n' ∉ line) :
    Unmarked (firstWord line) :=
  unmarked_of_mem_words htrim hnumber hfeed _ (List.head_mem _)

/-- The first word of a trimmed line is empty only if the line is. -/
theorem firstWord_ne_nil (htrim : trim line = line) (hne : line ≠ []) : firstWord line ≠ [] := by
  intro hnil
  have hline := intercalate_words htrim
  rw [← firstWord_cons_tail, hnil] at hline
  rcases htail : (words line).tail with _ | ⟨w, ws⟩
  · rw [htail, List.intercalate_singleton] at hline
    exact hne hline.symm
  · -- otherwise the line starts with the space behind the first word
    rw [htail, List.intercalate_cons_cons] at hline
    have hblank : isBlank ' ' = false :=
      isBlank_head_trim (s := line) ' ' (by rw [htrim, ← hline]; rfl)
    exact absurd hblank (by decide)

/-- **The value of a rule** is in lower case and has no marks, whatever list it is in. -/
theorem value_of_ofLine (h : ofLine family line = .ok r) (htrim : trim line = line)
    (hnumber : '#' ∉ line) (hfeed : '\n' ∉ line) :
    lowercase r.value = r.value ∧ ':' ∉ r.value.toList ∧ Unmarked r.value.toList := by
  obtain ⟨part, hpart, hvalue⟩ := exists_part_of_ofLine h
  have hpart' : Unmarked part :=
    (unmarked_firstWord htrim hnumber hfeed).of_subset (subset_of_mem_splitOn hpart)
  have hlist : r.value.toList = lower part := by rw [hvalue, String.toList_ofList]
  refine ⟨?_, ?_, ?_⟩
  · rw [lowercase, hlist, lower_lower, hvalue]
  · rw [hlist]
    exact fun hmem => not_mem_of_mem_splitOn hpart
      (mem_of_mem_lower (by decide) (by decide) hmem)
  · rw [hlist]
    exact hpart'.lower

/-! ### Lines of address lists -/

/-- **The rule of a line of an address list**: its first word is an address, or a list's name behind
a label. -/
theorem ofIpLine_eq_ok_iff : ofIpLine line = .ok r ↔
    (':' ∉ firstWord line ∧ r = ⟨.ip, String.ofList (lower (firstWord line)), []⟩) ∨
    ∃ label name, firstWord line = label ++ ':' :: name ∧ ':' ∉ label ∧ ':' ∉ name ∧
      r = ⟨.inclusion, String.ofList (lower name), []⟩ := by
  constructor
  · intro h
    unfold ofIpLine at h
    rcases colon_cases (firstWord line) with hnone | ⟨label, name, hword, hlabel, hname⟩ |
      ⟨label, name, rest, hword, hlabel, hname⟩
    · rw [List.splitOn_eq_singleton hnone] at h
      exact Or.inl ⟨hnone, (Except.ok.inj h).symm⟩
    · rw [hword, List.splitOn_append_cons_self_of_not_mem hlabel,
        List.splitOn_eq_singleton hname] at h
      exact Or.inr ⟨label, name, hword, hlabel, hname, (Except.ok.inj h).symm⟩
    · obtain ⟨third, more, hrest⟩ := List.exists_cons_of_ne_nil (List.splitOn_ne_nil ':' rest)
      rw [hword, List.splitOn_append_cons_self_of_not_mem hlabel,
        List.splitOn_append_cons_self_of_not_mem hname, hrest] at h
      cases h
  · rintro (⟨hnone, rfl⟩ | ⟨label, name, hword, hlabel, hname, rfl⟩)
    · unfold ofIpLine
      rw [List.splitOn_eq_singleton hnone]
    · unfold ofIpLine
      rw [hword, List.splitOn_append_cons_self_of_not_mem hlabel, List.splitOn_eq_singleton hname]

/-- An address is not empty, for the line is not. -/
theorem ofIp_of_ofIpLine (h : ofIpLine line = .ok r) (htrim : trim line = line) (hne : line ≠ []) :
    (r.kind = .ip ∨ r.kind = .inclusion) ∧ r.attributes = [] ∧ (r.kind = .ip → r.value ≠ "") := by
  rcases ofIpLine_eq_ok_iff.mp h with ⟨-, rfl⟩ | ⟨label, name, -, -, -, rfl⟩
  · refine ⟨Or.inl rfl, rfl, fun _ hempty => ?_⟩
    have hnil : lower (firstWord line) = [] := String.ofList_eq_empty_iff.mp hempty
    exact lower_ne_nil (firstWord_ne_nil htrim hne) hnil
  · exact ⟨Or.inr rfl, rfl, fun hkind => by cases hkind⟩

/-! ### Lines of either family -/

/-- **What a line loads to is lawful.** -/
theorem lawful_of_ofLine (h : ofLine family line = .ok r) (htrim : trim line = line)
    (hends : EndsPlain line) (hnumber : '#' ∉ line) (hfeed : '\n' ∉ line) : r.Lawful family := by
  obtain ⟨hlowered, hcolon, hspace, hmark, hbreak⟩ := value_of_ofLine h htrim hnumber hfeed
  refine ⟨hlowered, by simp [hcolon, hspace, hmark, hbreak], ?_, ?_⟩
  · rintro rfl
    have hsettled : r.Settled := settled_of_ofSiteLine h htrim hends hnumber hfeed
    refine ⟨fun hkind => ?_, fun hkind => ?_, hsettled.attributes⟩
    · cases (congrArg RuleKind.isIp hkind).symm.trans hsettled.kind
    · cases (congrArg RuleKind.isIp hkind).symm.trans hsettled.kind
  · rintro rfl
    exact ofIp_of_ofIpLine h htrim hends.ne_nil

end Rule

namespace RuleList

variable {l : RuleList} {base : String} {bytes : List UInt8}

/-- **Every loaded list is lawful.** It has the name of its file in upper case and the family that
the name says, and all its rules are lawful in this family, whatever bytes the file holds. -/
theorem load_lawful (h : load base bytes = .ok l) :
    l.name = uppercase base ∧ l.family = .ofFileName base ∧ ∀ r ∈ l.rules, r.Lawful l.family := by
  refine ⟨(load_eq_ok h).1, family_of_load h, fun r hr => ?_⟩
  obtain ⟨text, htext, hrule⟩ := (mem_rules_of_load_iff h).mp hr
  obtain ⟨htrim, hends, hnumber, hfeed⟩ := htext.plain
  exact Rule.lawful_of_ofLine hrule htrim hends hnumber hfeed

/-- An address list: an address in capitals with words behind it, an address with a label, which is
an inclusion, and a line of one colon, which includes the list without a name. -/
def addressLines : List String := ["  10.0.0.0/8A\t @x # y\r", "Any:Ж\t z", "#", ":"]

/-- What the lines load to. -/
def addresses : RuleList :=
  ⟨"HOME-IP", .ip, [⟨.ip, "10.0.0.0/8a\t", []⟩, ⟨.inclusion, "ж\t", []⟩, ⟨.inclusion, "", []⟩]⟩

/-- A list of each family, with white space in values and keys that does not cut a line. -/
theorem load_lawful_mixed :
    load "geo" (utf8 (ofLines mixedLines)) = .ok mixed ∧ (∀ r ∈ mixed.rules, r.Lawful .site) ∧
    load "Home-ip" (utf8 (ofLines addressLines)) = .ok addresses ∧
    ∀ r ∈ addresses.rules, r.Lawful .ip := by
  have hsite : load "geo" (utf8 (ofLines mixedLines)) = .ok mixed := by decide +kernel
  have hip : load "Home-ip" (utf8 (ofLines addressLines)) = .ok addresses := by decide +kernel
  exact ⟨hsite, (load_lawful hsite).2.2, hip, (load_lawful hip).2.2⟩

end RuleList

end GeoRules
