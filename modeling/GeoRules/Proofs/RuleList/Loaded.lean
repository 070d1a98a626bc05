import GeoRules.Proofs.RuleList.FileName
import GeoRules.Proofs.Text.Blank
import GeoRules.Proofs.Text.Cut

/-! # The rules that a file can hold

The rules of a loaded list are those of the lines of its file (`RuleList.mem_rules_of_load_iff`).
The value of a rule is what a part of the first word of its line is in lower case
(`Rule.exists_part_of_ofLine`), so the marks and digits in it are those of the line, and no colon
and no space is among them (`Rule.mem_of_mem_value`). Lines of site lists give no rule that matches
addresses. -/

namespace GeoRules

open Text

/-! ### Lines -/

namespace RuleKind

theorem isIp_ofLabel (label : String) : (ofLabel label).isIp = false := by
  have hlabels : ∀ e ∈ labels, e.2.isIp = false := by decide
  unfold ofLabel
  rcases h : labels.lookup (lowercase label) with _ | kind
  · rfl
  · obtain ⟨before, after, hmem, -⟩ := List.lookup_eq_some_iff.mp h
    exact hlabels (lowercase label, kind) (by rw [hmem]; simp)

end RuleKind

namespace Rule

variable {line : List Char} {r : Rule}

theorem isIp_of_ofPattern {pattern : List Char} (h : ofPattern pattern = .ok r) :
    r.kind.isIp = false := by
  unfold ofPattern at h
  split at h
  · obtain rfl := Except.ok.inj h
    rfl
  · obtain rfl := Except.ok.inj h
    exact RuleKind.isIp_ofLabel _
  · cases h

/-- The rule of a line of a site list is that of its pattern, with the attributes behind it. -/
theorem ofSiteLine_eq_ok : ofSiteLine line = .ok r ↔ ∃ rule attributes,
    ofPattern (firstWord line) = .ok rule ∧
      (words line).tail.mapM Attribute.ofToken = .ok attributes ∧ r = { rule with attributes } := by
  unfold ofSiteLine
  rcases ofPattern (firstWord line) with e | rule
  · simp [bind, Except.bind]
  · rcases (words line).tail.mapM Attribute.ofToken with e | attributes
    · simp [bind, Except.bind]
    · simp [bind, Except.bind, pure, Except.pure, eq_comm]

theorem isIp_of_ofSiteLine (h : ofSiteLine line = .ok r) : r.kind.isIp = false := by
  obtain ⟨rule, attributes, hrule, -, rfl⟩ := ofSiteLine_eq_ok.mp h
  have hkind : rule.kind.isIp = false := isIp_of_ofPattern hrule
  exact hkind

/-- The value of a rule is a part of the first word of its line, in lower case. -/
theorem exists_part_of_ofLine {family : Family} (h : ofLine family line = .ok r) :
    ∃ part ∈ (firstWord line).splitOn ':', r.value = String.ofList (lower part) := by
  cases family with
  | site =>
    obtain ⟨rule, attributes, hrule, -, rfl⟩ := ofSiteLine_eq_ok.mp h
    unfold ofPattern at hrule
    split at hrule
    · next value hparts =>
      obtain rfl := Except.ok.inj hrule
      exact ⟨value, by simp [hparts], rfl⟩
    · next label value hparts =>
      obtain rfl := Except.ok.inj hrule
      exact ⟨value, by simp [hparts], rfl⟩
    · cases hrule
  | ip =>
    change ofIpLine line = .ok r at h
    unfold ofIpLine at h
    split at h
    · next address hparts =>
      obtain rfl := Except.ok.inj h
      exact ⟨address, by simp [hparts], rfl⟩
    · next label name hparts =>
      obtain rfl := Except.ok.inj h
      exact ⟨name, by simp [hparts], rfl⟩
    · cases h

/-- The marks and digits of a value are those of the line, and none of them cuts a word or a part of
it. -/
theorem mem_of_mem_value {family : Family} (h : ofLine family line = .ok r) {c : Char}
    (hzero : c ≠ '\x00') (hc : c.toNat < 0x41) (hmem : c ∈ r.value.toList) :
    c ∈ line ∧ c ≠ ' ' ∧ c ≠ ':' := by
  obtain ⟨part, hpart, hvalue⟩ := exists_part_of_ofLine h
  rw [hvalue, String.toList_ofList] at hmem
  have hin : c ∈ part := mem_of_mem_lower hzero hc hmem
  have hword : c ∈ firstWord line := subset_of_mem_splitOn hpart hin
  have hfirst : firstWord line ∈ (trim line).splitOn ' ' := List.head_mem _
  refine ⟨(trim_sublist line).mem (subset_of_mem_splitOn hfirst hword), ?_, ?_⟩
  · rintro rfl
    exact not_mem_of_mem_splitOn hfirst hword
  · rintro rfl
    exact not_mem_of_mem_splitOn hpart hin

end Rule

/-! ### Files -/

namespace RuleList

/-- The list was loaded from some file. -/
def FromFile (l : RuleList) : Prop := ∃ base bytes, load base bytes = .ok l

theorem exists_line_of_mem {family : Family} {lines : List (List UInt8)} {rules : List Rule}
    (h : readLines family lines = .ok rules) {r : Rule} (hr : r ∈ rules) :
    ∃ line ∈ lines, readLine family line = .ok (some r) := by
  induction lines generalizing rules with
  | nil =>
    obtain rfl := Except.ok.inj h
    exact absurd hr List.not_mem_nil
  | cons head lines ih =>
    obtain ⟨rule?, rest, hhead, htail, rfl⟩ := readLines_cons_eq_ok.mp h
    rcases List.mem_append.mp hr with hr | hr
    · obtain rfl := Option.mem_toList.mp hr
      exact ⟨head, List.mem_cons_self, hhead⟩
    · obtain ⟨line, hline, hread⟩ := ih htail hr
      exact ⟨line, List.mem_cons_of_mem _ hline, hread⟩

/-- A line gives a rule if what is left of it without comment and white space does. -/
theorem readLine_eq_some_iff {family : Family} {line : List UInt8} {r : Rule} :
    readLine family line = .ok (some r) ↔ ∃ s text, line = utf8 s ∧
      cleanLine s.toList = some text ∧ Rule.ofLine family text = .ok r := by
  constructor
  · intro h
    unfold readLine at h
    split at h
    · cases h
    · next s hs =>
      split at h
      · cases h
      · next text htext =>
        rcases hrule : Rule.ofLine family text with e | rule
        · rw [hrule] at h
          cases h
        · rw [hrule] at h
          obtain rfl := Option.some.inj (Except.ok.inj h)
          exact ⟨s, text, ofUtf8?_eq_some_iff.mp hs, htext, hrule⟩
  · rintro ⟨s, text, rfl, htext, hrule⟩
    unfold readLine
    simp only [ofUtf8?_utf8, htext, hrule]

/-- A line of the file with the bytes is the text, a comment and white space around it apart. -/
def HasLine (bytes : List UInt8) (text : List Char) : Prop :=
  ∃ s, utf8 s ∈ fileLines bytes ∧ cleanLine s.toList = some text

/-- **The rules of a list** are those of the lines of its file. -/
theorem mem_rules_of_load_iff {base : String} {bytes : List UInt8} {l : RuleList}
    (h : load base bytes = .ok l) {r : Rule} :
    r ∈ l.rules ↔ ∃ text, HasLine bytes text ∧ Rule.ofLine l.family text = .ok r := by
  have hlines := (load_eq_ok h).2
  rw [family_of_load h]
  constructor
  · intro hr
    obtain ⟨line, hline, hread⟩ := exists_line_of_mem hlines hr
    obtain ⟨s, text, rfl, htext, hrule⟩ := readLine_eq_some_iff.mp hread
    exact ⟨text, ⟨s, hline, htext⟩, hrule⟩
  · rintro ⟨text, ⟨s, hline, htext⟩, hrule⟩
    exact mem_of_readLines hlines hline (readLine_eq_some_iff.mpr ⟨s, text, rfl, htext, hrule⟩)

/-- **No value of a file has a colon.** -/
theorem not_mem_of_fromFile {l : RuleList} (hl : l.FromFile) {r : Rule} (hr : r ∈ l.rules) :
    ':' ∉ r.value.toList := by
  obtain ⟨base, bytes, hload⟩ := hl
  obtain ⟨text, -, htext⟩ := (mem_rules_of_load_iff hload).mp hr
  exact fun hmem => (Rule.mem_of_mem_value htext (by decide) (by decide) hmem).2.2 rfl

end RuleList

end GeoRules
