import GeoRules.Proofs.Build.Criterion
import GeoRules.Proofs.Rule.Cleaned
import GeoRules.Proofs.Text.Case
import GeoRules.Proofs.Text.Utf8
import GeoRules.RuleList.Load

/-! # Including a list by its file name

A list stands under the upper case of its file name, and the line `include:` with the file name asks
for the upper case of the lower case of that name. The two are the same, and the line takes in that
very list, unless the file name holds one of the six lost capitals; then they differ, and the list
is missed although it is there.

`readLine_includeLine` is what the line loads to in a list of either family, `include_by_fileName`
the main statement. -/

namespace GeoRules

open Text

/-- A file name that fills a word of a line: not empty, without the marks that end a word or a line,
and without white space at its ends. -/
structure PlainName (name : List Char) : Prop where
  ne_nil : name ≠ []
  unmarked : ∀ c ∈ name, c ≠ ':' ∧ c ≠ '#' ∧ c ≠ ' ' ∧ c ≠ '\n'
  head : ∀ c ∈ name.head?, isBlank c = false
  last : ∀ c ∈ name.getLast?, isBlank c = false

/-- The name is checked character by character: a bounded quantifier over characters may otherwise
be decided over all of them. -/
theorem plainName_iff {name : List Char} : PlainName name ↔
    name ≠ [] ∧ (name.all fun c => c != ':' && c != '#' && c != ' ' && c != '\n') ∧
    name.head?.all (!isBlank ·) ∧ name.getLast?.all (!isBlank ·) := by
  have hmarks : (name.all fun c => c != ':' && c != '#' && c != ' ' && c != '\n') = true ↔
      ∀ c ∈ name, c ≠ ':' ∧ c ≠ '#' ∧ c ≠ ' ' ∧ c ≠ '\n' := by
    simp [List.all_eq_true, and_assoc]
  have hends : ∀ o : Option Char,
      o.all (!isBlank ·) = true ↔ ∀ c ∈ o, isBlank c = false := by
    simp [Option.all_eq_true]
  rw [hmarks, hends, hends]
  exact ⟨fun h => ⟨h.ne_nil, h.unmarked, h.head, h.last⟩, fun ⟨h1, h2, h3, h4⟩ => ⟨h1, h2, h3, h4⟩⟩

instance (name : List Char) : Decidable (PlainName name) := decidable_of_iff _ plainName_iff.symm

/-- The line that includes the list of a file. -/
def includeLine (base : String) : String := "include:" ++ base

/-- The rule of that line. -/
def Rule.including (base : String) : Rule := ⟨.inclusion, lowercase base, []⟩

/-! ### The line -/

theorem toList_includeLine (base : String) :
    (includeLine base).toList = "include".toList ++ ':' :: base.toList := by
  rw [includeLine, String.toList_append]
  rfl

section Line
variable {base : String} (hb : PlainName base.toList)
include hb

theorem not_mem_includeLine {c : Char} (hc : c = '#' ∨ c = ' ' ∨ c = '\n') :
    c ∉ (includeLine base).toList := by
  rw [toList_includeLine, List.mem_append, List.mem_cons, not_or, not_or]
  refine ⟨?_, ?_, fun hmem => ?_⟩
  · rcases hc with rfl | rfl | rfl <;> decide
  · rcases hc with rfl | rfl | rfl <;> decide
  · obtain ⟨-, h1, h2, h3⟩ := hb.unmarked c hmem
    rcases hc with h | h | h
    · exact h1 h
    · exact h2 h
    · exact h3 h

theorem trim_includeLine : trim (includeLine base).toList = (includeLine base).toList := by
  refine trim_eq_self ?_ ?_
  · rw [toList_includeLine]
    intro c hc
    obtain rfl : 'i' = c := by simpa using hc
    decide
  · intro c hc
    refine hb.last c ?_
    rw [toList_includeLine, List.getLast?_append_of_ne_nil _ (List.cons_ne_nil _ _),
      List.getLast?_cons] at hc
    rcases List.eq_nil_or_concat base.toList with h | ⟨t, d, h⟩
    · exact absurd h hb.ne_nil
    · rw [h] at hc ⊢
      simpa using hc

theorem words_includeLine : words (includeLine base).toList = [(includeLine base).toList] := by
  rw [words, trim_includeLine hb]
  exact List.splitOn_eq_singleton (not_mem_includeLine hb (by simp))

theorem firstWord_includeLine :
    firstWord (includeLine base).toList = (includeLine base).toList := by
  unfold firstWord
  simp only [words_includeLine hb, List.head_cons]

theorem splitOn_includeLine :
    (includeLine base).toList.splitOn ':' = ["include".toList, base.toList] := by
  rw [toList_includeLine, List.splitOn_append_cons_self_of_not_mem (by decide),
    List.splitOn_eq_singleton]
  exact fun h => (hb.unmarked ':' h).1 rfl

theorem cleanLine_includeLine :
    cleanLine (includeLine base).toList = some (includeLine base).toList := by
  refine cleanLine_eq_self (not_mem_includeLine hb (Or.inl rfl)) (trim_includeLine hb) ?_
  rw [toList_includeLine]
  exact List.cons_ne_nil _ _

theorem ofLine_includeLine (family : Family) :
    Rule.ofLine family (includeLine base).toList = .ok (.including base) := by
  have hlabel : RuleKind.ofLabel (String.ofList "include".toList) = .inclusion := by decide +kernel
  cases family with
  | site =>
    have hpattern : Rule.ofPattern (includeLine base).toList = .ok (.including base) := by
      unfold Rule.ofPattern
      simp only [splitOn_includeLine hb, hlabel]
      rfl
    simp only [Rule.ofLine, Rule.ofSiteLine, firstWord_includeLine hb, words_includeLine hb,
      hpattern]
    rfl
  | ip =>
    simp only [Rule.ofLine, Rule.ofIpLine, firstWord_includeLine hb, splitOn_includeLine hb]
    rfl

/-- The line loads to an inclusion, in a list of either family. -/
theorem readLine_includeLine (family : Family) :
    RuleList.readLine family (utf8 (includeLine base)) = .ok (some (.including base)) := by
  unfold RuleList.readLine
  simp only [ofUtf8?_utf8, cleanLine_includeLine hb, ofLine_includeLine hb]

/-- The line alone is a file of one line. -/
theorem fileLines_includeLine :
    fileLines (utf8 (includeLine base)) = [utf8 (includeLine base)] := by
  have hfeed : (10 : UInt8) ∉ utf8 (includeLine base) := by
    intro h
    have hmem := feed_mem_utf8.mp h
    exact not_mem_includeLine hb (by simp) hmem
  have hne : utf8 (includeLine base) ≠ [] := by
    rw [Ne, utf8_eq_nil_iff, ← String.toList_eq_nil_iff, toList_includeLine]
    simp
  rw [fileLines, List.splitOn_eq_singleton hfeed, closeLines, if_neg hne]

end Line

/-! ### The files that hold it -/

namespace RuleList

/-- The rules on some lines are that of the first one, if it has one, and those on the others. -/
theorem readLines_cons_eq_ok {family : Family} {line : List UInt8} {lines : List (List UInt8)}
    {rules : List Rule} : readLines family (line :: lines) = .ok rules ↔
      ∃ rule? rest, readLine family line = .ok rule? ∧ readLines family lines = .ok rest ∧
        rules = rule?.toList ++ rest := by
  rw [readLines]
  rcases readLine family line with e | rule?
  · simp
  · rcases readLines family lines with e | rest
    · simp
    · simp [eq_comm]

/-- Every line of a file that is read is, and the rules have the rule of the line if it has one. -/
theorem exists_of_readLines {family : Family} {lines : List (List UInt8)} {rules : List Rule}
    (h : readLines family lines = .ok rules) {line : List UInt8} (hmem : line ∈ lines) :
    ∃ rule?, readLine family line = .ok rule? ∧ ∀ r ∈ rule?, r ∈ rules := by
  induction lines generalizing rules with
  | nil => exact absurd hmem List.not_mem_nil
  | cons head lines ih =>
    obtain ⟨rule?, rest, hhead, htail, rfl⟩ := readLines_cons_eq_ok.mp h
    rcases List.mem_cons.mp hmem with rfl | hmem
    · exact ⟨rule?, hhead, fun r hr => List.mem_append_left _ (Option.mem_toList.mpr hr)⟩
    · obtain ⟨rule?', hread, hrest⟩ := ih htail hmem
      exact ⟨rule?', hread, fun r hr => List.mem_append_right _ (hrest r hr)⟩

theorem mem_of_readLines {family : Family} {lines : List (List UInt8)} {rules : List Rule}
    (h : readLines family lines = .ok rules) {line : List UInt8} (hmem : line ∈ lines) {r : Rule}
    (hr : readLine family line = .ok (some r)) : r ∈ rules := by
  obtain ⟨rule?, hread, hrules⟩ := exists_of_readLines h hmem
  obtain rfl : rule? = some r := Except.ok.inj (hread.symm.trans hr)
  exact hrules r rfl

theorem load_eq_ok {base : String} {bytes : List UInt8} {l : RuleList}
    (h : load base bytes = .ok l) : l.name = uppercase base ∧
      readLines (.ofFileName base) (fileLines bytes) = .ok l.rules := by
  unfold load at h
  rcases hlines : readLines (.ofFileName base) (fileLines bytes) with e | rules
  · rw [hlines] at h
    cases h
  · rw [hlines] at h
    obtain rfl := Except.ok.inj h
    exact ⟨rfl, rfl⟩

theorem family_of_load {base : String} {bytes : List UInt8} {l : RuleList}
    (h : load base bytes = .ok l) : l.family = .ofFileName base := by
  unfold load at h
  split at h
  · cases h
  · obtain rfl := Except.ok.inj h
    rfl

end RuleList

/-! ### The names -/

theorem uppercase_lowercase_iff (s : String) :
    uppercase (lowercase s) = uppercase s ↔ ∀ c ∈ s.toList, c ∉ lostCapitals := by
  rw [← upper_lower_iff, uppercase, uppercase, lowercase, String.toList_ofList,
    String.ofList_inj]

/-- **Including a list by its file name.** The line loads to an inclusion, alone or among others. It
asks for the name that the list of the file has exactly if the file name holds no lost capital, and
then it takes in that very list. -/
theorem include_by_fileName {base : String} (hb : PlainName base.toList) {bytes : List UInt8}
    {l : RuleList} (hl : RuleList.load base bytes = .ok l) :
    (∀ family, RuleList.readLine family (utf8 (includeLine base)) = .ok (some (.including base))) ∧
    (∀ name, RuleList.load name (utf8 (includeLine base)) =
      .ok ⟨uppercase name, .ofFileName name, [.including base]⟩) ∧
    (∀ name file m, utf8 (includeLine base) ∈ fileLines file → RuleList.load name file = .ok m →
      .including base ∈ m.rules) ∧
    ((Rule.including base).target = l.name ↔ ∀ c ∈ base.toList, c ∉ lostCapitals) ∧
    ∀ (reg : Registry) (root : RuleList), reg.get? l.name = some l →
      .including base ∈ root.rules → (∀ c ∈ base.toList, c ∉ lostCapitals) →
        reg.get? (Rule.including base).target = some l ∧
        (∀ x, root.resolve reg = .ok x → l.name ∈ x.taken ∧
          ∀ r ∈ l.rules, r.isInclusion = false → r ∈ x.rules) ∧
        ∀ e, root.resolve reg = .error e → uppercase e.value ≠ l.name := by
  have hline := readLine_includeLine hb
  have htarget : (Rule.including base).target = l.name ↔ ∀ c ∈ base.toList, c ∉ lostCapitals := by
    rw [(RuleList.load_eq_ok hl).1]
    exact uppercase_lowercase_iff base
  refine ⟨hline, fun name => ?_, fun name file m hmem hm => ?_, htarget,
    fun reg root hget hroot hfree => ?_⟩
  · unfold RuleList.load
    simp only [fileLines_includeLine hb, RuleList.readLines, hline, Option.toList_some,
      List.append_nil]
  · exact RuleList.mem_of_readLines (RuleList.load_eq_ok hm).2 hmem (hline _)
  · have hname := htarget.mpr hfree
    have hreach : Expansion.Reaches reg root.rules l.name :=
      .own (Expansion.mem_targets.mpr ⟨_, hroot, rfl, hname⟩)
    refine ⟨hname ▸ hget, fun x hx => ⟨?_, fun r hr hi => ?_⟩, fun e he hvalue => ?_⟩
    · exact (RuleList.mem_taken_iff hx).mpr hreach
    · exact (RuleList.mem_rules_iff hx).mpr ⟨hi, Or.inr ⟨_, l, hreach, hget, hr⟩⟩
    · refine (RuleList.resolve_error he).2 ?_
      rw [hvalue]
      exact Registry.mem_names_iff.mpr ⟨l, hget⟩

/-- A name whose upper case is longer than it is and whose lower case has a final sigma. -/
theorem include_by_fileName_sigma : PlainName "Maß-ΜΑΣ".toList ∧
    RuleList.load "Maß-ΜΑΣ" [] = .ok ⟨"MASS-ΜΑΣ", .site, []⟩ ∧
    (Rule.including "Maß-ΜΑΣ").value = "maß-μας" ∧
    (Registry.ofList [⟨"MASS-ΜΑΣ", .site, []⟩]).get? (Rule.including "Maß-ΜΑΣ").target =
      some ⟨"MASS-ΜΑΣ", .site, []⟩ := by
  have hb : PlainName "Maß-ΜΑΣ".toList := by decide +kernel
  have hl : RuleList.load "Maß-ΜΑΣ" [] = .ok ⟨"MASS-ΜΑΣ", .site, []⟩ := by decide +kernel
  have hfree : ∀ c ∈ "Maß-ΜΑΣ".toList, c ∉ lostCapitals := by simp [lostCapitals]
  have hget : (Registry.ofList [⟨"MASS-ΜΑΣ", .site, []⟩]).get? "MASS-ΜΑΣ" =
      some ⟨"MASS-ΜΑΣ", .site, []⟩ := by decide
  have hload := include_by_fileName hb hl
  exact ⟨hb, hl, by decide +kernel, (hload.2.2.2.2 _ ⟨"", .site, [.including "Maß-ΜΑΣ"]⟩ hget
    List.mem_cons_self hfree).1⟩

/-- The list of a file whose name is the sign for kelvin, a lost capital. -/
def RuleList.kelvin : RuleList := ⟨"\u212a", .site, [⟨.domain, "a.com", []⟩]⟩

/-- The list of a file that includes it by its name. -/
def RuleList.kelvinUser : RuleList := ⟨"B", .site, [.including "\u212a"]⟩

/-- A list that is there is missed: both files load, and the inclusion asks for the letter K. -/
theorem kelvin_not_found :
    PlainName "\u212a".toList ∧ RuleList.load "\u212a" (utf8 "a.com") = .ok .kelvin ∧
    RuleList.load "b" (utf8 (includeLine "\u212a")) = .ok .kelvinUser ∧
    (Registry.ofList [.kelvin, .kelvinUser]).get? "\u212a" = some .kelvin ∧
    RuleList.kelvinUser.resolve (.ofList [.kelvin, .kelvinUser]) = .error ⟨"k"⟩ := by
  have hmiss : Expansion.pass (.ofList [.kelvin, .kelvinUser]) [] RuleList.kelvinUser.rules =
      .error ⟨"k"⟩ := by decide +kernel
  exact ⟨by decide +kernel, by decide +kernel, by decide +kernel, by decide,
    RuleList.resolve_of_error (Expansion.passes_of_error hmiss)⟩

end GeoRules
