import GeoRules.Proofs.Rule.Rendered
import GeoRules.Text.Lines

/-! # Site lists as texts

The text of a list has a line for each rule. No line of it holds a line feed or ends with a carriage
return, so the file of the text has these very lines (`fileLines_ofLines`). What was loaded from a
file is settled (`RuleList.settled_of_readLine`), and so the text of a loaded list loads to the list
(`RuleList.load_text`). -/

namespace GeoRules

open Text

/-- The text of a list, a line to each rule. -/
def RuleList.text (l : RuleList) : String := ofLines (l.rules.map fun r => String.ofList r.line)

/-! ### Lines of a file -/

section
variable {lines : List (List UInt8)} {line : List UInt8}

theorem exists_prefix_of_mem_closeLines (h : line ∈ closeLines lines) :
    ∃ l ∈ lines, line <+: l := by
  fun_induction closeLines lines with
  | case1 => exact absurd h List.not_mem_nil
  | case2 => exact absurd h List.not_mem_nil
  | case3 last hlast =>
    obtain rfl := List.mem_singleton.mp h
    exact ⟨line, List.mem_cons_self, List.prefix_refl _⟩
  | case4 l next lines ih =>
    rcases List.mem_cons.mp h with rfl | h
    · refine ⟨l, List.mem_cons_self, ?_⟩
      unfold dropReturn
      split
      · exact List.dropLast_prefix _
      · exact List.prefix_refl _
    · obtain ⟨l', hl', hle⟩ := ih h
      exact ⟨l', List.mem_cons_of_mem _ hl', hle⟩

theorem not_mem_of_mem_fileLines {bytes : List UInt8} (h : line ∈ fileLines bytes) :
    (10 : UInt8) ∉ line := by
  obtain ⟨l, hl, hle⟩ := exists_prefix_of_mem_closeLines h
  exact fun hmem => not_mem_of_mem_splitOn hl (hle.mem hmem)

theorem closeLines_concat (lines : List (List UInt8)) :
    closeLines (lines ++ [[]]) = lines.map dropReturn := by
  induction lines with
  | nil => rfl
  | cons l lines ih =>
    rcases lines with _ | ⟨l', lines⟩
    · rfl
    · rw [List.cons_append, List.cons_append, closeLines, List.map_cons, ← ih, List.cons_append]

end

theorem utf8_ofLines (lines : List String) :
    utf8 (ofLines lines) = lines.flatMap fun line => utf8 line ++ [10] := by
  simp only [utf8_eq_flatMap, ofLines, String.toList_ofList, List.flatMap_assoc,
    List.flatMap_append, List.flatMap_cons, List.flatMap_nil, List.append_nil, utf8EncodeChar_feed]

/-- A text that ends plain has no carriage return at its end. -/
theorem dropReturn_utf8 {s : String} (h : EndsPlain s.toList) : dropReturn (utf8 s) = utf8 s := by
  obtain ⟨c, hlast, hblank⟩ := h
  obtain ⟨t, ht⟩ := List.getLast?_eq_some_iff.mp hlast
  unfold dropReturn
  rw [if_neg]
  intro hreturn
  rw [utf8_eq_flatMap, ht, List.flatMap_append, List.flatMap_singleton,
    List.getLast?_append_of_ne_nil _ String.utf8EncodeChar_ne_nil] at hreturn
  have hc : c = '\r' := (mem_utf8EncodeChar (by decide)).mp (List.mem_of_getLast? hreturn)
  rw [hc] at hblank
  revert hblank
  decide

/-- **Lines are read back from their text**, if they hold no line feed and end plain. -/
theorem fileLines_ofLines {lines : List String}
    (h : ∀ line ∈ lines, '\n' ∉ line.toList ∧ EndsPlain line.toList) :
    fileLines (utf8 (ofLines lines)) = lines.map utf8 := by
  have hsplit : (utf8 (ofLines lines)).splitOn 10 = lines.map utf8 ++ [[]] := by
    rw [utf8_ofLines]
    induction lines with
    | nil => rfl
    | cons line lines ih =>
      obtain ⟨⟨hline, -⟩, hlines⟩ := List.forall_mem_cons.mp h
      have hfeed : (10 : UInt8) ∉ utf8 line := fun hmem => hline (feed_mem_utf8.mp hmem)
      rw [List.flatMap_cons, List.append_assoc, List.singleton_append,
        List.splitOn_append_cons_self_of_not_mem hfeed, ih hlines]
      rfl
  rw [fileLines, hsplit, closeLines_concat, List.map_map]
  exact List.map_congr_left fun line hline => dropReturn_utf8 (h line hline).2

namespace RuleList

variable {l : RuleList}

/-- What is left of a line of a file has no line feed either. -/
theorem HasLine.plain {bytes : List UInt8} {text : List Char} (h : HasLine bytes text) :
    trim text = text ∧ EndsPlain text ∧ '#' ∉ text ∧ '\n' ∉ text := by
  obtain ⟨s, hline, htext⟩ := h
  exact cleanLine_plain (fun hmem => not_mem_of_mem_fileLines hline (feed_mem_utf8.mpr hmem)) htext

theorem settled_of_readLine {line : List UInt8} {r : Rule} (hline : (10 : UInt8) ∉ line)
    (h : readLine .site line = .ok (some r)) : r.Settled := by
  obtain ⟨s, text, rfl, htext, hrule⟩ := readLine_eq_some_iff.mp h
  obtain ⟨htrim, hends, hnumber, hfeed⟩ :=
    cleanLine_plain (fun hmem => hline (feed_mem_utf8.mpr hmem)) htext
  exact Rule.settled_of_ofSiteLine hrule htrim hends hnumber hfeed

theorem readLine_line {r : Rule} (h : r.Settled) :
    readLine .site (utf8 (String.ofList r.line)) = .ok (some r) := by
  refine readLine_eq_some_iff.mpr ⟨_, r.line, rfl, ?_, h.ofSiteLine_line⟩
  rw [String.toList_ofList]
  exact cleanLine_eq_self h.not_mem_line.1 h.trim_line h.ends.ne_nil

theorem readLines_of_forall {rules : List Rule} {line : Rule → List UInt8}
    (h : ∀ r ∈ rules, readLine .site (line r) = .ok (some r)) :
    readLines .site (rules.map line) = .ok rules := by
  induction rules with
  | nil => rfl
  | cons r rules ih =>
    obtain ⟨hr, hrules⟩ := List.forall_mem_cons.mp h
    exact readLines_cons_eq_ok.mpr ⟨some r, rules, hr, ih hrules, rfl⟩

/-- **The text of a loaded site list loads to the list**: the same name, and the same kinds, values
and attributes in the same order. -/
theorem load_text {base : String} (hbase : Family.ofFileName base = .site) {bytes : List UInt8}
    (h : load base bytes = .ok l) : load base (utf8 l.text) = .ok l := by
  obtain ⟨-, hlines⟩ := load_eq_ok h
  have hsettled : ∀ r ∈ l.rules, r.Settled := by
    intro r hr
    obtain ⟨line, hline, hread⟩ := exists_line_of_mem hlines hr
    exact settled_of_readLine (not_mem_of_mem_fileLines hline) (hbase ▸ hread)
  have hrendered : ∀ line ∈ l.rules.map fun r => String.ofList r.line,
      '\n' ∉ line.toList ∧ EndsPlain line.toList := by
    intro line hline
    obtain ⟨r, hr, rfl⟩ := List.mem_map.mp hline
    rw [String.toList_ofList]
    exact ⟨(hsettled r hr).not_mem_line.2, (hsettled r hr).ends⟩
  have hagain : readLines (.ofFileName base) (fileLines (utf8 l.text)) = .ok l.rules := by
    rw [text, fileLines_ofLines hrendered, List.map_map, hbase]
    exact readLines_of_forall fun r hr => readLine_line (hsettled r hr)
  rw [← h]
  unfold load
  rw [hagain, hlines]

/-- A list with tabs in its words, a label of no kind, an empty value and an empty key. -/
def mixed : RuleList := ⟨"GEO", .site, [
  ⟨.full, "a\tος-b", [⟨"@c\t", .flag true⟩, ⟨"@d", .number (-7)⟩, ⟨"@", .number 9⟩]⟩,
  ⟨.unknown, "", []⟩, ⟨.inclusion, "e", [⟨"@", .flag true⟩]⟩, ⟨.domain, "f", []⟩]⟩

/-- The lines from which it is first loaded, written in another way. -/
def mixedLines : List String :=
  ["  FULL:A\tΟΣ-b @C\t @D=-007 @=+9 # x\r", "", "?: \r", "Include:e @", "F#"]

theorem load_text_mixed :
    load "geo" (utf8 (ofLines mixedLines)) = .ok mixed ∧
    mixed.text = ofLines ["full:a\tος-b @c\t @d=-7 @=9", "unknown:", "include:e @", "domain:f"] ∧
    load "geo" (utf8 mixed.text) = .ok mixed := by
  have hload : load "geo" (utf8 (ofLines mixedLines)) = .ok mixed := by decide +kernel
  exact ⟨hload, by decide +kernel, load_text (by decide) hload⟩

end RuleList

end GeoRules
