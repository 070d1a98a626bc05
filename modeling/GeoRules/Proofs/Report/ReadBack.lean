import GeoRules.Proofs.RuleList.Rendered
import GeoRules.Report.CategoryIndex
import GeoRules.Report.ProxyRules

/-! # Reading the reports back

If no name and no value holds a line feed (`RuleList.Unbroken`), the texts of the reports determine
what was recorded, whatever the names and values look like. The text of a report determines its
lines (`ofLines_inj`). The lines of the index are cut at the second heading, which is the line of no
name, as it is not indented (`CategoryIndex.lines_inj`). In the proxy rules the line of a rule
starts with a hyphen and a header does not, so the rules of a list end where the next header stands
(`ProxyRules.blocks_inj`). The list of a file whose name has no line feed has none in its values
either (`RuleList.unbroken_of_load`).

Main statement: `reports_determine`. -/

namespace GeoRules

open Text

/-! ### Texts of lines -/

theorem splitOn_ofLines {lines : List String} (h : ∀ line ∈ lines, '\n' ∉ line.toList) :
    (ofLines lines).toList.splitOn '\n' = lines.map String.toList ++ [[]] := by
  unfold ofLines
  rw [String.toList_ofList]
  induction lines with
  | nil => rfl
  | cons line lines ih =>
    obtain ⟨hline, hlines⟩ := List.forall_mem_cons.mp h
    rw [List.flatMap_cons, List.append_assoc, List.singleton_append,
      List.splitOn_append_cons_self_of_not_mem hline, ih hlines]
    rfl

/-- **Lines without line feeds** are read back from their text. -/
theorem ofLines_inj {lines lines' : List String} (h : ∀ line ∈ lines, '\n' ∉ line.toList)
    (h' : ∀ line ∈ lines', '\n' ∉ line.toList) (heq : ofLines lines = ofLines lines') :
    lines = lines' := by
  have hsplit : lines.map String.toList ++ [[]] = lines'.map String.toList ++ [[]] := by
    rw [← splitOn_ofLines h, ← splitOn_ofLines h', heq]
  have hinj : Function.Injective String.toList := fun _ _ => String.toList_inj.mp
  exact (List.map_injective_iff.mpr hinj) (List.append_cancel_right hsplit)

theorem not_mem_lowercase {name : String} (h : '\n' ∉ name.toList) :
    '\n' ∉ (lowercase name).toList := by
  rw [lowercase, String.toList_ofList]
  exact fun hmem => h (mem_of_mem_lower (by decide) (by decide) hmem)

/-! ### Lists without line feeds -/

namespace RuleList

/-- No name and no value of the list holds a line feed. -/
structure Unbroken (l : RuleList) : Prop where
  name : '\n' ∉ l.name.toList
  values : ∀ r ∈ l.rules, '\n' ∉ r.value.toList

instance (l : RuleList) : Decidable l.Unbroken :=
  decidable_of_iff ('\n' ∉ l.name.toList ∧ ∀ r ∈ l.rules, '\n' ∉ r.value.toList)
    ⟨fun h => ⟨h.1, h.2⟩, fun h => ⟨h.name, h.values⟩⟩

/-- The lower-cased names of the lists of the family, in order. -/
def namesOf (family : Family) (ls : List RuleList) : List String :=
  (ls.filter (·.family = family)).map fun l => lowercase l.name

/-- What the proxy rules show of a list: the family, the lower-cased name and the values in order.
-/
def shown (l : RuleList) : Family × String × List String :=
  (l.family, lowercase l.name, l.rules.map Rule.value)

end RuleList

open RuleList (Unbroken namesOf shown)

variable {ls ls' : List RuleList}

/-! ### The index -/

namespace CategoryIndex

variable {index index' : CategoryIndex}

theorem nameLine_inj : Function.Injective nameLine := by
  intro name name' h
  have hlist := congrArg String.toList h
  rw [nameLine, nameLine, String.toList_append, String.toList_append] at hlist
  exact String.toList_inj.mp (List.append_cancel_left hlist)

/-- A heading is the line of no name. -/
theorem heading_not_mem (family : Family) (names : List String) :
    heading family ∉ names.map nameLine := by
  intro hmem
  obtain ⟨name, -, hname⟩ := List.mem_map.mp hmem
  have hhead := congrArg (fun line => line.toList.head?) hname
  rw [nameLine, String.toList_append] at hhead
  cases family <;> cases hhead

/-- **The lines of an index** determine the index. -/
theorem lines_inj (h : index.lines = index'.lines) : index = index' := by
  unfold lines at h
  rw [List.cons_append, List.cons_append, List.cons.injEq,
    List.append_cons_inj_of_notMem (heading_not_mem _ _) (heading_not_mem _ _)] at h
  obtain ⟨-, hsite, -, hip⟩ := h
  have hinj := List.map_injective_iff.mpr nameLine_inj
  have hsites : index.site = index'.site := hinj hsite
  have hips : index.ip = index'.ip := hinj hip
  obtain ⟨site, ip⟩ := index
  subst hsites hips
  rfl

theorem foldl_record (index : CategoryIndex) (ls : List RuleList) :
    ls.foldl record index = ⟨index.site ++ namesOf .site ls, index.ip ++ namesOf .ip ls⟩ := by
  induction ls generalizing index with
  | nil => simp [namesOf]
  | cons l ls ih =>
    rw [List.foldl_cons, ih, record]
    rcases hfamily : l.family with _ | _
    · simp [namesOf, hfamily]
    · simp [namesOf, hfamily]

theorem not_mem_of_mem_namesOf {family : Family} (h : ∀ l ∈ ls, l.Unbroken) {name : String}
    (hname : name ∈ namesOf family ls) : '\n' ∉ name.toList := by
  obtain ⟨l, hl, rfl⟩ := List.mem_map.mp hname
  exact not_mem_lowercase (h l (List.mem_of_mem_filter hl)).name

theorem not_mem_line (h : ∀ l ∈ ls, l.Unbroken) :
    ∀ line ∈ (ls.foldl record {}).lines, '\n' ∉ line.toList := by
  have hname : ∀ family, ∀ line ∈ (namesOf family ls).map nameLine, '\n' ∉ line.toList := by
    intro family line hline
    obtain ⟨name, hname, rfl⟩ := List.mem_map.mp hline
    have hfeed := not_mem_of_mem_namesOf h hname
    rw [nameLine, String.toList_append, List.mem_append, not_or]
    exact ⟨by decide, hfeed⟩
  have hheading : ∀ family, '\n' ∉ (heading family).toList := by
    intro family
    cases family <;> decide
  rw [foldl_record]
  unfold lines
  intro line hline
  rcases List.mem_append.mp hline with hline | hline
  · rcases List.mem_cons.mp hline with rfl | hline
    · exact hheading _
    · exact hname _ line hline
  · rcases List.mem_cons.mp hline with rfl | hline
    · exact hheading _
    · exact hname _ line hline

/-- **The text of the index** determines the names of each family in their order. -/
theorem names_of_render (h : ∀ l ∈ ls, l.Unbroken) (h' : ∀ l ∈ ls', l.Unbroken)
    (heq : (ls.foldl record {}).render = (ls'.foldl record {}).render) (family : Family) :
    namesOf family ls = namesOf family ls' := by
  have hindex := lines_inj (ofLines_inj (not_mem_line h) (not_mem_line h') heq)
  rw [foldl_record, foldl_record, CategoryIndex.mk.injEq] at hindex
  obtain ⟨hsite, hip⟩ := hindex
  cases family with
  | site => exact hsite
  | ip => exact hip

end CategoryIndex

/-! ### The proxy rules -/

namespace ProxyRules

/-- Whether the line starts with a hyphen, as the lines of rules do. -/
def isRuleLine (line : String) : Bool := line.toList.head? == some '-'

theorem isRuleLine_ruleLine (family : Family) (value : String) :
    isRuleLine (ruleLine family value) = true := by
  unfold isRuleLine ruleLine
  cases family <;> simp only [String.toList_append] <;> rfl

theorem isRuleLine_header (family : Family) (name : String) :
    isRuleLine (header family name) = false := by
  unfold isRuleLine header
  cases family <;> simp only [String.toList_append] <;> rfl

theorem ruleLine_inj (family : Family) : Function.Injective (ruleLine family) := by
  intro value value' h
  have hlist := congrArg String.toList h
  unfold ruleLine at hlist
  cases family with
  | site | ip =>
    simp only [String.toList_append] at hlist
    exact String.toList_inj.mp (List.append_cancel_left (List.append_cancel_right hlist))

/-- Headers tell the families apart by their third character. -/
theorem header_inj {family family' : Family} {name name' : String}
    (h : header family name = header family' name') :
    family = family' ∧ lowercase name = lowercase name' := by
  have hlist := congrArg String.toList h
  unfold header at hlist
  cases family with
  | site =>
    cases family' with
    | site =>
      simp only [String.toList_append] at hlist
      exact ⟨rfl, String.toList_inj.mp (List.append_cancel_left hlist)⟩
    | ip =>
      simp only [String.toList_append] at hlist
      cases congrArg (·[2]?) hlist
  | ip =>
    cases family' with
    | site =>
      simp only [String.toList_append] at hlist
      cases congrArg (·[2]?) hlist
    | ip =>
      simp only [String.toList_append] at hlist
      exact ⟨rfl, String.toList_inj.mp (List.append_cancel_left hlist)⟩

theorem lines_foldl_record (rules : ProxyRules) (ls : List RuleList) :
    (ls.foldl record rules).lines = rules.lines ++ ls.flatMap block := by
  induction ls generalizing rules with
  | nil => simp
  | cons l ls ih => rw [List.foldl_cons, ih, record, List.append_assoc, List.flatMap_cons]

theorem takeWhile_blocks (ls : List RuleList) :
    (ls.flatMap block).takeWhile isRuleLine = [] ∧
      (ls.flatMap block).dropWhile isRuleLine = ls.flatMap block := by
  rcases ls with _ | ⟨l, ls⟩
  · exact ⟨rfl, rfl⟩
  · have hheader : ¬ isRuleLine (header l.family l.name) = true := by simp [isRuleLine_header]
    rw [List.flatMap_cons, block, List.cons_append]
    exact ⟨List.takeWhile_cons_of_neg hheader, List.dropWhile_cons_of_neg hheader⟩

/-- The lines of the rules of a list are those before the next header. -/
theorem span_rules (family : Family) (values : List String) (ls : List RuleList) :
    (values.map (ruleLine family) ++ ls.flatMap block).takeWhile isRuleLine =
        values.map (ruleLine family) ∧
      (values.map (ruleLine family) ++ ls.flatMap block).dropWhile isRuleLine =
        ls.flatMap block := by
  have hrules : ∀ line ∈ values.map (ruleLine family), isRuleLine line = true := by
    intro line hline
    obtain ⟨value, -, rfl⟩ := List.mem_map.mp hline
    exact isRuleLine_ruleLine family value
  obtain ⟨htake, hdrop⟩ := takeWhile_blocks ls
  constructor
  · rw [List.takeWhile_append_of_pos hrules, htake, List.append_nil]
  · rw [List.dropWhile_append_of_pos hrules, hdrop]

theorem block_eq (l : RuleList) :
    block l = header l.family l.name :: (l.rules.map Rule.value).map (ruleLine l.family) := by
  rw [block, List.map_map]
  rfl

/-- **The lines of the lists** determine the family, the name and the values of each list. -/
theorem blocks_inj (h : ls.flatMap block = ls'.flatMap block) :
    ls.map shown = ls'.map shown := by
  induction ls generalizing ls' with
  | nil =>
    rcases ls' with _ | ⟨l', ls'⟩
    · rfl
    · rw [List.flatMap_cons, block, List.cons_append] at h
      cases h
  | cons l ls ih =>
    rcases ls' with _ | ⟨l', ls'⟩
    · rw [List.flatMap_cons, block, List.cons_append] at h
      cases h
    · rw [List.flatMap_cons, List.flatMap_cons, block_eq, block_eq, List.cons_append,
        List.cons_append] at h
      obtain ⟨hheader, hlines⟩ := List.cons.inj h
      obtain ⟨hfamily, hname⟩ := header_inj hheader
      rw [← hfamily] at hlines
      have hrules := congrArg (List.takeWhile isRuleLine) hlines
      rw [(span_rules _ _ _).1, (span_rules _ _ _).1] at hrules
      have hrest := congrArg (List.dropWhile isRuleLine) hlines
      rw [(span_rules _ _ _).2, (span_rules _ _ _).2] at hrest
      have hvalues := List.map_injective_iff.mpr (ruleLine_inj l.family) hrules
      have hl : shown l = shown l' := by rw [shown, shown, hfamily, hname, hvalues]
      rw [List.map_cons, List.map_cons, hl, ih hrest]

theorem not_mem_line (h : ∀ l ∈ ls, l.Unbroken) :
    ∀ line ∈ (ls.foldl record {}).lines, '\n' ∉ line.toList := by
  intro line hline
  rw [lines_foldl_record, List.nil_append] at hline
  obtain ⟨l, hl, hline⟩ := List.mem_flatMap.mp hline
  obtain ⟨hname, hvalues⟩ := h l hl
  rcases List.mem_cons.mp hline with rfl | hline
  · have hlower := not_mem_lowercase hname
    unfold header
    cases l.family with
    | site | ip =>
      rw [String.toList_append, List.mem_append, not_or]
      exact ⟨by decide, hlower⟩
  · obtain ⟨r, hr, rfl⟩ := List.mem_map.mp hline
    have hvalue := hvalues r hr
    unfold ruleLine
    cases l.family with
    | site | ip =>
      rw [String.toList_append, String.toList_append, List.mem_append, List.mem_append, not_or,
        not_or]
      exact ⟨⟨by decide, hvalue⟩, by decide⟩

/-- **The text of the proxy rules** determines the family, the name and the values of each list. -/
theorem shown_of_render (h : ∀ l ∈ ls, l.Unbroken) (h' : ∀ l ∈ ls', l.Unbroken)
    (heq : (ls.foldl record {}).render = (ls'.foldl record {}).render) :
    ls.map shown = ls'.map shown := by
  have hlines := ofLines_inj (not_mem_line h) (not_mem_line h') heq
  rw [lines_foldl_record, lines_foldl_record] at hlines
  exact blocks_inj hlines

end ProxyRules

/-! ### Loaded lists -/

namespace RuleList

variable {base : String} {bytes : List UInt8} {l : RuleList}

theorem not_mem_value_of_load (h : load base bytes = .ok l) :
    ∀ r ∈ l.rules, '\n' ∉ r.value.toList := by
  intro r hr hmem
  obtain ⟨text, htext, hrule⟩ := (mem_rules_of_load_iff h).mp hr
  obtain ⟨-, -, -, hfeed⟩ := htext.plain
  exact hfeed (Rule.mem_of_mem_value hrule (by decide) (by decide) hmem).1

/-- **The list of a file** whose name has no line feed has none in its name and its values. -/
theorem unbroken_of_load (h : load base bytes = .ok l) (hbase : '\n' ∉ base.toList) :
    l.Unbroken := by
  refine ⟨?_, not_mem_value_of_load h⟩
  rw [(load_eq_ok h).1, uppercase, String.toList_ofList]
  exact fun hmem => hbase (mem_of_mem_upper (by decide) (by decide) hmem)

end RuleList

/-! ### Both reports -/

/-- **The reports can be read back.** The text of the index determines the names of each family in
their order, and the text of the proxy rules determines the lists in their order, each with its
family, its lower-cased name and the values of its rules, if no name and no value holds a line feed.
No value that was loaded from a file does, and the name does not if that of the file does not. -/
theorem reports_determine :
    (∀ ls ls' : List RuleList, (∀ l ∈ ls, l.Unbroken) → (∀ l ∈ ls', l.Unbroken) →
      ((ls.foldl CategoryIndex.record {}).render = (ls'.foldl CategoryIndex.record {}).render →
        ∀ family, namesOf family ls = namesOf family ls') ∧
      ((ls.foldl ProxyRules.record {}).render = (ls'.foldl ProxyRules.record {}).render →
        ls.map shown = ls'.map shown)) ∧
    ∀ base bytes l, RuleList.load base bytes = .ok l →
      (∀ r ∈ l.rules, '\n' ∉ r.value.toList) ∧ ('\n' ∉ base.toList → l.Unbroken) := by
  refine ⟨fun ls ls' h h' => ⟨fun heq => ?_, fun heq => ?_⟩, fun base bytes l h => ⟨?_, ?_⟩⟩
  · exact CategoryIndex.names_of_render h h' heq
  · exact ProxyRules.shown_of_render h h' heq
  · exact RuleList.not_mem_value_of_load h
  · exact RuleList.unbroken_of_load h

namespace RuleList

/-- Lists with names and values that look like headings, headers and lines of rules. -/
def lookalikes : List RuleList := [
  ⟨"V2IP:", .site, [⟨.full, "x,Proxy", []⟩, ⟨.domain, "# IP:b", []⟩]⟩, ⟨"", .ip, []⟩,
  ⟨"- A", .ip, [⟨.ip, "/32,Proxy", []⟩]⟩]

/-- The names in small letters, and the values with other kinds and attributes. -/
def lookalikes' : List RuleList := [
  ⟨"v2ip:", .site, [⟨.unknown, "x,Proxy", []⟩, ⟨.regex, "# IP:b", [⟨"@k", .flag true⟩]⟩]⟩,
  ⟨"", .ip, []⟩, ⟨"- a", .ip, [⟨.inclusion, "/32,Proxy", []⟩]⟩]

/-- The second list of `lookalikes` has come to stand at the end. -/
def lookalikesMoved : List RuleList := lookalikes.eraseIdx 1 ++ [⟨"", .ip, []⟩]

end RuleList

open RuleList (lookalikes lookalikes' lookalikesMoved)

/-- Lists of other kinds and attributes are seen as the same, those in another order are not, and a
list with a carriage return in a value was loaded without a line feed. -/
theorem reports_determine_lookalikes :
    (∀ l ∈ lookalikes, l.Unbroken) ∧ (∀ l ∈ lookalikes', l.Unbroken) ∧
    (∀ l ∈ lookalikesMoved, l.Unbroken) ∧
    namesOf .site lookalikes = namesOf .site lookalikes' ∧
    lookalikes.map shown = lookalikes'.map shown ∧
    (lookalikes.foldl CategoryIndex.record {}).render ≠
      (lookalikesMoved.foldl CategoryIndex.record {}).render ∧
    (lookalikes.foldl ProxyRules.record {}).render ≠
      (lookalikesMoved.foldl ProxyRules.record {}).render ∧
    RuleList.Unbroken ⟨"A-IP", .ip, [⟨.ip, "a\rb", []⟩]⟩ := by
  have h : ∀ l ∈ lookalikes, l.Unbroken := by decide +kernel
  have h' : ∀ l ∈ lookalikes', l.Unbroken := by decide +kernel
  have hmoved : ∀ l ∈ lookalikesMoved, l.Unbroken := by decide +kernel
  have hload : RuleList.load "a-ip" (utf8 "a\rB\r\n") =
      .ok ⟨"A-IP", .ip, [⟨.ip, "a\rb", []⟩]⟩ := by decide +kernel
  obtain ⟨hindex, hproxy⟩ := reports_determine.1 _ _ h h'
  obtain ⟨hindexMoved, hproxyMoved⟩ := reports_determine.1 _ _ h hmoved
  have hnameLines : (lookalikes.foldl CategoryIndex.record {}).lines =
      (lookalikes'.foldl CategoryIndex.record {}).lines := by decide +kernel
  have hruleLines : (lookalikes.foldl ProxyRules.record {}).lines =
      (lookalikes'.foldl ProxyRules.record {}).lines := by decide +kernel
  refine ⟨h, h', hmoved, hindex (congrArg ofLines hnameLines) .site,
    hproxy (congrArg ofLines hruleLines), fun heq => ?_, fun heq => ?_,
    (reports_determine.2 _ _ _ hload).2 (by decide)⟩
  · have hnames := hindexMoved heq .ip
    revert hnames
    decide +kernel
  · have hshown := hproxyMoved heq
    revert hshown
    decide +kernel

end GeoRules
