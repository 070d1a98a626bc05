import GeoRules.Proofs.Build.Order
import GeoRules.Proofs.Rule.Letters
import GeoRules.Proofs.RuleList.Concatenation

/-! # Files that differ in the case of plain letters

Two files of one name whose bytes differ in nothing but the case of letters from A to Z load to the
same list, or both fail, at the same line and with the same error but for the case of letters in the
words that it names. Registries of such files are therefore equal, and the lists of both compile to
the same messages in whatever orders they are taken, or in neither.

Both files are compared with the one in small letters, which loads as they do (`load_small`).

Main statement: `RuleList.load_letterCase`. -/

namespace GeoRules

open Text

/-- The error with the words that it names in small letters. -/
def ListError.small : ListError → ListError
  | line reason => line reason.small
  | notUtf8 => notUtf8

/-! ### Lines of a file -/

theorem dropReturn_small (line : List UInt8) :
    dropReturn (smallBytes line) = smallBytes (dropReturn line) := by
  have hreturn : (smallBytes line).getLast? = some 13 ↔ line.getLast? = some 13 := by
    unfold smallBytes
    rw [List.getLast?_map]
    rcases line.getLast? with _ | b
    · exact Iff.rfl
    · rw [Option.map_some, Option.some.injEq, Option.some.injEq]
      exact toAsciiLower_eq_iff (by decide)
  unfold dropReturn
  by_cases hlast : line.getLast? = some 13
  · rw [if_pos hlast, if_pos (hreturn.mpr hlast)]
    exact List.map_dropLast.symm
  · rw [if_neg hlast, if_neg (mt hreturn.mp hlast)]

theorem closeLines_small (lines : List (List UInt8)) :
    closeLines (lines.map smallBytes) = (closeLines lines).map smallBytes := by
  induction lines with
  | nil => rfl
  | cons line lines ih =>
    rcases lines with _ | ⟨next, lines⟩
    · have hnil : smallBytes line = [] ↔ line = [] := List.map_eq_nil_iff
      rw [List.map_singleton, closeLines, closeLines]
      by_cases hline : line = []
      · rw [if_pos hline, if_pos (hnil.mpr hline)]
        rfl
      · rw [if_neg hline, if_neg (mt hnil.mp hline)]
        rfl
    · rw [List.map_cons, List.map_cons, closeLines, closeLines, dropReturn_small,
        ← List.map_cons, ih]
      rfl

theorem fileLines_small (bytes : List UInt8) :
    fileLines (smallBytes bytes) = (fileLines bytes).map smallBytes := by
  have hcut : (smallBytes bytes).splitOn 10 = (bytes.splitOn 10).map smallBytes :=
    splitOn_map (fun _ => toAsciiLower_eq_iff (by decide)) bytes
  rw [fileLines, hcut, closeLines_small]
  rfl

namespace RuleList

variable {family : Family} {lines : List (List UInt8)} {e e' : ListError} {n n' : ℕ}

/-! ### Lines that are read -/

theorem readLine_small (family : Family) (line : List UInt8) :
    readLine family (smallBytes line) = (readLine family line).mapError ListError.small := by
  unfold readLine
  rw [ofUtf8?_small]
  rcases ofUtf8? line with _ | s
  · rfl
  · have hclean : cleanLine (smallText s).toList = (cleanLine s.toList).map small := by
      rw [smallText, String.toList_ofList, cleanLine_small]
    simp only [Option.map_some, hclean]
    rcases cleanLine s.toList with _ | text
    · rfl
    · simp only [Option.map_some, Rule.ofLine_small]
      rcases Rule.ofLine family text with reason | rule
      · rfl
      · rfl

theorem readLines_small (family : Family) (lines : List (List UInt8)) :
    readLines family (lines.map smallBytes) =
      (readLines family lines).mapError ListError.small := by
  induction lines with
  | nil => rfl
  | cons line lines ih =>
    rw [List.map_cons, readLines, readLines, readLine_small, ih]
    rcases readLine family line with e | rule?
    · rfl
    · rcases readLines family lines with e | rules
      · rfl
      · rfl

/-- **A file with small letters** loads as the file with capitals does. -/
theorem load_small (base : String) (bytes : List UInt8) :
    load base (smallBytes bytes) = (load base bytes).mapError ListError.small := by
  unfold load
  rw [fileLines_small, readLines_small]
  rcases readLines (.ofFileName base) (fileLines bytes) with e | rules
  · rfl
  · rfl

/-! ### The line that fails -/

/-- The line `n` cannot be read, for the reason `e`, and each line before it can. -/
structure FailsAt (family : Family) (lines : List (List UInt8)) (n : ℕ) (e : ListError) : Prop where
  error : ∃ line, lines[n]? = some line ∧ readLine family line = .error e
  before : ∀ m < n, ∀ line, lines[m]? = some line → ∃ rule?, readLine family line = .ok rule?

theorem exists_failsAt (h : readLines family lines = .error e) : ∃ n, FailsAt family lines n e := by
  obtain ⟨before, line, after, rfl, hbad, hbefore⟩ := readLines_eq_error_iff.mp h
  refine ⟨before.length, ⟨line, by simp, hbad⟩, fun m hm earlier hearlier => ?_⟩
  rw [List.getElem?_append_left hm] at hearlier
  exact hbefore earlier (List.mem_of_getElem? hearlier)

/-- The line that fails first is one line. -/
theorem FailsAt.le (h : FailsAt family lines n e) (h' : FailsAt family lines n' e') : n ≤ n' := by
  obtain ⟨line, hline, hbad⟩ := h'.error
  refine Nat.le_of_not_lt fun hlt => ?_
  obtain ⟨rule?, hok⟩ := h.before n' hlt line hline
  cases hbad.symm.trans hok

/-- Lines with small letters fail where those with capitals do. -/
theorem FailsAt.small (h : FailsAt family lines n e) :
    FailsAt family (lines.map smallBytes) n e.small := by
  obtain ⟨⟨line, hline, hbad⟩, hbefore⟩ := h
  refine ⟨⟨smallBytes line, ?_, ?_⟩, fun m hm line hline => ?_⟩
  · rw [List.getElem?_map, hline, Option.map_some]
  · rw [readLine_small, hbad]
    rfl
  · rw [List.getElem?_map, Option.map_eq_some_iff] at hline
    obtain ⟨capital, hcapital, rfl⟩ := hline
    obtain ⟨rule?, hok⟩ := hbefore m hm capital hcapital
    exact ⟨rule?, by rw [readLine_small, hok]; rfl⟩

theorem exists_failsAt_of_load {base : String} {bytes : List UInt8}
    (h : load base bytes = .error e) : ∃ n, FailsAt (.ofFileName base) (fileLines bytes) n e := by
  refine exists_failsAt ?_
  rw [readLines_fileLines]
  exact load_eq_error_iff.mp h

section
variable {base : String} {bytes bytes' : List UInt8}

theorem load_small_eq_ok_iff {l : RuleList} :
    load base (smallBytes bytes) = .ok l ↔ load base bytes = .ok l := by
  rw [load_small]
  rcases load base bytes with e | m
  · exact iff_of_false (fun h => by cases h) (fun h => by cases h)
  · exact Iff.rfl

/-- Two files that differ in the case of plain letters load to one list, or they fail at one line
and with the same error but for the case of letters. -/
theorem load_of_letters (h : smallBytes bytes = smallBytes bytes') :
    (∃ l, load base bytes = .ok l ∧ load base bytes' = .ok l) ∨
    ∃ e e' n, load base bytes = .error e ∧ load base bytes' = .error e' ∧
      FailsAt (.ofFileName base) (fileLines bytes) n e ∧
      FailsAt (.ofFileName base) (fileLines bytes') n e' ∧ e.small = e'.small := by
  rcases hload : load base bytes with e | l
  · rcases hload' : load base bytes' with e' | l
    · have hsmall : e.small = e'.small := by
        have hboth : (load base bytes).mapError ListError.small =
            (load base bytes').mapError ListError.small := by
          rw [← load_small, ← load_small, h]
        rw [hload, hload'] at hboth
        exact Except.error.inj hboth
      obtain ⟨n, hn⟩ := exists_failsAt_of_load hload
      obtain ⟨n', hn'⟩ := exists_failsAt_of_load hload'
      -- the lines with small letters are those of both files, and one of them fails first
      have hlines : (fileLines bytes).map smallBytes = (fileLines bytes').map smallBytes := by
        rw [← fileLines_small, ← fileLines_small, h]
      have hfirst := hn.small
      rw [hlines] at hfirst
      obtain rfl : n = n' := Nat.le_antisymm (hfirst.le hn'.small) (hn'.small.le hfirst)
      exact Or.inr ⟨e, e', n, rfl, rfl, hn, hn', hsmall⟩
    · rw [← load_small_eq_ok_iff, ← h, load_small_eq_ok_iff, hload] at hload'
      cases hload'
  · have hload' : load base bytes' = .ok l := by
      rwa [← load_small_eq_ok_iff, ← h, load_small_eq_ok_iff]
    exact Or.inl ⟨l, rfl, hload'⟩

end

end RuleList

/-! ### Registries of files -/

/-- The registry of the files, given by their names and bytes, that make lists. -/
def Registry.ofFiles (files : List (String × List UInt8)) : Registry :=
  .ofList (files.filterMap fun file => (RuleList.load file.1 file.2).toOption)

/-- The files have one name, and their bytes differ in the case of plain letters only. -/
def SameLetters (file file' : String × List UInt8) : Prop :=
  file.1 = file'.1 ∧ smallBytes file.2 = smallBytes file'.2

theorem sameLetters_of_eq {base : String} {bytes bytes' : List UInt8}
    (h : smallBytes bytes = smallBytes bytes') : SameLetters (base, bytes) (base, bytes') :=
  ⟨rfl, h⟩

theorem Registry.ofFiles_of_letters {files files' : List (String × List UInt8)}
    (h : List.Forall₂ SameLetters files files') : ofFiles files = ofFiles files' := by
  unfold ofFiles
  refine congrArg Registry.ofList ?_
  induction h with
  | nil => rfl
  | @cons file file' files files' hfile _ ih =>
    obtain ⟨hname, hletters⟩ := hfile
    have hload : (RuleList.load file.1 file.2).toOption =
        (RuleList.load file'.1 file'.2).toOption := by
      rw [← hname]
      rcases @RuleList.load_of_letters file.1 _ _ hletters with
        ⟨l, hl, hl'⟩ | ⟨e, e', n, he, he', -⟩
      · rw [hl, hl']
      · rw [he, he']
        rfl
    rw [List.filterMap_cons, List.filterMap_cons, hload, ih]

namespace RuleList

/-- **The case of plain letters makes no difference.** Two files of one name whose bytes differ in
it alone load to one list, or both fail, at one line and with the same error but for the case of
letters in the words that it names. Registries of such files are equal, and in whatever orders their
lists are taken they compile to the same messages, or neither does. -/
theorem load_letterCase :
    (∀ base bytes bytes', smallBytes bytes = smallBytes bytes' →
      (∃ l, load base bytes = .ok l ∧ load base bytes' = .ok l) ∨
      ∃ e e' n, load base bytes = .error e ∧ load base bytes' = .error e' ∧
        FailsAt (.ofFileName base) (fileLines bytes) n e ∧
        FailsAt (.ofFileName base) (fileLines bytes') n e' ∧ e.small = e'.small) ∧
    ∀ files files', List.Forall₂ SameLetters files files' →
      Registry.ofFiles files = Registry.ofFiles files' ∧
      ∀ ls ls', ls.Perm (Registry.ofFiles files).lists → ls'.Perm (Registry.ofFiles files').lists →
        (∃ c c', (Registry.ofFiles files).compileLists ls = .ok c ∧
          (Registry.ofFiles files').compileLists ls' = .ok c' ∧ c.Reordered c') ∨
        ∃ e e', (Registry.ofFiles files).compileLists ls = .error e ∧
          (Registry.ofFiles files').compileLists ls' = .error e' := by
  refine ⟨fun base bytes bytes' h => load_of_letters h, fun files files' h => ?_⟩
  have hregistry := Registry.ofFiles_of_letters h
  refine ⟨hregistry, fun ls ls' hls hls' => ?_⟩
  rw [← hregistry] at hls' ⊢
  exact Registry.compileLists_outcome (hls.trans hls'.symm)

/-- A list that includes itself, with a capital sigma between letters, a label, a key and a
comment. -/
def sigmaLines : List UInt8 := utf8 "KEYWORD:AΣb @Cn=-07 # X\nInclude:x\r\n"

/-- The list of `sigmaLines` in the other case. -/
def sigmaLines' : List UInt8 := utf8 "keyword:aΣB @cN=-07 # x\niNCLUDE:X\r\n"

/-- What both load to. -/
def sigmaList : RuleList :=
  ⟨"X", .site, [⟨.keyword, "aσb", [⟨"@cn", .number (-7)⟩]⟩, ⟨.inclusion, "x", []⟩]⟩

/-- Lines of which the second one fails. -/
def hexLines : List UInt8 := utf8 "a\nb @K=1F"

/-- The lines of `hexLines` in the other case. -/
def hexLines' : List UInt8 := utf8 "A\nB @k=1f"

/-- Two files that load to one list, two that fail at their second line, and registries of them. -/
theorem load_letterCase_sigma :
    smallBytes sigmaLines = smallBytes sigmaLines' ∧
    load "x" sigmaLines = .ok sigmaList ∧ load "x" sigmaLines' = .ok sigmaList ∧
    smallBytes hexLines = smallBytes hexLines' ∧
    (∃ e', load "y" hexLines' = .error e' ∧ FailsAt .site (fileLines hexLines') 1 e' ∧
      e'.small = .line (.badNumber "@k=1f" .invalidDigit)) ∧
    ∃ c c',
      (Registry.ofFiles [("x", sigmaLines), ("y", hexLines)]).compileLists [sigmaList] = .ok c ∧
      (Registry.ofFiles [("x", sigmaLines'), ("y", hexLines')]).compileLists [sigmaList] = .ok c' ∧
      c.Reordered c' := by
  have hsigma : smallBytes sigmaLines = smallBytes sigmaLines' := by decide +kernel
  have hhex : smallBytes hexLines = smallBytes hexLines' := by decide +kernel
  have hload : load "x" sigmaLines = .ok sigmaList := by decide +kernel
  have hfail : load "y" hexLines = .error (.line (.badNumber "@K=1F" .invalidDigit)) := by
    decide +kernel
  have hfirst :
      FailsAt .site (fileLines hexLines) 1 (.line (.badNumber "@K=1F" .invalidDigit)) := by
    refine ⟨⟨utf8 "b @K=1F", by decide +kernel, by decide +kernel⟩, fun m hm line hline => ?_⟩
    obtain rfl : m = 0 := by omega
    obtain rfl : utf8 "a" = line := Option.some.inj (Eq.trans (by decide +kernel) hline)
    exact ⟨some ⟨.domain, "a", []⟩, by decide +kernel⟩
  have hregistry : Registry.ofFiles [("x", sigmaLines), ("y", hexLines)] = .ofList [sigmaList] := by
    simp only [Registry.ofFiles, List.filterMap_cons, List.filterMap_nil, hload, hfail]
    rfl
  have hresolve : sigmaList.resolve (.ofList [sigmaList]) = .ok ⟨"X", ["X"],
      [⟨.keyword, "aσb", [⟨"@cn", .number (-7)⟩]⟩, ⟨.keyword, "aσb", [⟨"@cn", .number (-7)⟩]⟩]⟩ :=
    resolve_of_ok (Expansion.passes_of_step rfl
      (Expansion.passes_of_last (Expansion.ok_of_pass rfl)))
  have hcompile : ∃ c, (Registry.ofList [sigmaList]).compileLists [sigmaList] = .ok c := by
    refine (Registry.compileLists_isOk_iff _).mpr fun l hl => ?_
    obtain rfl := List.mem_singleton.mp hl
    rw [RuleList.compile, hresolve]
    exact ⟨_, rfl⟩
  have hfiles : List.Forall₂ SameLetters [("x", sigmaLines), ("y", hexLines)]
      [("x", sigmaLines'), ("y", hexLines')] :=
    .cons (sameLetters_of_eq hsigma) (.cons (sameLetters_of_eq hhex) .nil)
  refine ⟨hsigma, hload, ?_, hhex, ?_, ?_⟩
  · rcases load_letterCase.1 "x" _ _ hsigma with ⟨l, hl, hl'⟩ | ⟨e, e', n, he, -⟩
    · rw [hl', ← hl, hload]
    · cases hload.symm.trans he
  · rcases load_letterCase.1 "y" _ _ hhex with ⟨l, hl, -⟩ | ⟨e, e', n, he, he', hn, hn', hsmall⟩
    · cases hfail.symm.trans hl
    · obtain rfl := Except.error.inj (hfail.symm.trans he)
      obtain rfl : n = 1 := Nat.le_antisymm (hn.le hfirst) (hfirst.le hn)
      exact ⟨e', he', hn', hsmall.symm.trans (by decide +kernel)⟩
  · obtain ⟨hequal, horders⟩ := load_letterCase.2 _ _ hfiles
    have hlists :
        [sigmaList].Perm (Registry.ofFiles [("x", sigmaLines), ("y", hexLines)]).lists := by
      rw [hregistry]
      exact .refl _
    rcases horders _ _ hlists (hequal ▸ hlists) with hok | ⟨e, e', he, -⟩
    · exact hok
    · obtain ⟨c, hc⟩ := hcompile
      rw [hregistry] at he
      cases hc.symm.trans he

end RuleList

end GeoRules
