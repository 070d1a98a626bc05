import GeoRules.Proofs.RuleList.Loaded

/-! # Files put together

The rules of a file are those of the texts between its line feeds, one after the other: neither a
carriage return at the end of a line nor an empty text behind the last line feed makes a difference
(`RuleList.readLines_fileLines`). So a file that consists of two with a line feed between them holds
the rules of both, and the first line that cannot be read decides, whichever of the two it is in
(`RuleList.load_append`). -/

namespace GeoRules

open Text

namespace RuleList

variable {family : Family} {line : List UInt8} {lines : List (List UInt8)} {e : ListError}

/-! ### Ends of lines -/

theorem readLine_concat_return (family : Family) (line : List UInt8) :
    readLine family (line ++ [13]) = readLine family line := by
  have htext : ofUtf8? (line ++ [13]) = (ofUtf8? line).map (·.push '\r') :=
    ofUtf8?_concat (d := '\r') (by decide) line
  unfold readLine
  rw [htext]
  rcases ofUtf8? line with _ | s
  · rfl
  · have hclean : cleanLine (s.push '\r').toList = cleanLine s.toList := by
      rw [String.toList_push]
      exact cleanLine_margins (u := []) rfl (v := ['\r']) (by decide)
    simp only [Option.map_some, hclean]

theorem readLine_dropReturn (family : Family) (line : List UInt8) :
    readLine family (dropReturn line) = readLine family line := by
  unfold dropReturn
  split
  · next hlast =>
    obtain ⟨start, rfl⟩ := List.getLast?_eq_some_iff.mp hlast
    rw [List.dropLast_concat, readLine_concat_return]
  · rfl

theorem readLine_nil (family : Family) : readLine family [] = .ok none := by
  have htext : ofUtf8? [] = some "" := ofUtf8?_eq_some_iff.mpr (by decide)
  unfold readLine
  rw [htext]
  rfl

/-! ### Lines one after the other -/

theorem readLines_append (family : Family) (lines lines' : List (List UInt8)) :
    readLines family (lines ++ lines') = (readLines family lines).bind fun rules =>
      (readLines family lines').map (rules ++ ·) := by
  induction lines with
  | nil =>
    rw [List.nil_append, readLines]
    rcases readLines family lines' with e | rules
    · rfl
    · rfl
  | cons line lines ih =>
    rw [List.cons_append, readLines, readLines, ih]
    rcases readLine family line with e | rule?
    · rfl
    · rcases readLines family lines with e | rules
      · rfl
      · rcases readLines family lines' with e | rules'
        · rfl
        · simp [Except.bind, Except.map]

theorem readLines_closeLines (family : Family) (lines : List (List UInt8)) :
    readLines family (closeLines lines) = readLines family lines := by
  fun_induction closeLines lines with
  | case1 => rfl
  | case2 => simp [readLines, readLine_nil]
  | case3 => rfl
  | case4 line next lines ih => rw [readLines, readLines, readLine_dropReturn, ih]

/-- **The rules of a file are those between its line feeds.** -/
theorem readLines_fileLines (family : Family) (bytes : List UInt8) :
    readLines family (fileLines bytes) = readLines family (bytes.splitOn 10) :=
  readLines_closeLines family _

theorem readLines_cons_eq_error : readLines family (line :: lines) = .error e ↔
    readLine family line = .error e ∨
      (∃ rule?, readLine family line = .ok rule?) ∧ readLines family lines = .error e := by
  rw [readLines]
  rcases readLine family line with e' | rule?
  · simp
  · rcases readLines family lines with e' | rules
    · simp
    · simp

/-- **The first line that cannot be read decides.** -/
theorem readLines_eq_error_iff : readLines family lines = .error e ↔
    ∃ before line after, lines = before ++ line :: after ∧ readLine family line = .error e ∧
      ∀ earlier ∈ before, ∃ rule?, readLine family earlier = .ok rule? := by
  induction lines with
  | nil => simp [readLines]
  | cons line lines ih =>
    rw [readLines_cons_eq_error, ih]
    constructor
    · rintro (hbad | ⟨hok, before, bad, after, rfl, hbad, hbefore⟩)
      · exact ⟨[], line, lines, rfl, hbad, fun _ h => absurd h List.not_mem_nil⟩
      · exact ⟨line :: before, bad, after, rfl, hbad, List.forall_mem_cons.mpr ⟨hok, hbefore⟩⟩
    · rintro ⟨before, bad, after, hlines, hbad, hbefore⟩
      rcases before with _ | ⟨first, before⟩
      · obtain ⟨rfl, rfl⟩ := List.cons.inj hlines
        exact Or.inl hbad
      · obtain ⟨rfl, rfl⟩ := List.cons.inj hlines
        obtain ⟨hok, hbefore⟩ := List.forall_mem_cons.mp hbefore
        exact Or.inr ⟨hok, before, bad, after, rfl, hbad, hbefore⟩

/-! ### Files -/

theorem load_eq_map (base : String) (bytes : List UInt8) : load base bytes =
    (readLines (.ofFileName base) (bytes.splitOn 10)).map fun rules =>
      ⟨uppercase base, .ofFileName base, rules⟩ := by
  unfold load
  rw [readLines_fileLines]
  rcases readLines (.ofFileName base) (bytes.splitOn 10) with e | rules
  · rfl
  · rfl

theorem load_eq_error_iff {base : String} {bytes : List UInt8} : load base bytes = .error e ↔
    readLines (.ofFileName base) (bytes.splitOn 10) = .error e := by
  rw [load_eq_map]
  rcases readLines (.ofFileName base) (bytes.splitOn 10) with e | rules
  · simp [Except.map]
  · simp [Except.map]

theorem splitOn_append_feed (t₁ t₂ : List UInt8) :
    (t₁ ++ 10 :: t₂).splitOn 10 = t₁.splitOn 10 ++ t₂.splitOn 10 :=
  List.splitOnP_append_cons t₁ t₂ (beq_self_eq_true 10)

/-- **A file that consists of two** with a line feed between them holds the rules of the first one
and then those of the second, or else fails as the first one of them does that cannot be loaded. In
each file the first line that cannot be read decides. -/
theorem load_append (base : String) (t₁ t₂ : List UInt8) :
    (load base (t₁ ++ 10 :: t₂) = match load base t₁ with
      | .error e => .error e
      | .ok l => match load base t₂ with
        | .error e => .error e
        | .ok m => .ok { l with rules := l.rules ++ m.rules }) ∧
    ∀ bytes e, load base bytes = .error e ↔ ∃ before line after,
      bytes.splitOn 10 = before ++ line :: after ∧ readLine (.ofFileName base) line = .error e ∧
      ∀ earlier ∈ before, ∃ rule?, readLine (.ofFileName base) earlier = .ok rule? := by
  refine ⟨?_, fun bytes e => load_eq_error_iff.trans readLines_eq_error_iff⟩
  rw [load_eq_map, load_eq_map, load_eq_map, splitOn_append_feed, readLines_append]
  rcases readLines (.ofFileName base) (t₁.splitOn 10) with e | rules
  · rfl
  · rcases readLines (.ofFileName base) (t₂.splitOn 10) with e | rules'
    · rfl
    · rfl

/-- Carriage returns on both sides of the line feed, and then the two bytes of one letter. -/
theorem load_append_seam :
    load "x-ip" (utf8 "10.0.0.1\r" ++ 10 :: utf8 "\r\na:B-ip") =
      .ok ⟨"X-IP", .ip, [⟨.ip, "10.0.0.1", []⟩, ⟨.inclusion, "b-ip", []⟩]⟩ ∧
    load "x" ([0xC3] ++ 10 :: 0xA9 :: utf8 "\na:b:c") = .error .notUtf8 := by
  have hfirst : load "x-ip" (utf8 "10.0.0.1\r") =
      .ok ⟨"X-IP", .ip, [⟨.ip, "10.0.0.1", []⟩]⟩ := by decide +kernel
  have hsecond : load "x-ip" (utf8 "\r\na:B-ip") =
      .ok ⟨"X-IP", .ip, [⟨.inclusion, "b-ip", []⟩]⟩ := by decide +kernel
  have hhalf : load "x" [0xC3] = .error .notUtf8 := by decide +kernel
  constructor
  · rw [(load_append _ _ _).1, hfirst, hsecond]
    rfl
  · rw [(load_append _ _ _).1, hhalf]

end RuleList

end GeoRules
