import GeoRules.Proofs.RuleList.Concatenation
import Mathlib.Logic.Relation

/-! # Layout and comments of a file

A text may be laid out in another way (`LayoutEdit`): with white space around its lines or comments
behind them, with more lines that hold nothing else, with carriage returns before its line feeds,
and with or without a line feed at its end. The file loads to the same list or fails with the same
error, whatever edits are made to it one after the other or undone (`RuleList.load_of_edits`).

A text is cut at its line feeds, so an edit that touches one line is seen in what this line alone
gives (`RuleList.rulesIn_line`). -/

namespace GeoRules

open Text

/-! ### Edits -/

/-- The text is empty or ends with a line feed, so that a line starts behind it. -/
def LineStart (s : List Char) : Prop := s = [] ∨ ∃ front, s = front ++ ['\n']

/-- The text is empty or starts with a line feed, so that a line ends before it. -/
def LineEnd (s : List Char) : Prop := s = [] ∨ ∃ rest, s = '\n' :: rest

/-- White space on one line. -/
def Margin (s : List Char) : Prop := s.all isBlank ∧ '\n' ∉ s

instance (s : List Char) : Decidable (Margin s) := inferInstanceAs (Decidable (_ ∧ _))

/-- A line that holds no more than white space and a comment. -/
def IdleLine (s : List Char) : Prop :=
  ∃ u, Margin u ∧ (s = u ∨ ∃ comment, '\n' ∉ comment ∧ s = u ++ '#' :: comment)

/-- One change to the layout of a text. -/
inductive LayoutEdit : List Char → List Char → Prop
  | margins {before line after u v : List Char} (hbefore : LineStart before) (hline : '\n' ∉ line)
      (hafter : LineEnd after) (hu : Margin u) (hv : Margin v) :
      LayoutEdit (before ++ line ++ after) (before ++ (u ++ line ++ v) ++ after)
  | comment {before line after comment : List Char} (hbefore : LineStart before)
      (hline : '\n' ∉ line) (hafter : LineEnd after) (hcomment : '\n' ∉ comment) :
      LayoutEdit (before ++ line ++ after) (before ++ (line ++ '#' :: comment) ++ after)
  | insert {before after idle : List Char} (hbefore : LineStart before) (hidle : IdleLine idle) :
      LayoutEdit (before ++ after) (before ++ (idle ++ '\n' :: after))
  | carriageReturn (before after : List Char) :
      LayoutEdit (before ++ '\n' :: after) (before ++ '\r' :: '\n' :: after)
  | lastFeed (text : List Char) : LayoutEdit text (text ++ ['\n'])

namespace RuleList

variable {family : Family} {before line line' after s t u v : List Char}

/-! ### Rules of a text -/

/-- The rules of a text. -/
def rulesIn (family : Family) (s : List Char) : Except ListError (List Rule) :=
  readLines family ((utf8 (String.ofList s)).splitOn 10)

theorem utf8_append_feed (s t : List Char) : utf8 (String.ofList (s ++ '\n' :: t)) =
    utf8 (String.ofList s) ++ 10 :: utf8 (String.ofList t) := by
  simp only [utf8_eq_flatMap, String.toList_ofList, List.flatMap_append, List.flatMap_cons,
    utf8EncodeChar_feed, List.singleton_append]

theorem rulesIn_append_feed (family : Family) (s t : List Char) :
    rulesIn family (s ++ '\n' :: t) =
      (rulesIn family s).bind fun rules => (rulesIn family t).map (rules ++ ·) := by
  unfold rulesIn
  rw [utf8_append_feed, splitOn_append_feed, readLines_append]

theorem readLine_congr {s t : String} (h : cleanLine s.toList = cleanLine t.toList) :
    readLine family (utf8 s) = readLine family (utf8 t) := by
  unfold readLine
  simp only [ofUtf8?_utf8, h]

/-- The only line of a text without line feeds. -/
theorem splitOn_of_not_mem (hline : '\n' ∉ line) :
    (utf8 (String.ofList line)).splitOn 10 = [utf8 (String.ofList line)] := by
  refine List.splitOn_eq_singleton fun hmem => hline ?_
  rw [← String.toList_ofList (l := line)]
  exact feed_mem_utf8.mp hmem

/-- Two lines of which the same is left give the same rules. -/
theorem rulesIn_congr (hline : '\n' ∉ line) (hline' : '\n' ∉ line')
    (h : cleanLine line = cleanLine line') : rulesIn family line = rulesIn family line' := by
  have hread : readLine family (utf8 (String.ofList line)) =
      readLine family (utf8 (String.ofList line')) := by
    refine readLine_congr ?_
    rwa [String.toList_ofList, String.toList_ofList]
  unfold rulesIn
  simp only [splitOn_of_not_mem hline, splitOn_of_not_mem hline', readLines, hread]

theorem rulesIn_nil (family : Family) : rulesIn family [] = .ok [] := by
  have hempty : (utf8 (String.ofList [])).splitOn 10 = [[]] := by decide
  unfold rulesIn
  rw [hempty, readLines, readLine_nil]
  rfl

theorem rulesIn_idle {idle : List Char} (h : IdleLine idle) : rulesIn family idle = .ok [] := by
  obtain ⟨u, ⟨hblank, hfeed⟩, rfl | ⟨comment, hcomment, rfl⟩⟩ := h
  · rw [← rulesIn_nil family]
    exact rulesIn_congr hfeed List.not_mem_nil (cleanLine_blank hblank)
  · have hline : '\n' ∉ u ++ '#' :: comment := by simp [hfeed, hcomment]
    rw [← rulesIn_nil family]
    refine rulesIn_congr hline List.not_mem_nil ?_
    rw [cleanLine_comment]
    exact cleanLine_blank hblank

/-! ### One line of a text -/

theorem rulesIn_behind (hbefore : LineStart before) (h : rulesIn family s = rulesIn family t) :
    rulesIn family (before ++ s) = rulesIn family (before ++ t) := by
  rcases hbefore with rfl | ⟨front, rfl⟩
  · exact h
  · rw [List.append_assoc, List.append_assoc, List.singleton_append, List.singleton_append,
      rulesIn_append_feed, rulesIn_append_feed, h]

/-- **A line that gives the same rules** gives them wherever it stands. -/
theorem rulesIn_line (hbefore : LineStart before) (hafter : LineEnd after)
    (h : rulesIn family s = rulesIn family t) :
    rulesIn family (before ++ s ++ after) = rulesIn family (before ++ t ++ after) := by
  rw [List.append_assoc, List.append_assoc]
  refine rulesIn_behind hbefore ?_
  rcases hafter with rfl | ⟨rest, rfl⟩
  · rwa [List.append_nil, List.append_nil]
  · rw [rulesIn_append_feed, rulesIn_append_feed, h]

/-- Every text ends with a line. -/
theorem exists_lastLine (s : List Char) :
    ∃ before line, s = before ++ line ∧ LineStart before ∧ '\n' ∉ line := by
  induction s with
  | nil => exact ⟨[], [], rfl, Or.inl rfl, List.not_mem_nil⟩
  | cons c s ih =>
    obtain ⟨before, line, rfl, rfl | ⟨front, rfl⟩, hline⟩ := ih
    · by_cases hc : c = '\n'
      · exact ⟨[c], line, rfl, Or.inr ⟨[], by rw [hc]; rfl⟩, hline⟩
      · exact ⟨[], c :: line, rfl, Or.inl rfl,
          List.not_mem_cons_of_ne_of_not_mem (Ne.symm hc) hline⟩
    · exact ⟨c :: (front ++ ['\n']), line, rfl, Or.inr ⟨c :: front, rfl⟩, hline⟩

theorem rulesIn_margins (hline : '\n' ∉ line) (hu : Margin u) (hv : Margin v) :
    rulesIn family (u ++ line ++ v) = rulesIn family line := by
  refine rulesIn_congr ?_ hline (cleanLine_margins hu.1 hv.1)
  simp [hline, hu.2, hv.2]

theorem rulesIn_carriageReturn (family : Family) (s : List Char) :
    rulesIn family (s ++ ['\r']) = rulesIn family s := by
  obtain ⟨before, line, rfl, hbefore, hline⟩ := exists_lastLine s
  rw [List.append_assoc]
  exact rulesIn_behind hbefore (rulesIn_margins (u := []) hline (by decide) (by decide))

/-! ### Edited texts -/

/-- One edit leaves the rules of a text as they are. -/
theorem rulesIn_of_edit (family : Family) (h : LayoutEdit s t) :
    rulesIn family s = rulesIn family t := by
  cases h with
  | margins hbefore hline hafter hu hv =>
    exact rulesIn_line hbefore hafter (rulesIn_margins hline hu hv).symm
  | @comment _ line _ comment hbefore hline hafter hcomment =>
    have hlong : '\n' ∉ line ++ '#' :: comment := by simp [hline, hcomment]
    exact rulesIn_line hbefore hafter
      (rulesIn_congr hline hlong (cleanLine_comment line comment).symm)
  | @insert _ after _ hbefore hidle =>
    refine rulesIn_behind hbefore ?_
    rw [rulesIn_append_feed, rulesIn_idle hidle]
    rcases rulesIn family after with e | rules
    · rfl
    · rfl
  | carriageReturn before after =>
    have hsplit : before ++ '\r' :: '\n' :: after = (before ++ ['\r']) ++ '\n' :: after := by simp
    rw [hsplit, rulesIn_append_feed, rulesIn_append_feed, rulesIn_carriageReturn]
  | lastFeed =>
    rw [rulesIn_append_feed, rulesIn_nil]
    rcases rulesIn family s with e | rules
    · rfl
    · simp [Except.bind, Except.map]

theorem rulesIn_of_edits (family : Family) (h : Relation.EqvGen LayoutEdit s t) :
    rulesIn family s = rulesIn family t := by
  induction h with
  | rel s t hedit => exact rulesIn_of_edit family hedit
  | refl s => rfl
  | symm s t _ ih => exact ih.symm
  | trans s t u _ _ hfirst hsecond => exact hfirst.trans hsecond

/-- **Layout and comments make no difference.** Whatever edits are made to a text one after the
other, or undone, its file loads to the same list or fails with the same error. What is left of a
line for its rule has no comment, no white space at its ends and no other form that it could be
cleaned to. -/
theorem load_of_edits :
    (∀ s t : String, Relation.EqvGen LayoutEdit s.toList t.toList →
      ∀ base, load base (utf8 t) = load base (utf8 s)) ∧
    ∀ line text, cleanLine line = some text → text ≠ [] ∧ '#' ∉ text ∧
      (∀ c ∈ text.head?, isBlank c = false) ∧ (∀ c ∈ text.getLast?, isBlank c = false) ∧
      cleanLine text = some text := by
  refine ⟨fun s t h base => ?_, fun line text => cleanLine_cleaned⟩
  have hrules := rulesIn_of_edits (.ofFileName base) h
  unfold rulesIn at hrules
  rw [String.ofList_toList, String.ofList_toList] at hrules
  rw [load_eq_map, load_eq_map, hrules]

/-- A text in five steps: an ideographic space, a tab and a comment in its first line, a carriage
return behind them, a line feed at the end, and a comment before all. Its second line is cleaned to
the first line of the text as it was. -/
theorem load_of_edits_steps :
    Relation.EqvGen LayoutEdit "a @x\nB".toList "#h\r\n\u3000a @x\t #n\r\nB\n".toList ∧
    load "x" (utf8 "#h\r\n\u3000a @x\t #n\r\nB\n") =
      .ok ⟨"X", .site, [⟨.domain, "a", [⟨"@x", .flag true⟩]⟩, ⟨.domain, "b", []⟩]⟩ ∧
    cleanLine "\u3000a @x\t #n\r".toList = some "a @x".toList ∧
    cleanLine "a @x".toList = some "a @x".toList := by
  have hmargins : LayoutEdit "a @x\nB".toList "\u3000a @x\t \nB".toList :=
    @LayoutEdit.margins [] "a @x".toList "\nB".toList "\u3000".toList "\t ".toList
      (Or.inl rfl) (by decide) (Or.inr ⟨"B".toList, by decide⟩) (by decide) (by decide)
  have hcomment : LayoutEdit "\u3000a @x\t \nB".toList "\u3000a @x\t #n\nB".toList :=
    @LayoutEdit.comment [] "\u3000a @x\t ".toList "\nB".toList "n".toList
      (Or.inl rfl) (by decide) (Or.inr ⟨"B".toList, by decide⟩) (by decide)
  have hreturn : LayoutEdit "\u3000a @x\t #n\nB".toList "\u3000a @x\t #n\r\nB".toList :=
    .carriageReturn "\u3000a @x\t #n".toList "B".toList
  have hlast : LayoutEdit "\u3000a @x\t #n\r\nB".toList "\u3000a @x\t #n\r\nB\n".toList :=
    .lastFeed "\u3000a @x\t #n\r\nB".toList
  have hhead : IdleLine "#h\r".toList :=
    ⟨[], by decide, Or.inr ⟨"h\r".toList, by decide, by decide⟩⟩
  have hinsert : LayoutEdit "\u3000a @x\t #n\r\nB\n".toList
      "#h\r\n\u3000a @x\t #n\r\nB\n".toList :=
    @LayoutEdit.insert [] "\u3000a @x\t #n\r\nB\n".toList _ (Or.inl rfl) hhead
  have hedits : Relation.EqvGen LayoutEdit "a @x\nB".toList
      "#h\r\n\u3000a @x\t #n\r\nB\n".toList :=
    ((((Relation.EqvGen.rel _ _ hmargins).trans _ _ _ (.rel _ _ hcomment)).trans _ _ _
      (.rel _ _ hreturn)).trans _ _ _ (.rel _ _ hlast)).trans _ _ _ (.rel _ _ hinsert)
  have hline : cleanLine "\u3000a @x\t #n\r".toList = some "a @x".toList := by decide +kernel
  refine ⟨hedits, ?_, hline, (load_of_edits.2 _ _ hline).2.2.2.2⟩
  rw [load_of_edits.1 _ _ hedits]
  decide +kernel

end RuleList

end GeoRules
