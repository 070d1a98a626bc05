import GeoRules.Proofs.Rule.SiteLine
import GeoRules.Proofs.Text.LowerCase

/-! # Rules as lines

A rule is rendered as a line: its kind and its value with a colon between them, then its attributes.
What a line of a site list loads to is settled (`Rule.Settled`): the value and the keys are in lower
case and hold none of the marks at which a line is cut, and the rendered line ends with no white
space. This is so for every line without a comment that has been trimmed
(`Rule.settled_of_ofSiteLine`), and a settled rule is what its line loads to
(`Rule.Settled.ofSiteLine_line`). -/

namespace GeoRules

open Text

/-! ### Rendering -/

/-- The word of an attribute: the key, and a number behind an equals sign. -/
def Attribute.token (a : Attribute) : List Char :=
  match a.value with
  | .flag _ => a.key.toList
  | .number n => a.key.toList ++ '=' :: decimalInt n.toInt

/-- The first word of a rule: the kind and the value. -/
def Rule.pattern (r : Rule) : List Char := r.kind.word.toList ++ ':' :: r.value.toList

/-- The line of a rule: the words of its attributes behind the first one, each after a space. -/
def Rule.line (r : Rule) : List Char :=
  List.intercalate [' '] (r.pattern :: r.attributes.map Attribute.token)

/-! ### Words in a line -/

/-- The text holds none of the characters at which a file is cut into lines, comments and words. -/
def Unmarked (s : List Char) : Prop := ' ' ∉ s ∧ '#' ∉ s ∧ '\n' ∉ s

instance (s : List Char) : Decidable (Unmarked s) := inferInstanceAs (Decidable (_ ∧ _ ∧ _))

section
variable {s t : List Char} {c : Char}

/-- If each word ends as plain as its partner does, so do the lines. -/
theorem endsPlain_intercalate {us vs : List (List Char)}
    (h : List.Forall₂ (fun u v => EndsPlain u → EndsPlain v) us vs)
    (hus : EndsPlain (List.intercalate [' '] us)) : EndsPlain (List.intercalate [' '] vs) := by
  induction h with
  | nil => exact hus
  | @cons u v us vs huv hmore ih =>
    rcases hmore with _ | ⟨huv', hmore⟩
    · rw [List.intercalate_singleton] at hus ⊢
      exact huv hus
    · rw [List.intercalate_cons_cons, List.append_assoc] at hus
      rw [List.intercalate_cons_cons]
      exact (ih (hus.behind (by decide))).append _

theorem Unmarked.append (hs : Unmarked s) (ht : Unmarked t) : Unmarked (s ++ t) := by
  simp only [Unmarked, List.mem_append, not_or] at hs ht ⊢
  exact ⟨⟨hs.1, ht.1⟩, ⟨hs.2.1, ht.2.1⟩, hs.2.2, ht.2.2⟩

theorem Unmarked.cons (hc : Unmarked [c]) (ht : Unmarked t) : Unmarked (c :: t) := hc.append ht

theorem Unmarked.of_subset (ht : Unmarked t) (h : s ⊆ t) : Unmarked s :=
  ⟨fun hmem => ht.1 (h hmem), fun hmem => ht.2.1 (h hmem), fun hmem => ht.2.2 (h hmem)⟩

theorem Unmarked.lower (hs : Unmarked s) : Unmarked (lower s) :=
  ⟨fun h => hs.1 (mem_of_mem_lower (by decide) (by decide) h),
    fun h => hs.2.1 (mem_of_mem_lower (by decide) (by decide) h),
    fun h => hs.2.2 (mem_of_mem_lower (by decide) (by decide) h)⟩

end

theorem unmarked_decimal (n : ℕ) : Unmarked (decimal n) := by
  refine ⟨fun h => ?_, fun h => ?_, fun h => ?_⟩
  all_goals cases isDigit_of_mem_decimal h

theorem unmarked_decimalInt (x : ℤ) : Unmarked (decimalInt x) := by
  cases x with
  | ofNat n => exact unmarked_decimal n
  | negSucc n => exact .cons (by decide) (unmarked_decimal _)

theorem endsPlain_decimal (n : ℕ) : EndsPlain (decimal n) := by
  rcases hlast : (decimal n).getLast? with _ | c
  · exact absurd (List.getLast?_eq_none_iff.mp hlast) (decimal_ne_nil n)
  · have hdigit : c.isDigit = true := isDigit_of_mem_decimal (List.mem_of_getLast? hlast)
    simp only [Char.isDigit, Bool.and_eq_true, decide_eq_true_eq, ge_iff_le,
      UInt32.le_iff_toNat_le] at hdigit
    exact ⟨c, hlast, isBlank_of_lt (hdigit.1.trans_lt' (by decide)) (hdigit.2.trans_lt (by decide))⟩

theorem endsPlain_decimalInt (x : ℤ) : EndsPlain (decimalInt x) := by
  cases x with
  | ofNat n => exact endsPlain_decimal n
  | negSucc n => exact (endsPlain_decimal (n + 1)).append ['-']

/-! ### Attributes -/

namespace Attribute

variable {a : Attribute} {token : List Char}

/-- What a token of a line can load to. -/
structure Settled (a : Attribute) : Prop where
  sign : a.key.toList.head? = some '@'
  lowered : lower a.key.toList = a.key.toList
  unmarked : Unmarked a.key.toList
  equals : '=' ∉ a.key.toList
  flag : a.value ≠ .flag false

/-- A token is a key, or a key and a number behind an equals sign. -/
theorem ofToken_cases (h : ofToken token = .ok a) : ∃ key, key.head? = some '@' ∧ '=' ∉ key ∧
    a.key = String.ofList (lower key) ∧ ((a.value = .flag true ∧ token = key) ∨
      ∃ number n, a.value = .number n ∧ token = key ++ '=' :: number) := by
  cases ofToken_eq_ok_iff.mp h with
  | flag hsign hequals => exact ⟨token, hsign, hequals, rfl, Or.inl ⟨rfl, rfl⟩⟩
  | @number key t n hsign hequals hn =>
    exact ⟨key, hsign, hequals, rfl, Or.inr ⟨t, n, rfl, rfl⟩⟩

theorem settled_of_ofToken (h : ofToken token = .ok a) (ht : Unmarked token) : a.Settled := by
  obtain ⟨key, hsign, hequals, hkey, hvalue⟩ := ofToken_cases h
  have hsubset : key ⊆ token := by
    rcases hvalue with ⟨-, rfl⟩ | ⟨number, n, -, rfl⟩
    · exact List.Subset.refl _
    · exact List.subset_append_left _ _
  have hlist : a.key.toList = lower key := by rw [hkey, String.toList_ofList]
  constructor
  · exact (ofToken_eq_ok_iff.mp h).head?_key
  · rw [hlist, lower_lower]
  · rw [hlist]
    exact (ht.of_subset hsubset).lower
  · rw [hlist]
    exact fun hmem => hequals (mem_of_mem_lower (by decide) (by decide) hmem)
  · rcases hvalue with ⟨hflag, -⟩ | ⟨number, n, hnumber, -⟩
    · simp [hflag]
    · simp [hnumber]

theorem settled_of_mapM {tokens : List (List Char)} {attributes : List Attribute}
    (h : tokens.mapM ofToken = .ok attributes) (ht : ∀ t ∈ tokens, Unmarked t) :
    ∀ a ∈ attributes, a.Settled := by
  rw [mapM_eq_ok_iff] at h
  induction h with
  | nil => exact fun a ha => absurd ha List.not_mem_nil
  | cons htoken _ ih =>
    obtain ⟨hhead, htail⟩ := List.forall_mem_cons.mp ht
    exact List.forall_mem_cons.mpr ⟨settled_of_ofToken htoken hhead, ih htail⟩

/-- **A settled attribute is what its token loads to.** -/
theorem Settled.ofToken_token (h : a.Settled) : ofToken a.token = .ok a := by
  obtain ⟨key, value⟩ := a
  have hequals : '=' ∉ key.toList := h.equals
  have hlower : String.ofList (lower key.toList) = key := by
    rw [h.lowered, String.ofList_toList]
  cases value with
  | flag b =>
    obtain rfl : b = true := by simpa using h.flag
    unfold token
    rw [ofToken_of_key h.sign hequals, hlower]
  | number n =>
    unfold token
    rw [ofToken_of_decimalInt h.sign hequals, hlower]

theorem Settled.unmarked_token (h : a.Settled) : Unmarked a.token := by
  unfold token
  split
  · exact h.unmarked
  · exact h.unmarked.append (.cons (by decide) (unmarked_decimalInt _))

/-- The token that is rendered ends as plain as the one that was read. -/
theorem endsPlain_token (h : ofToken token = .ok a) (ht : EndsPlain token) :
    EndsPlain a.token := by
  obtain ⟨key, -, -, hkey, ⟨hvalue, rfl⟩ | ⟨number, n, hvalue, -⟩⟩ := ofToken_cases h
  · unfold Attribute.token
    rw [hvalue, hkey, String.toList_ofList]
    exact ht.lower
  · unfold Attribute.token
    rw [hvalue]
    exact ((endsPlain_decimalInt n.toInt).append ['=']).append _

end Attribute

/-! ### Rules -/

theorem RuleKind.ofLabel_word {kind : RuleKind} (h : kind.isIp = false) :
    ofLabel kind.word = kind := by
  cases kind with
  | ip | ipRange => cases h
  | unknown | domain | regex | keyword | full | inclusion => decide +kernel

theorem RuleKind.unmarked_word (kind : RuleKind) :
    ':' ∉ kind.word.toList ∧ Unmarked kind.word.toList := by
  cases kind <;> decide

namespace Rule

variable {r : Rule} {line pattern : List Char}

/-- What a line of a site list can load to. -/
structure Settled (r : Rule) : Prop where
  kind : r.kind.isIp = false
  lowered : lower r.value.toList = r.value.toList
  colon : ':' ∉ r.value.toList
  unmarked : Unmarked r.value.toList
  attributes : ∀ a ∈ r.attributes, a.Settled
  ends : EndsPlain r.line

/-- A pattern is a value, perhaps with a label before it. -/
theorem ofPattern_cases (h : ofPattern pattern = .ok r) : ∃ value before, ':' ∉ value ∧
    r.value = String.ofList (lower value) ∧ pattern = before ++ value := by
  obtain ⟨kind, value, hheaded, rfl⟩ := ofPattern_eq_ok_iff.mp h
  cases hheaded with
  | bare hvalue => exact ⟨pattern, [], hvalue, rfl, rfl⟩
  | @labelled label value _ _ hvalue _ =>
    exact ⟨value, label ++ [':'], hvalue, rfl, by simp⟩

/-- The first word that is rendered ends as plain as the one that was read. -/
theorem endsPlain_pattern (h : ofPattern pattern = .ok r) (ht : EndsPlain pattern) :
    EndsPlain r.pattern := by
  obtain ⟨value, before, -, hvalue, rfl⟩ := ofPattern_cases h
  unfold Rule.pattern
  rw [hvalue, String.toList_ofList]
  rcases value with _ | ⟨c, value⟩
  · exact EndsPlain.append ⟨':', rfl, by decide⟩ _
  · rw [endsPlain_append (List.cons_ne_nil _ _)] at ht
    exact (ht.lower.append [':']).append _

theorem firstWord_cons_tail (line : List Char) :
    firstWord line :: (words line).tail = words line := List.cons_head_tail _

/-- A trimmed line is made of its words. -/
theorem intercalate_words (h : trim line = line) : List.intercalate [' '] (words line) = line := by
  rw [words, h]
  exact List.intercalate_splitOn ' '

theorem unmarked_of_mem_words (h : trim line = line) (hnumber : '#' ∉ line) (hfeed : '\n' ∉ line) :
    ∀ w ∈ words line, Unmarked w := by
  intro w hw
  have hsubset : w ⊆ line := by
    rw [words, h] at hw
    exact subset_of_mem_splitOn hw
  exact ⟨not_mem_of_mem_splitOn hw, fun hc => hnumber (hsubset hc),
    fun hc => hfeed (hsubset hc)⟩

/-- **What a trimmed line without a comment loads to is settled.** -/
theorem settled_of_ofSiteLine (h : ofSiteLine line = .ok r) (htrim : trim line = line)
    (hends : EndsPlain line) (hnumber : '#' ∉ line) (hfeed : '\n' ∉ line) : r.Settled := by
  obtain ⟨rule, attributes, hrule, hattributes, rfl⟩ := ofSiteLine_eq_ok.mp h
  have hunmarked := unmarked_of_mem_words htrim hnumber hfeed
  rw [← firstWord_cons_tail] at hunmarked
  obtain ⟨hfirst, hmore⟩ := List.forall_mem_cons.mp hunmarked
  obtain ⟨value, before, hcolon, hvalue, hpattern⟩ := ofPattern_cases hrule
  have hlist : rule.value.toList = lower value := by rw [hvalue, String.toList_ofList]
  have hkind : rule.kind.isIp = false := isIp_of_ofPattern hrule
  refine ⟨hkind, ?_, ?_, ?_, Attribute.settled_of_mapM hattributes hmore, ?_⟩
  · rw [hlist, lower_lower]
  · rw [hlist]
    exact fun hmem => hcolon (mem_of_mem_lower (by decide) (by decide) hmem)
  · rw [hlist]
    exact (hfirst.of_subset (by rw [hpattern]; exact List.subset_append_right _ _)).lower
  · -- word by word the rendered line ends as plain as the line that was read
    have hpair : EndsPlain (firstWord line) → EndsPlain rule.pattern := endsPlain_pattern hrule
    rw [mapM_eq_ok_iff] at hattributes
    rw [← intercalate_words htrim, ← firstWord_cons_tail] at hends
    refine endsPlain_intercalate (.cons hpair ?_) hends
    rw [List.forall₂_map_right_iff]
    exact hattributes.imp fun _ _ => Attribute.endsPlain_token

theorem Settled.unmarked_words (h : r.Settled) :
    ∀ w ∈ r.pattern :: r.attributes.map Attribute.token, Unmarked w := by
  refine List.forall_mem_cons.mpr ⟨?_, fun w hw => ?_⟩
  · exact r.kind.unmarked_word.2.append (.cons (by decide) h.unmarked)
  · obtain ⟨a, ha, rfl⟩ := List.mem_map.mp hw
    exact (h.attributes a ha).unmarked_token

theorem Settled.not_mem_line (h : r.Settled) : '#' ∉ r.line ∧ '\n' ∉ r.line := by
  have hwords := h.unmarked_words
  constructor
  · rw [line, mem_intercalate_iff (by decide)]
    exact fun ⟨w, hw, hc⟩ => (hwords w hw).2.1 hc
  · rw [line, mem_intercalate_iff (by decide)]
    exact fun ⟨w, hw, hc⟩ => (hwords w hw).2.2 hc

theorem exists_line_eq (r : Rule) : ∃ t, r.line = r.kind.word.toList ++ ':' :: t := by
  unfold Rule.line Rule.pattern
  rcases r.attributes with _ | ⟨a, attributes⟩
  · exact ⟨_, List.intercalate_singleton⟩
  · exact ⟨_, by rw [List.map_cons, List.intercalate_cons_cons, List.append_assoc,
      List.append_assoc, List.cons_append]⟩

theorem Settled.trim_line (h : r.Settled) : trim r.line = r.line := by
  refine trim_eq_self ?_ h.ends.isBlank
  obtain ⟨t, ht⟩ := r.exists_line_eq
  rw [ht]
  cases r.kind <;> simp [RuleKind.word] <;> decide

theorem Settled.ofPattern_pattern (h : r.Settled) :
    ofPattern r.pattern = .ok { r with attributes := [] } := by
  have hsplit : r.pattern.splitOn ':' = [r.kind.word.toList, r.value.toList] := by
    unfold Rule.pattern
    rw [List.splitOn_append_cons_self_of_not_mem r.kind.unmarked_word.1,
      List.splitOn_eq_singleton h.colon]
  unfold ofPattern
  simp only [hsplit, String.ofList_toList, RuleKind.ofLabel_word h.kind, h.lowered]

/-- **A settled rule is what its line loads to.** -/
theorem Settled.ofSiteLine_line (h : r.Settled) : ofSiteLine r.line = .ok r := by
  have hwords : words r.line = r.pattern :: r.attributes.map Attribute.token := by
    unfold words
    rw [h.trim_line]
    exact List.splitOn_intercalate ' ' (fun w hw => (h.unmarked_words w hw).1)
      (List.cons_ne_nil _ _)
  refine ofSiteLine_eq_ok.mpr ⟨{ r with attributes := [] }, r.attributes, ?_, ?_, rfl⟩
  · unfold firstWord
    simp only [hwords, List.head_cons]
    exact h.ofPattern_pattern
  · rw [hwords, List.tail_cons, mapM_eq_ok_iff, List.forall₂_map_left_iff, List.forall₂_same]
    exact fun a ha => (h.attributes a ha).ofToken_token

end Rule

end GeoRules
