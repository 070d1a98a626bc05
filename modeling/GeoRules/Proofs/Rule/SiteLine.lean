import GeoRules.Proofs.Rule.Token
import GeoRules.Proofs.RuleList.Loaded
import Mathlib.Data.List.Forall2

/-! # The language of site lines

A line of a site list is cut at every space. Its first word is a value, or a label and a value with
a colon between them (`Rule.Headed`); each word behind it spells an attribute. A word with two
colons or more is no first word, which decides before anything else; then the first of the other
words that spells none does.

Main statement: `Rule.ofSiteLine_language`. -/

namespace GeoRules

open Text

/-! ### One element after the other -/

theorem mapM_eq_ok_iff {ε α β : Type} {f : α → Except ε β} {as : List α} {bs : List β} :
    as.mapM f = .ok bs ↔ List.Forall₂ (fun a b => f a = .ok b) as bs := by
  induction as generalizing bs with
  | nil => cases bs <;> simp [pure, Except.pure]
  | cons a as ih =>
    rw [List.mapM_cons, List.forall₂_cons_left_iff]
    simp only [← ih]
    rcases f a with e | b
    · simp [bind, Except.bind]
    · rcases as.mapM f with e | bs'
      · simp [bind, Except.bind]
      · simp [bind, Except.bind, pure, Except.pure, eq_comm]

/-- The first element that fails decides. -/
theorem mapM_eq_error_iff {ε α β : Type} {f : α → Except ε β} {as : List α} {e : ε} :
    as.mapM f = .error e ↔ ∃ before a after, as = before ++ a :: after ∧ f a = .error e ∧
      ∀ b ∈ before, ∃ y, f b = .ok y := by
  induction as with
  | nil => simp [pure, Except.pure]
  | cons a as ih =>
    rw [List.mapM_cons]
    rcases ha : f a with e' | y
    · change Except.error e' = Except.error e ↔ _
      constructor
      · intro h
        obtain rfl := Except.error.inj h
        exact ⟨[], a, as, rfl, ha, fun _ hb => absurd hb List.not_mem_nil⟩
      · rintro ⟨before, b, after, has, hb, hbefore⟩
        rcases before with _ | ⟨c, before⟩
        · obtain ⟨rfl, rfl⟩ := List.cons.inj has
          exact congrArg _ (Except.error.inj (ha.symm.trans hb))
        · obtain ⟨rfl, -⟩ := List.cons.inj has
          obtain ⟨z, hz⟩ := hbefore _ List.mem_cons_self
          cases ha.symm.trans hz
    · have hbind : ((Except.ok y >>= fun y => as.mapM f >>= fun ys => pure (y :: ys)) :
          Except ε (List β)) = .error e ↔ as.mapM f = .error e := by
        rcases as.mapM f with e' | ys
        · exact Iff.rfl
        · exact iff_of_false (fun h => by cases h) (fun h => by cases h)
      rw [hbind, ih]
      constructor
      · rintro ⟨before, b, after, rfl, hb, hbefore⟩
        exact ⟨a :: before, b, after, rfl, hb, List.forall_mem_cons.mpr ⟨⟨y, ha⟩, hbefore⟩⟩
      · rintro ⟨before, b, after, has, hb, hbefore⟩
        rcases before with _ | ⟨c, before⟩
        · obtain ⟨rfl, rfl⟩ := List.cons.inj has
          cases ha.symm.trans hb
        · obtain ⟨rfl, rfl⟩ := List.cons.inj has
          exact ⟨before, b, after, rfl, hb, (List.forall_mem_cons.mp hbefore).2⟩

/-! ### Labels -/

/-- The kind that a label in lower case names. -/
inductive RuleKind.Named : String → RuleKind → Prop
  | domain : Named "domain" .domain
  | regex : Named "regex" .regex
  | keyword : Named "keyword" .keyword
  | full : Named "full" .full
  | inclusion : Named "include" .inclusion
  | unknown {label : String} (h : label ∉ ["domain", "regex", "keyword", "full", "include"]) :
      Named label .unknown

theorem RuleKind.lookup_labels {name : String}
    (h : name ∉ ["domain", "regex", "keyword", "full", "include"]) : labels.lookup name = none := by
  have hkeys : labels.map Prod.fst = ["domain", "regex", "keyword", "full", "include"] := rfl
  rw [List.lookup_eq_none_iff]
  intro entry hentry
  have hne : name ≠ entry.1 := by
    rintro rfl
    rw [← hkeys] at h
    exact h (List.mem_map_of_mem hentry)
  simpa using hne

theorem RuleKind.named_iff {label : String} {kind : RuleKind} :
    Named (lowercase label) kind ↔ ofLabel label = kind := by
  unfold ofLabel
  generalize lowercase label = name
  constructor
  · intro h
    cases h with
    | domain | regex | keyword | full | inclusion => rfl
    | unknown hname => rw [lookup_labels hname, Option.getD_none]
  · rintro rfl
    by_cases hname : name ∈ ["domain", "regex", "keyword", "full", "include"]
    · simp only [List.mem_cons, List.not_mem_nil, or_false] at hname
      rcases hname with rfl | rfl | rfl | rfl | rfl
      · exact .domain
      · exact .regex
      · exact .keyword
      · exact .full
      · exact .inclusion
    · rw [lookup_labels hname, Option.getD_none]
      exact .unknown hname

/-! ### First words -/

namespace Rule

/-- The word is the value, which is a domain, or a label and the value, and the label names the
kind. -/
inductive Headed : List Char → RuleKind → List Char → Prop
  | bare {value : List Char} (hvalue : ':' ∉ value) : Headed value .domain value
  | labelled {label value : List Char} {kind : RuleKind} (hlabel : ':' ∉ label)
      (hvalue : ':' ∉ value) (hkind : RuleKind.Named (lowercase (String.ofList label)) kind) :
      Headed (label ++ ':' :: value) kind value

section
variable {pattern : List Char} {r : Rule} {e : LineError}

/-- A word has no colon, or one, or it has two and what stands behind them. -/
theorem colon_cases (pattern : List Char) : ':' ∉ pattern ∨
    (∃ label value, pattern = label ++ ':' :: value ∧ ':' ∉ label ∧ ':' ∉ value) ∨
    ∃ label value rest, pattern = label ++ ':' :: (value ++ ':' :: rest) ∧ ':' ∉ label ∧
      ':' ∉ value := by
  by_cases hfirst : ':' ∈ pattern
  · obtain ⟨label, behind, rfl, hlabel⟩ := List.eq_append_cons_of_mem hfirst
    by_cases hsecond : ':' ∈ behind
    · obtain ⟨value, rest, rfl, hvalue⟩ := List.eq_append_cons_of_mem hsecond
      exact Or.inr (Or.inr ⟨label, value, rest, rfl, hlabel, hvalue⟩)
    · exact Or.inr (Or.inl ⟨label, behind, rfl, hlabel, hsecond⟩)
  · exact Or.inl hfirst

theorem ofPattern_bare (hvalue : ':' ∉ pattern) :
    ofPattern pattern = .ok ⟨.domain, String.ofList (lower pattern), []⟩ := by
  unfold ofPattern
  rw [List.splitOn_eq_singleton hvalue]

theorem ofPattern_labelled {label value : List Char} (hlabel : ':' ∉ label) (hvalue : ':' ∉ value) :
    ofPattern (label ++ ':' :: value) =
      .ok ⟨.ofLabel (String.ofList label), String.ofList (lower value), []⟩ := by
  unfold ofPattern
  rw [List.splitOn_append_cons_self_of_not_mem hlabel, List.splitOn_eq_singleton hvalue]

theorem ofPattern_colons {label value rest : List Char} (hlabel : ':' ∉ label)
    (hvalue : ':' ∉ value) : ofPattern (label ++ ':' :: (value ++ ':' :: rest)) =
      .error (.badFormat (String.ofList (label ++ ':' :: (value ++ ':' :: rest)))) := by
  obtain ⟨third, more, hrest⟩ := List.exists_cons_of_ne_nil (List.splitOn_ne_nil ':' rest)
  unfold ofPattern
  rw [List.splitOn_append_cons_self_of_not_mem hlabel,
    List.splitOn_append_cons_self_of_not_mem hvalue, hrest]

/-- **The rule that a first word makes** has the kind and the value that the word is made of. -/
theorem ofPattern_eq_ok_iff : ofPattern pattern = .ok r ↔
    ∃ kind value, Headed pattern kind value ∧ r = ⟨kind, String.ofList (lower value), []⟩ := by
  constructor
  · intro h
    rcases colon_cases pattern with hvalue | ⟨label, value, rfl, hlabel, hvalue⟩ |
      ⟨label, value, rest, rfl, hlabel, hvalue⟩
    · rw [ofPattern_bare hvalue] at h
      exact ⟨.domain, pattern, .bare hvalue, (Except.ok.inj h).symm⟩
    · rw [ofPattern_labelled hlabel hvalue] at h
      exact ⟨_, value, .labelled hlabel hvalue (RuleKind.named_iff.mpr rfl),
        (Except.ok.inj h).symm⟩
    · rw [ofPattern_colons hlabel hvalue] at h
      cases h
  · rintro ⟨kind, value, hheaded, rfl⟩
    cases hheaded with
    | bare hvalue => exact ofPattern_bare hvalue
    | labelled hlabel hvalue hkind =>
      rw [ofPattern_labelled hlabel hvalue, RuleKind.named_iff.mp hkind]

/-- **A word with two colons or more** is no first word. -/
theorem ofPattern_eq_error_iff : ofPattern pattern = .error e ↔
    2 ≤ pattern.count ':' ∧ e = .badFormat (String.ofList pattern) := by
  rcases colon_cases pattern with hvalue | ⟨label, value, rfl, hlabel, hvalue⟩ |
    ⟨label, value, rest, rfl, hlabel, hvalue⟩
  · have hcount : pattern.count ':' = 0 := List.count_eq_zero.mpr hvalue
    rw [ofPattern_bare hvalue, hcount]
    simp
  · have hcount : (label ++ ':' :: value).count ':' = 1 := by
      simp [List.count_append, List.count_eq_zero.mpr hlabel, List.count_eq_zero.mpr hvalue]
    rw [ofPattern_labelled hlabel hvalue, hcount]
    simp
  · have hcount : 2 ≤ (label ++ ':' :: (value ++ ':' :: rest)).count ':' := by
      simp only [List.count_append, List.count_cons_self]
      omega
    rw [ofPattern_colons hlabel hvalue, Except.error.injEq]
    exact ⟨fun h => ⟨hcount, h.symm⟩, fun h => h.2.symm⟩

theorem exists_ofPattern_iff : (∃ r, ofPattern pattern = .ok r) ↔ pattern.count ':' ≤ 1 := by
  rcases h : ofPattern pattern with e | r
  · obtain ⟨hcount, -⟩ := ofPattern_eq_error_iff.mp h
    exact iff_of_false (fun ⟨r, hr⟩ => by cases hr) (by omega)
  · refine iff_of_true ⟨r, rfl⟩ (Nat.le_of_lt_succ (Nat.lt_of_not_le fun hcount => ?_))
    cases h.symm.trans (ofPattern_eq_error_iff.mpr ⟨hcount, rfl⟩)

end

/-! ### Lines -/

section
variable {line first : List Char} {later : List (List Char)} {r : Rule} {e : LineError}

theorem ofSiteLine_eq_error : ofSiteLine line = .error e ↔ ofPattern (firstWord line) = .error e ∨
    (∃ rule, ofPattern (firstWord line) = .ok rule) ∧
      (words line).tail.mapM Attribute.ofToken = .error e := by
  unfold ofSiteLine
  rcases ofPattern (firstWord line) with e' | rule
  · simp [bind, Except.bind]
  · rcases (words line).tail.mapM Attribute.ofToken with e' | attributes
    · simp [bind, Except.bind]
    · simp [bind, Except.bind, pure, Except.pure]

theorem exists_ofToken_iff {token : List Char} :
    (∃ a, Attribute.ofToken token = .ok a) ↔ Attribute.WellFormed token := by
  simp only [Attribute.ofToken_eq_ok_iff]
  exact Attribute.exists_spelled_iff

/-- Words that spell attributes are well-formed, and the keys keep their signs. -/
theorem wellFormed_of_spelled {attributes : List Attribute}
    (h : List.Forall₂ Attribute.Spelled later attributes) :
    (∀ token ∈ later, Attribute.WellFormed token) ∧
      ∀ a ∈ attributes, a.key.toList.head? = some '@' := by
  induction h with
  | nil => simp
  | cons hspelled _ ih =>
    exact ⟨List.forall_mem_cons.mpr ⟨Attribute.exists_spelled_iff.mp ⟨_, hspelled⟩, ih.1⟩,
      List.forall_mem_cons.mpr ⟨hspelled.head?_key, ih.2⟩⟩

/-- The word that is refused first, if one is. -/
theorem mapM_ofToken_eq_error_iff {tokens : List (List Char)} :
    tokens.mapM Attribute.ofToken = .error e ↔ ∃ before token after,
      tokens = before ++ token :: after ∧ (∀ t ∈ before, Attribute.WellFormed t) ∧
        ¬ Attribute.WellFormed token ∧ Attribute.Refused token e := by
  rw [mapM_eq_error_iff]
  constructor
  · rintro ⟨before, token, after, rfl, hfail, hbefore⟩
    refine ⟨before, token, after, rfl, fun t ht => exists_ofToken_iff.mp (hbefore t ht), ?_,
      Attribute.ofToken_eq_error_iff.mp hfail⟩
    intro hwell
    obtain ⟨a, ha⟩ := exists_ofToken_iff.mpr hwell
    cases hfail.symm.trans ha
  · rintro ⟨before, token, after, rfl, hbefore, -, hrefused⟩
    exact ⟨before, token, after, rfl, Attribute.ofToken_eq_error_iff.mpr hrefused,
      fun t ht => exists_ofToken_iff.mpr (hbefore t ht)⟩

/-- **The language of site lines.** A line makes a rule if its first word has no more than one colon
and every word behind it is well-formed. The rule has the kind and the value of the first word and
an attribute for each of the other words, in their order. Otherwise the first word is reported if it
has two colons or more, and else the first one of the others that is not well-formed. -/
theorem ofSiteLine_language (h : (trim line).splitOn ' ' = first :: later) :
    ((∃ r, ofSiteLine line = .ok r) ↔
      first.count ':' ≤ 1 ∧ ∀ token ∈ later, Attribute.WellFormed token) ∧
    (∀ r, ofSiteLine line = .ok r ↔
      (∃ value, Headed first r.kind value ∧ r.value = String.ofList (lower value)) ∧
        List.Forall₂ Attribute.Spelled later r.attributes) ∧
    (∀ r, ofSiteLine line = .ok r →
      r.kind.isIp = false ∧ ∀ a ∈ r.attributes, a.key.toList.head? = some '@') ∧
    ∀ e, ofSiteLine line = .error e ↔
      (2 ≤ first.count ':' ∧ e = .badFormat (String.ofList first)) ∨
      (first.count ':' ≤ 1 ∧ ∃ before token after, later = before ++ token :: after ∧
        (∀ t ∈ before, Attribute.WellFormed t) ∧ ¬ Attribute.WellFormed token ∧
        Attribute.Refused token e) := by
  have hwords : words line = first :: later := h
  have hfirst : firstWord line = first := by
    unfold firstWord
    simp only [hwords, List.head_cons]
  have hlater : (words line).tail = later := by rw [hwords, List.tail_cons]
  have hok : ∀ r, ofSiteLine line = .ok r ↔
      (∃ value, Headed first r.kind value ∧ r.value = String.ofList (lower value)) ∧
        List.Forall₂ Attribute.Spelled later r.attributes := by
    intro r
    rw [ofSiteLine_eq_ok, hfirst, hlater]
    simp only [ofPattern_eq_ok_iff, mapM_eq_ok_iff, Attribute.ofToken_eq_ok_iff]
    constructor
    · rintro ⟨_, attributes, ⟨kind, value, hheaded, rfl⟩, hspelled, rfl⟩
      exact ⟨⟨value, hheaded, rfl⟩, hspelled⟩
    · rintro ⟨⟨value, hheaded, hvalue⟩, hspelled⟩
      exact ⟨_, r.attributes, ⟨r.kind, value, hheaded, rfl⟩, hspelled, by rw [← hvalue]⟩
  have herror : ∀ e, ofSiteLine line = .error e ↔
      (2 ≤ first.count ':' ∧ e = .badFormat (String.ofList first)) ∨
      (first.count ':' ≤ 1 ∧ ∃ before token after, later = before ++ token :: after ∧
        (∀ t ∈ before, Attribute.WellFormed t) ∧ ¬ Attribute.WellFormed token ∧
        Attribute.Refused token e) := by
    intro e
    rw [ofSiteLine_eq_error, hfirst, hlater, ofPattern_eq_error_iff, exists_ofPattern_iff,
      mapM_ofToken_eq_error_iff]
  refine ⟨?_, hok, fun r hr => ⟨isIp_of_ofSiteLine hr, ?_⟩, herror⟩
  · rcases hline : ofSiteLine line with e | r
    · refine iff_of_false (fun ⟨r, hr⟩ => by cases hr) ?_
      rintro ⟨hcount, hwell⟩
      rcases (herror e).mp hline with ⟨htwo, -⟩ | ⟨-, before, token, after, rfl, -, hbad, -⟩
      · omega
      · exact hbad (hwell token List.mem_append_cons_self)
    · obtain ⟨⟨value, hheaded, -⟩, hspelled⟩ := (hok r).mp hline
      exact iff_of_true ⟨r, rfl⟩ ⟨exists_ofPattern_iff.mp
        ⟨_, ofPattern_eq_ok_iff.mpr ⟨_, value, hheaded, rfl⟩⟩, (wellFormed_of_spelled hspelled).1⟩
  · exact (wellFormed_of_spelled ((hok r).mp hr).2).2

/-- A label in capitals, a tab in the value, a key with two signs and a number with a zero before
it; and a line in which two spaces make an empty word, which is reported before the letter that
stands for a number. -/
theorem ofSiteLine_language_mixed :
    (trim " fULL:\tA.b @Cn @@x=-07\r".toList).splitOn ' ' =
      ["fULL:\tA.b".toList, "@Cn".toList, "@@x=-07".toList] ∧
    ofSiteLine " fULL:\tA.b @Cn @@x=-07\r".toList =
      .ok ⟨.full, "\ta.b", [⟨"@cn", .flag true⟩, ⟨"@@x", .number (-7)⟩]⟩ ∧
    (trim "a:b  @x=y".toList).splitOn ' ' = ["a:b".toList, [], "@x=y".toList] ∧
    ofSiteLine "a:b  @x=y".toList = .error (.badAttribute "") := by
  have hgood : (trim " fULL:\tA.b @Cn @@x=-07\r".toList).splitOn ' ' =
      ["fULL:\tA.b".toList, "@Cn".toList, "@@x=-07".toList] := by decide +kernel
  have hbad : (trim "a:b  @x=y".toList).splitOn ' ' = ["a:b".toList, [], "@x=y".toList] := by
    decide +kernel
  have hheaded : Headed "fULL:\tA.b".toList .full "\tA.b".toList :=
    @Headed.labelled "fULL".toList "\tA.b".toList .full (by decide) (by decide)
      (RuleKind.named_iff.mpr (by decide +kernel))
  have hflag : Attribute.Spelled "@Cn".toList ⟨"@cn", .flag true⟩ :=
    Attribute.ofToken_eq_ok_iff.mp (by decide +kernel)
  have hnumber : Attribute.Spelled "@@x=-07".toList ⟨"@@x", .number (-7)⟩ :=
    Attribute.ofToken_eq_ok_iff.mp (by decide +kernel)
  have hempty : ¬ Attribute.WellFormed [] := fun h => by cases h.1
  refine ⟨hgood, ?_, hbad, ?_⟩
  · exact ((ofSiteLine_language hgood).2.1 _).mpr
      ⟨⟨_, hheaded, by decide +kernel⟩, .cons hflag (.cons hnumber .nil)⟩
  · exact ((ofSiteLine_language hbad).2.2.2 _).mpr (Or.inr ⟨by decide, [], [], _, rfl,
      fun t ht => absurd ht List.not_mem_nil, hempty, .noSign (by decide)⟩)

end

end Rule

end GeoRules
