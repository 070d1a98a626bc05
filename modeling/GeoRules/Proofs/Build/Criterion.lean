import GeoRules.Build.Compilation
import GeoRules.Proofs.Inclusion.Conservation

/-! # When a registry compiles

A registry compiles exactly when its own inclusions all stand for lists that it has and no site list
holds or reaches a rule that matches no domain. The order in which the lists are compiled decides
only which of several failures is reported.

Every list is a root, so a missing list that some list reaches is missed by the list that includes
it (`reaches_mem_names`). What a resolved site list holds is what it and the lists it reaches hold
(`mem_rules_iff`), so the second condition can be read off the lists as they stand. -/

namespace GeoRules

open Expansion

/-- A rule that matches no domain and includes no list. -/
def Rule.Foreign (r : Rule) : Prop := r.kind = .unknown ∨ r.kind = .ip ∨ r.kind = .ipRange

instance (r : Rule) : Decidable r.Foreign :=
  inferInstanceAs (Decidable (r.kind = .unknown ∨ r.kind = .ip ∨ r.kind = .ipRange))

/-- Neither the list nor a list that it reaches has a foreign rule. -/
def RuleList.DomainsOnly (reg : Registry) (l : RuleList) : Prop :=
  (∀ r ∈ l.rules, ¬ r.Foreign) ∧
    ∀ name m, Reaches reg l.rules name → reg.get? name = some m → ∀ r ∈ m.rules, ¬ r.Foreign

/-! ### One list -/

theorem Rule.toDomain?_eq_none_iff {r : Rule} :
    r.toDomain? = none ↔ r.isInclusion ∨ r.Foreign := by
  unfold Rule.toDomain? Rule.isInclusion Rule.Foreign
  rcases r with ⟨kind, value, attributes⟩
  cases kind <;> simp [RuleKind.domainType?]

theorem Rule.Foreign.isInclusion_eq {r : Rule} (h : r.Foreign) : r.isInclusion = false := by
  rcases h with h | h | h <;> simp [Rule.isInclusion, h]

theorem mapM_eq_none_iff {α β : Type} (f : α → Option β) (as : List α) :
    as.mapM f = none ↔ ∃ a ∈ as, f a = none := by
  induction as with
  | nil => simp
  | cons a as ih =>
    rw [List.mapM_cons, List.exists_mem_cons_iff, ← ih]
    rcases ha : f a with _ | b
    · simp
    · rcases has : as.mapM f with _ | bs <;> simp

namespace ResolvedList

variable {x : ResolvedList}

theorem toGeoSite_isOk_iff : (∃ s, x.toGeoSite = .ok s) ↔ ∀ r ∈ x.rules, r.toDomain? ≠ none := by
  have hnone := mapM_eq_none_iff Rule.toDomain? x.rules
  rw [toGeoSite]
  rcases hm : x.rules.mapM Rule.toDomain? with _ | domains
  · obtain ⟨r, hr, hn⟩ := hnone.mp hm
    constructor
    · rintro ⟨s, hs⟩; cases hs
    · intro h; exact absurd hn (h r hr)
  · rw [hm] at hnone
    refine ⟨fun _ r hr hn => ?_, fun _ => ⟨_, rfl⟩⟩
    cases hnone.mpr ⟨r, hr, hn⟩

theorem toGeoSite_error {e : NoDomainRule} (h : x.toGeoSite = .error e) : e = ⟨x.name⟩ := by
  rw [toGeoSite] at h
  split at h
  · exact (Except.error.inj h).symm
  · cases h

end ResolvedList

namespace RuleList

variable {reg : Registry} {l : RuleList} {x : ResolvedList}

/-- What an expansion holds: the rules of the root and of what it reaches, inclusions apart. -/
theorem mem_rules_iff (hx : l.resolve reg = .ok x) {r : Rule} :
    r ∈ x.rules ↔ r.isInclusion = false ∧ (r ∈ l.rules ∨
      ∃ name m, Reaches reg l.rules name ∧ reg.get? name = some m ∧ r ∈ m.rules) := by
  rw [(perm_rules hx).mem_iff, List.mem_append, List.mem_flatMap, mem_plain]
  constructor
  · rintro (⟨hr, hi⟩ | ⟨name, hn, hr⟩)
    · exact ⟨hi, Or.inl hr⟩
    · obtain ⟨m, hm⟩ := Registry.mem_names_iff.mp (mem_names_of_mem_taken hx hn)
      rw [Registry.rulesOf_eq hm, mem_plain] at hr
      exact ⟨hr.2, Or.inr ⟨name, m, (mem_taken_iff hx).mp hn, hm, hr.1⟩⟩
  · rintro ⟨hi, hr | ⟨name, m, hn, hm, hr⟩⟩
    · exact Or.inl ⟨hr, hi⟩
    · refine Or.inr ⟨name, (mem_taken_iff hx).mpr hn, ?_⟩
      rw [Registry.rulesOf_eq hm, mem_plain]
      exact ⟨hr, hi⟩

/-- A resolved list has a message for domains exactly when it holds and reaches no foreign rule. -/
theorem toGeoSite_iff_domainsOnly (hx : l.resolve reg = .ok x) :
    (∃ s, x.toGeoSite = .ok s) ↔ l.DomainsOnly reg := by
  rw [ResolvedList.toGeoSite_isOk_iff]
  constructor
  · intro h
    have hall : ∀ r, r.Foreign → ¬ (r ∈ l.rules ∨
        ∃ name m, Reaches reg l.rules name ∧ reg.get? name = some m ∧ r ∈ m.rules) :=
      fun r hf hr => h r ((mem_rules_iff hx).mpr ⟨hf.isInclusion_eq, hr⟩)
        (Rule.toDomain?_eq_none_iff.mpr (Or.inr hf))
    exact ⟨fun r hr hf => hall r hf (Or.inl hr),
      fun name m hn hm r hr hf => hall r hf (Or.inr ⟨name, m, hn, hm, hr⟩)⟩
  · rintro ⟨hown, hreach⟩ r hr hn
    obtain ⟨hi, hr⟩ := (mem_rules_iff hx).mp hr
    have hf : r.Foreign := (Rule.toDomain?_eq_none_iff.mp hn).resolve_left (by simp [hi])
    rcases hr with hr | ⟨name, m, hname, hm, hr⟩
    · exact hown r hr hf
    · exact hreach name m hname hm r hr hf

/-- The four ends of the compilation of a list. -/
theorem compile_cases (reg : Registry) (l : RuleList) :
    (∃ e, l.resolve reg = .error e ∧ l.compile reg = .error (.missingList e)) ∨
    ∃ x, l.resolve reg = .ok x ∧
      ((l.family = .site ∧ ∃ e, x.toGeoSite = .error e ∧
          l.compile reg = .error (.noDomainRule e)) ∨
        (l.family = .site ∧ ∃ s, x.toGeoSite = .ok s ∧
          l.compile reg = .ok { l.reports with sites := [s] }) ∨
        (l.family = .ip ∧ l.compile reg = .ok { l.reports with ips := [x.toGeoIp] })) := by
  rw [compile]
  rcases hx : l.resolve reg with e | x
  · exact Or.inl ⟨e, rfl, rfl⟩
  · refine Or.inr ⟨x, rfl, ?_⟩
    rcases hf : l.family
    · rcases hs : x.toGeoSite with e | s
      · exact Or.inl ⟨rfl, e, rfl, by simp only [hs]⟩
      · exact Or.inr (Or.inl ⟨rfl, s, rfl, by simp only [hs]⟩)
    · exact Or.inr (Or.inr ⟨rfl, rfl⟩)

theorem compile_isOk_iff : (∃ c, l.compile reg = .ok c) ↔
    (∀ name, Reaches reg l.rules name → name ∈ reg.names) ∧
      (l.family = .site → l.DomainsOnly reg) := by
  rw [← resolve_isOk_iff]
  rcases compile_cases reg l with ⟨e, hx, hc⟩ |
    ⟨x, hx, ⟨hf, e, hs, hc⟩ | ⟨hf, s, hs, hc⟩ | ⟨hf, hc⟩⟩
  · simp [hx, hc]
  · have hd := toGeoSite_iff_domainsOnly hx
    rw [hs] at hd
    simp [hx, hc, hf, ← hd]
  · have hd := toGeoSite_iff_domainsOnly hx
    rw [hs] at hd
    simp [hx, hc, ← hd]
  · simp [hx, hc, hf]

theorem compile_error {e : CompileError} (h : l.compile reg = .error e) :
    (∃ value, e = .missingList ⟨value⟩ ∧ Text.uppercase value ∉ reg.names) ∨
      (l.family = .site ∧ ¬ l.DomainsOnly reg ∧ e = .noDomainRule ⟨l.name⟩) := by
  rcases compile_cases reg l with ⟨e', hx, hc⟩ |
    ⟨x, hx, ⟨hf, e', hs, hc⟩ | ⟨hf, s, hs, hc⟩ | ⟨hf, hc⟩⟩
  · obtain rfl := Except.error.inj (h.symm.trans hc)
    exact Or.inl ⟨e'.value, rfl, (resolve_error hx).2⟩
  · obtain rfl := Except.error.inj (h.symm.trans hc)
    have hname : x.name = l.name := (resolve_layered hx).1
    refine Or.inr ⟨hf, fun hd => ?_, ?_⟩
    · obtain ⟨s, hs'⟩ := (toGeoSite_iff_domainsOnly hx).mpr hd
      rw [hs] at hs'; cases hs'
    · rw [ResolvedList.toGeoSite_error hs, hname]
  · rw [hc] at h; cases h
  · rw [hc] at h; cases h

end RuleList

/-! ### All lists -/

namespace Registry

variable {reg : Registry}

theorem compileLists_isOk_iff (ls : List RuleList) : (∃ c, reg.compileLists ls = .ok c) ↔
    ∀ l ∈ ls, ∃ c, l.compile reg = .ok c := by
  induction ls with
  | nil => exact ⟨fun _ l hl => absurd hl List.not_mem_nil, fun _ => ⟨_, rfl⟩⟩
  | cons l ls ih =>
    rw [List.forall_mem_cons, ← ih, compileLists]
    rcases l.compile reg with e | c
    · simp
    · rcases reg.compileLists ls with e | cs <;> simp

theorem compileLists_error {ls : List RuleList} {e : CompileError}
    (h : reg.compileLists ls = .error e) : ∃ l ∈ ls, l.compile reg = .error e := by
  induction ls with
  | nil => cases h
  | cons l ls ih =>
    rw [compileLists] at h
    rcases hl : l.compile reg with e' | c
    · rw [hl] at h
      obtain rfl := Except.error.inj h
      exact ⟨l, List.mem_cons_self, hl⟩
    · rw [hl] at h
      rcases hls : reg.compileLists ls with e' | cs
      · rw [hls] at h
        obtain rfl := Except.error.inj h
        obtain ⟨m, hm, he⟩ := ih hls
        exact ⟨m, List.mem_cons_of_mem _ hm, he⟩
      · rw [hls] at h
        cases h

/-- Where every list's own inclusions are in the registry, so is all that a list reaches. -/
theorem reaches_mem_names
    (h : ∀ l ∈ reg.lists, ∀ r ∈ l.rules, r.isInclusion → r.target ∈ reg.names)
    {l : RuleList} (hl : l ∈ reg.lists) {name : String} (hn : Reaches reg l.rules name) :
    name ∈ reg.names := by
  have htargets : ∀ m ∈ reg.lists, ∀ name ∈ targets m.rules, name ∈ reg.names := by
    intro m hm name hname
    obtain ⟨r, hr, hi, rfl⟩ := mem_targets.mp hname
    exact h m hm r hr hi
  -- no induction: the last step starts from a list of the registry, whatever leads to it
  cases hn with
  | own ho => exact htargets l hl _ ho
  | next _ hm ht => exact htargets _ (mem_of_get? hm) _ ht

/-- **When a registry compiles**, in whatever order its lists are compiled: exactly when the own
inclusions of all lists are in the registry and no site list holds or reaches a foreign rule. If it
does not compile, the error names an inclusion whose list is missing or a site list that holds or
reaches a foreign rule. -/
theorem compileLists_criterion (reg : Registry) (ls : List RuleList) (h : ls.Perm reg.lists) :
    ((∃ c, reg.compileLists ls = .ok c) ↔
      (∀ l ∈ reg.lists, ∀ r ∈ l.rules, r.isInclusion → r.target ∈ reg.names) ∧
        ∀ l ∈ reg.lists, l.family = .site → l.DomainsOnly reg) ∧
    ∀ e, reg.compileLists ls = .error e →
      (∃ value, e = .missingList ⟨value⟩ ∧ Text.uppercase value ∉ reg.names) ∨
        ∃ l ∈ reg.lists, l.family = .site ∧ ¬ l.DomainsOnly reg ∧ e = .noDomainRule ⟨l.name⟩ := by
  constructor
  · rw [compileLists_isOk_iff]
    simp only [h.mem_iff, RuleList.compile_isOk_iff]
    constructor
    · intro hall
      refine ⟨fun l hl r hr hi => ?_, fun l hl => (hall l hl).2⟩
      exact (hall l hl).1 _ (.own (mem_targets.mpr ⟨r, hr, hi, rfl⟩))
    · rintro ⟨hown, hsite⟩ l hl
      exact ⟨fun name hn => reaches_mem_names hown hl hn, hsite l hl⟩
  · intro e he
    obtain ⟨l, hl, he⟩ := compileLists_error he
    rcases RuleList.compile_error he with hmissing | ⟨hf, hd, rfl⟩
    · exact Or.inl hmissing
    · exact Or.inr ⟨l, h.mem_iff.mp hl, hf, hd, rfl⟩

end Registry

/-- A site list that includes an address list. -/
def RuleList.mixedSite : RuleList := ⟨"A", .site, [⟨.inclusion, "x-ip", []⟩]⟩

/-- The address list. -/
def RuleList.mixedIp : RuleList := ⟨"X-IP", .ip, [⟨.ip, "10.0.0.0/8", []⟩]⟩

namespace Registry

open RuleList (mixedSite mixedIp)

/-- Backwards too, the cycle compiles and a site list that includes an address list does not. -/
theorem compileLists_criterion_reverse :
    (∃ c, cycle.compileLists cycle.lists.reverse = .ok c) ∧
      ¬ ∃ c, (ofList [mixedSite, mixedIp]).compileLists [mixedIp, mixedSite] = .ok c := by
  constructor
  · have hforeign : ∀ l ∈ cycle.lists, ∀ r ∈ l.rules, ¬ r.Foreign := by decide
    refine (compileLists_criterion cycle _ (List.reverse_perm _)).1.mpr
      ⟨by decide, fun l hl _ => ⟨hforeign l hl, fun name m _ hm => hforeign m (mem_of_get? hm)⟩⟩
  · intro h
    have hperm : [mixedIp, mixedSite].Perm (ofList [mixedSite, mixedIp]).lists := by decide
    obtain ⟨-, hsite⟩ := (compileLists_criterion _ _ hperm).1.mp h
    have hreach : Reaches (ofList [mixedSite, mixedIp]) mixedSite.rules "X-IP" := .own (by decide)
    have hip : (ofList [mixedSite, mixedIp]).get? "X-IP" = some mixedIp := rfl
    exact (hsite mixedSite (by decide) rfl).2 "X-IP" mixedIp hreach hip _ List.mem_cons_self
      (by decide)

end Registry

end GeoRules
