import GeoRules.Inclusion.Expansion
import GeoRules.Proofs.RuleList.Lookup
import Mathlib.Data.List.Perm.Basic

/-! # One pass and all passes

`PassOk` lists, rule by rule, what a pass that ends well does: a rule that is no inclusion stays, an
inclusion of a name that was taken in is dropped, and any other inclusion takes in the list of its
name (`PassOk.eq_ok`, `ok_of_pass`). What a pass leaves is therefore read off its rules and the
names it takes in: `mem_fresh_iff`, `nodup_fresh`, `perm_rules`. A pass that fails stops at the
first inclusion of a name that was not taken in and that no list has (`pass_error`).

The passes of an expansion form a run. What holds before it and is kept by every pass holds at its
end, where a pass takes nothing in (`resolve_run`) or fails (`resolve_run_error`). -/

namespace GeoRules.Expansion

/-- The rules that are no inclusions. -/
def plain (rules : List Rule) : List Rule := rules.filter fun r => !r.isInclusion

/-- The names that the inclusions among the rules stand for. -/
def targets (rules : List Rule) : List String := (rules.filter Rule.isInclusion).map Rule.target

section Parts
variable {r : Rule} {rules : List Rule}

theorem plain_cons (h : r.isInclusion = false) : plain (r :: rules) = r :: plain rules := by
  simp [plain, h]

theorem plain_cons_inclusion (h : r.isInclusion) : plain (r :: rules) = plain rules := by
  simp [plain, h]

theorem plain_append (u v : List Rule) : plain (u ++ v) = plain u ++ plain v :=
  List.filter_append ..

theorem plain_plain (rules : List Rule) : plain (plain rules) = plain rules := by simp [plain]

theorem plain_flatMap (names : List String) (f : String → List Rule) :
    plain (names.flatMap f) = names.flatMap fun name => plain (f name) := by
  simp [plain, List.filter_flatMap]

theorem mem_plain : r ∈ plain rules ↔ r ∈ rules ∧ r.isInclusion = false := by simp [plain]

theorem targets_cons (h : r.isInclusion = false) : targets (r :: rules) = targets rules := by
  simp [targets, h]

theorem targets_cons_inclusion (h : r.isInclusion) :
    targets (r :: rules) = r.target :: targets rules := by
  simp [targets, h]

theorem targets_plain (rules : List Rule) : targets (plain rules) = [] := by
  simp [targets, plain, List.filter_filter]

theorem targets_append (u v : List Rule) : targets (u ++ v) = targets u ++ targets v := by
  simp [targets]

theorem mem_targets {name : String} :
    name ∈ targets rules ↔ ∃ r ∈ rules, r.isInclusion ∧ r.target = name := by
  simp [targets, and_assoc]

end Parts

/-! ### One pass -/

/-- **A pass that ends well**, rule by rule. -/
inductive PassOk (reg : Registry) : List String → List Rule → Pass → Prop
  | nil {taken} : PassOk reg taken [] ⟨[], []⟩
  | keep {taken rule rules p} (hr : rule.isInclusion = false) (hp : PassOk reg taken rules p) :
      PassOk reg taken (rule :: rules) ⟨p.fresh, rule :: p.rules⟩
  | drop {taken rule rules p} (hr : rule.isInclusion) (ht : rule.target ∈ taken)
      (hp : PassOk reg taken rules p) : PassOk reg taken (rule :: rules) p
  | take {taken rule rules p l} (hr : rule.isInclusion) (ht : rule.target ∉ taken)
      (hl : reg.get? rule.target = some l) (hp : PassOk reg (rule.target :: taken) rules p) :
      PassOk reg taken (rule :: rules) ⟨rule.target :: p.fresh, l.rules ++ p.rules⟩

variable {reg : Registry} {taken : List String} {rules : List Rule} {p : Pass}

theorem PassOk.eq_ok (h : PassOk reg taken rules p) : pass reg taken rules = .ok p := by
  induction h with
  | nil => rfl
  | keep hr _ ih => rw [pass, if_neg (by simp [hr]), ih]
  | drop hr ht _ ih => rw [pass, if_pos hr, if_pos ht, ih]
  | take hr ht hl _ ih => simp only [pass, if_pos hr, if_neg ht, hl, ih]

/-- The four ends of a pass over a rule and the rules behind it. -/
theorem pass_cons (reg : Registry) (taken : List String) (rule : Rule) (rules : List Rule) :
    (rule.isInclusion = false ∧ pass reg taken (rule :: rules) =
      (pass reg taken rules).map fun p => ⟨p.fresh, rule :: p.rules⟩) ∨
    (rule.isInclusion ∧ rule.target ∈ taken ∧
      pass reg taken (rule :: rules) = pass reg taken rules) ∨
    (rule.isInclusion ∧ rule.target ∉ taken ∧ reg.get? rule.target = none ∧
      pass reg taken (rule :: rules) = .error ⟨rule.value⟩) ∨
    (rule.isInclusion ∧ rule.target ∉ taken ∧ ∃ l, reg.get? rule.target = some l ∧
      pass reg taken (rule :: rules) = (pass reg (rule.target :: taken) rules).map fun p =>
        ⟨rule.target :: p.fresh, l.rules ++ p.rules⟩) := by
  rw [pass]
  by_cases hr : rule.isInclusion
  · right
    rw [if_pos hr]
    by_cases ht : rule.target ∈ taken
    · left; exact ⟨hr, ht, if_pos ht⟩
    · right
      rw [if_neg ht]
      rcases hl : reg.get? rule.target with _ | l
      · left; exact ⟨hr, ht, rfl, rfl⟩
      · right
        refine ⟨hr, ht, l, rfl, ?_⟩
        cases pass reg (rule.target :: taken) rules <;> rfl
  · left
    rw [if_neg hr]
    refine ⟨by simpa using hr, ?_⟩
    cases pass reg taken rules <;> rfl

/-- Rules without inclusions are kept. -/
theorem passOk_self (h : ∀ rule ∈ rules, rule.isInclusion = false) :
    PassOk reg taken rules ⟨[], rules⟩ := by
  induction rules with
  | nil => exact .nil
  | cons rule rules ih =>
    rw [List.forall_mem_cons] at h
    exact .keep h.1 (ih h.2)

theorem ok_of_pass (h : pass reg taken rules = .ok p) : PassOk reg taken rules p := by
  induction rules generalizing taken p with
  | nil =>
    obtain rfl := Except.ok.inj h
    exact .nil
  | cons rule rules ih =>
    rcases pass_cons reg taken rule rules with
      ⟨hr, he⟩ | ⟨hr, ht, he⟩ | ⟨hr, ht, hl, he⟩ | ⟨hr, ht, l, hl, he⟩
    · rw [he] at h
      rcases hq : pass reg taken rules with e | q <;> rw [hq] at h
      · cases h
      · obtain rfl := Except.ok.inj h
        exact .keep hr (ih hq)
    · rw [he] at h
      exact .drop hr ht (ih h)
    · rw [he] at h
      cases h
    · rw [he] at h
      rcases hq : pass reg (rule.target :: taken) rules with e | q <;> rw [hq] at h
      · cases h
      · obtain rfl := Except.ok.inj h
        exact .take hr ht hl (ih hq)

/-- A pass takes in the names that its inclusions stand for, but those that were taken in before. -/
theorem PassOk.mem_fresh_iff (h : PassOk reg taken rules p) {name : String} :
    name ∈ p.fresh ↔ name ∈ targets rules ∧ name ∉ taken := by
  induction h with
  | nil => simp [targets]
  | keep hr _ ih => rw [targets_cons hr]; exact ih
  | drop hr ht _ ih =>
    rw [targets_cons_inclusion hr, ih, List.mem_cons]
    constructor
    · rintro ⟨hm, hn⟩; exact ⟨Or.inr hm, hn⟩
    · rintro ⟨rfl | hm, hn⟩
      · exact absurd ht hn
      · exact ⟨hm, hn⟩
  | @take taken rule rules p l hr ht _ _ ih =>
    rw [targets_cons_inclusion hr, List.mem_cons, List.mem_cons, ih, List.mem_cons]
    by_cases he : name = rule.target
    · subst he
      exact ⟨fun _ => ⟨Or.inl rfl, ht⟩, fun _ => Or.inl rfl⟩
    · simp only [he, false_or]

theorem PassOk.mem_names (h : PassOk reg taken rules p) {name : String} (hn : name ∈ p.fresh) :
    name ∈ reg.names := (mem_fresh h.eq_ok hn).1

theorem PassOk.nodup_fresh (h : PassOk reg taken rules p) : p.fresh.Nodup := by
  induction h with
  | nil => exact List.nodup_nil
  | keep _ _ ih => exact ih
  | drop _ _ _ ih => exact ih
  | take _ _ _ hp ih =>
    refine List.nodup_cons.mpr ⟨fun hm => ?_, ih⟩
    exact (hp.mem_fresh_iff.mp hm).2 List.mem_cons_self

/-- A pass leaves the rules that are no inclusions and the rules of the lists it takes in. -/
theorem PassOk.perm_rules (h : PassOk reg taken rules p) :
    p.rules.Perm (plain rules ++ p.fresh.flatMap reg.rulesOf) := by
  induction h with
  | nil => exact .nil
  | keep hr _ ih => rw [plain_cons hr]; exact ih.cons _
  | drop hr _ _ ih => rw [plain_cons_inclusion hr]; exact ih
  | @take taken rule rules p l hr _ hl _ ih =>
    rw [plain_cons_inclusion hr, List.flatMap_cons, Registry.rulesOf_eq hl]
    refine (ih.append_left _).trans ?_
    rw [← List.append_assoc, ← List.append_assoc]
    exact List.perm_append_comm.append_right _

theorem PassOk.mem_rules_iff (h : PassOk reg taken rules p) {r : Rule} :
    r ∈ p.rules ↔ (r ∈ rules ∧ r.isInclusion = false) ∨
      ∃ name ∈ p.fresh, ∃ l, reg.get? name = some l ∧ r ∈ l.rules := by
  rw [h.perm_rules.mem_iff, List.mem_append, mem_plain, List.mem_flatMap]
  refine or_congr_right (exists_congr fun name => and_congr_right fun hf => ?_)
  obtain ⟨l, hl⟩ := Registry.mem_names_iff.mp (h.mem_names hf)
  rw [Registry.rulesOf_eq hl]
  simp [hl]

/-- A pass that takes nothing in leaves no inclusion. -/
theorem PassOk.plain_eq {out : List Rule} (h : PassOk reg taken rules ⟨[], out⟩) :
    plain out = out := by
  refine List.filter_eq_self.mpr fun r hr => ?_
  rcases h.mem_rules_iff.mp hr with ⟨-, hn⟩ | ⟨name, hf, -⟩
  · rw [hn]; rfl
  · exact absurd hf List.not_mem_nil

/-- A pass over two pieces is a pass over the first and, after what that takes in, one over the
second. -/
theorem PassOk.of_append {u v : List Rule} (h : PassOk reg taken (u ++ v) p) :
    ∃ q s, PassOk reg taken u q ∧ PassOk reg (q.fresh.reverse ++ taken) v s ∧
      p = ⟨q.fresh ++ s.fresh, q.rules ++ s.rules⟩ := by
  induction u generalizing taken p with
  | nil => exact ⟨⟨[], []⟩, p, .nil, h, rfl⟩
  | cons r u ih =>
    cases h with
    | keep hr hp =>
      obtain ⟨q, s, hq, hs, rfl⟩ := ih hp
      exact ⟨_, s, .keep hr hq, hs, rfl⟩
    | drop hr ht hp =>
      obtain ⟨q, s, hq, hs, rfl⟩ := ih hp
      exact ⟨q, s, .drop hr ht hq, hs, rfl⟩
    | take hr ht hl hp =>
      obtain ⟨q, s, hq, hs, rfl⟩ := ih hp
      refine ⟨_, s, .take hr ht hl hq, ?_, by rw [List.append_assoc]; rfl⟩
      rw [List.reverse_cons, List.append_assoc]
      exact hs

/-- **A pass fails at the first inclusion that was not taken in and that no list has.** -/
theorem pass_error {e : MissingList} (h : pass reg taken rules = .error e) :
    ∃ u r v q, rules = u ++ r :: v ∧ PassOk reg taken u q ∧ r.isInclusion ∧ r.target ∉ taken ∧
      r.target ∉ reg.names ∧ e = ⟨r.value⟩ := by
  induction rules generalizing taken with
  | nil => cases h
  | cons rule rules ih =>
    rcases pass_cons reg taken rule rules with
      ⟨hr, he⟩ | ⟨hr, ht, he⟩ | ⟨hr, ht, hl, he⟩ | ⟨hr, ht, l, hl, he⟩
    · rw [he] at h
      rcases hq : pass reg taken rules with e' | q <;> rw [hq] at h
      · obtain rfl := Except.error.inj h
        obtain ⟨u, r, v, q, rfl, hu, hrest⟩ := ih hq
        exact ⟨rule :: u, r, v, _, rfl, .keep hr hu, hrest⟩
      · cases h
    · rw [he] at h
      obtain ⟨u, r, v, q, rfl, hu, hrest⟩ := ih h
      exact ⟨rule :: u, r, v, _, rfl, .drop hr ht hu, hrest⟩
    · rw [he] at h
      obtain rfl := Except.error.inj h
      exact ⟨[], rule, rules, _, rfl, .nil, hr, ht, Registry.get?_eq_none_iff.mp hl, rfl⟩
    · rw [he] at h
      rcases hq : pass reg (rule.target :: taken) rules with e' | q <;> rw [hq] at h
      · obtain rfl := Except.error.inj h
        obtain ⟨u, r, v, q, rfl, hu, hr', ht', hrest⟩ := ih hq
        exact ⟨rule :: u, r, v, _, rfl, .take hr ht hl hu, hr',
          fun hc => ht' (List.mem_cons_of_mem _ hc), hrest⟩
      · cases h

/-! ### The run of all passes -/

theorem passes_of_error {e : MissingList} (h : pass reg taken rules = .error e) :
    passes reg taken rules = .error e := by
  rw [passes]
  split
  · next h' => rw [Except.error.inj (h'.symm.trans h)]
  · next h' => rw [h] at h'; cases h'

/-- The last pass takes nothing in. -/
theorem passes_of_last {out : List Rule} (h : PassOk reg taken rules ⟨[], out⟩) :
    passes reg taken rules = .ok ⟨taken, out⟩ := by
  rw [passes]
  split
  · next h' => rw [h.eq_ok] at h'; cases h'
  · next h' =>
    rw [h.eq_ok] at h'
    obtain rfl := Except.ok.inj h'
    rfl

/-- Every other pass hands its rules to the next. -/
theorem PassOk.passes_eq (h : PassOk reg taken rules p) (hf : p.fresh ≠ []) :
    passes reg taken rules = passes reg (taken ++ p.fresh) p.rules := by
  rw [passes]
  split
  · next h' => rw [h.eq_ok] at h'; cases h'
  · next h' =>
    rw [h.eq_ok] at h'
    obtain rfl := Except.ok.inj h'
    split
    · next hn => exact absurd hn hf
    · next hn => rw [hn]

/-- A pass that takes something in, and the passes behind it. -/
theorem passes_of_step {name : String} {names : List String} {next : List Rule} {y : Expanded}
    (h : pass reg taken rules = .ok ⟨name :: names, next⟩)
    (hy : passes reg (taken ++ name :: names) next = .ok y) : passes reg taken rules = .ok y := by
  rw [(ok_of_pass h).passes_eq (List.cons_ne_nil _ _), hy]

/-- **What every pass keeps holds at the end of the run**, where a pass takes nothing in or
fails. -/
theorem passes_run {Inv : ℕ → List String → List Rule → Prop}
    (step : ∀ {k taken rules p}, Inv k taken rules → PassOk reg taken rules p → p.fresh ≠ [] →
      Inv (k + 1) (taken ++ p.fresh) p.rules) {k : ℕ} (h : Inv k taken rules) :
    ∃ k' taken' rules', Inv k' taken' rules' ∧
      ((∃ out, PassOk reg taken' rules' ⟨[], out⟩ ∧
          passes reg taken rules = .ok ⟨taken', out⟩) ∨
        ∃ e, pass reg taken' rules' = .error e ∧ passes reg taken rules = .error e) := by
  -- a pass that takes something in leaves fewer names of the registry to be taken in
  induction hn : (remaining reg taken).length using Nat.strongRecOn
    generalizing k taken rules with
  | ind n ih =>
    rcases hp : pass reg taken rules with e | p
    · exact ⟨k, taken, rules, h, Or.inr ⟨e, hp, passes_of_error hp⟩⟩
    · have hok := ok_of_pass hp
      rcases hf : p.fresh with _ | ⟨name, names⟩
      · obtain ⟨fresh, out⟩ := p
        obtain rfl : fresh = [] := hf
        exact ⟨k, taken, rules, h, Or.inl ⟨out, hok, passes_of_last hok⟩⟩
      · have hne : p.fresh ≠ [] := by rw [hf]; exact List.cons_ne_nil _ _
        have hm : name ∈ p.fresh := by rw [hf]; exact List.mem_cons_self
        have hlt := length_remaining_lt hm (mem_fresh hp hm).1 (mem_fresh hp hm).2
        rw [hok.passes_eq hne]
        exact ih _ (hn ▸ hlt) (step h hok hne) rfl

end GeoRules.Expansion

namespace GeoRules.RuleList

open Expansion

variable {root : RuleList} {reg : Registry} {x : ResolvedList}

theorem resolve_of_ok {y : Expanded} (h : passes reg [] root.rules = .ok y) :
    root.resolve reg = .ok ⟨root.name, y.taken, y.rules⟩ := by rw [resolve, h]

/-- A list without inclusions is left as it is. -/
theorem resolve_eq_self (h : ∀ rule ∈ root.rules, rule.isInclusion = false) (reg : Registry) :
    root.resolve reg = .ok ⟨root.name, [], root.rules⟩ :=
  resolve_of_ok (passes_of_last (passOk_self h))

theorem resolve_of_error {e : MissingList} (h : passes reg [] root.rules = .error e) :
    root.resolve reg = .error e := by rw [resolve, h]

/-- **What every pass keeps holds before the last pass of an expansion that ends well.** -/
theorem resolve_run (Inv : ℕ → List String → List Rule → Prop)
    (step : ∀ {k taken rules p}, Inv k taken rules → PassOk reg taken rules p → p.fresh ≠ [] →
      Inv (k + 1) (taken ++ p.fresh) p.rules) (h : Inv 0 [] root.rules)
    (hx : root.resolve reg = .ok x) :
    x.name = root.name ∧ ∃ k rules, Inv k x.taken rules ∧
      PassOk reg x.taken rules ⟨[], x.rules⟩ := by
  obtain ⟨k, taken, rules, hinv, ⟨out, hp, hrun⟩ | ⟨e, hp, hrun⟩⟩ := passes_run step h
  · rw [resolve_of_ok hrun] at hx
    obtain rfl := Except.ok.inj hx
    exact ⟨rfl, k, rules, hinv, hp⟩
  · rw [resolve_of_error hrun] at hx
    cases hx

/-- **What every pass keeps holds before the pass that fails.** -/
theorem resolve_run_error (Inv : ℕ → List String → List Rule → Prop)
    (step : ∀ {k taken rules p}, Inv k taken rules → PassOk reg taken rules p → p.fresh ≠ [] →
      Inv (k + 1) (taken ++ p.fresh) p.rules) (h : Inv 0 [] root.rules)
    {e : MissingList} (he : root.resolve reg = .error e) :
    ∃ k taken rules, Inv k taken rules ∧ pass reg taken rules = .error e := by
  obtain ⟨k, taken, rules, hinv, ⟨out, hp, hrun⟩ | ⟨e', hp, hrun⟩⟩ := passes_run step h
  · rw [resolve_of_ok hrun] at he
    cases he
  · rw [resolve_of_error hrun] at he
    obtain rfl := Except.error.inj he
    exact ⟨k, taken, rules, hinv, hp⟩

end GeoRules.RuleList

/-! ### A cycle -/

namespace GeoRules

open Expansion

/-- Two lists that include each other, one of them also itself. -/
def Registry.cycle : Registry := .ofList
  [⟨"A", .site, [⟨.inclusion, "b", []⟩, ⟨.domain, "x", []⟩]⟩,
    ⟨"B", .site, [⟨.inclusion, "a", []⟩, ⟨.inclusion, "b", []⟩, ⟨.full, "z", []⟩]⟩]

/-- A list that is not in `Registry.cycle` but has the name of one that is. -/
def RuleList.cycleRoot : RuleList := ⟨"A", .site, [⟨.inclusion, "b", []⟩, ⟨.domain, "r", []⟩]⟩

theorem RuleList.resolve_cycleRoot : cycleRoot.resolve .cycle =
    .ok ⟨"A", ["B", "A"], [⟨.domain, "x", []⟩, ⟨.full, "z", []⟩, ⟨.domain, "r", []⟩]⟩ := by
  have h1 : pass .cycle [] cycleRoot.rules = .ok ⟨["B"],
      [⟨.inclusion, "a", []⟩, ⟨.inclusion, "b", []⟩, ⟨.full, "z", []⟩, ⟨.domain, "r", []⟩]⟩ := rfl
  have h2 : pass .cycle ["B"] [⟨.inclusion, "a", []⟩, ⟨.inclusion, "b", []⟩, ⟨.full, "z", []⟩,
      ⟨.domain, "r", []⟩] = .ok ⟨["A"],
        [⟨.inclusion, "b", []⟩, ⟨.domain, "x", []⟩, ⟨.full, "z", []⟩, ⟨.domain, "r", []⟩]⟩ := rfl
  have h3 : pass .cycle ["B", "A"] [⟨.inclusion, "b", []⟩, ⟨.domain, "x", []⟩, ⟨.full, "z", []⟩,
      ⟨.domain, "r", []⟩] = .ok ⟨[],
        [⟨.domain, "x", []⟩, ⟨.full, "z", []⟩, ⟨.domain, "r", []⟩]⟩ := rfl
  exact resolve_of_ok (passes_of_step h1 (passes_of_step h2 (passes_of_last (ok_of_pass h3))))

end GeoRules
