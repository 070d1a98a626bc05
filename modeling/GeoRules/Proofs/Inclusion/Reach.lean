import GeoRules.Proofs.Inclusion.Pass

/-! # The lists that a list reaches

`Reaches` is the least set of names that holds the targets of the root's inclusions and, with every
name that has a list, the targets of that list's inclusions. `ReachesIn` counts the steps. After `k`
passes exactly the names that are reached in at most `k` steps are taken in, and the inclusions that
are left stand for names reached in one step more (`Layered`). Hence an expansion takes in what its
root reaches (`mem_taken_iff`), and it ends well exactly when all of that is in the registry
(`resolve_isOk_iff`). -/

namespace GeoRules.Expansion

/-- The names that the inclusions among the rules lead to. -/
inductive Reaches (reg : Registry) (rules : List Rule) : String → Prop
  | own {name} (h : name ∈ targets rules) : Reaches reg rules name
  | next {name l target} (h : Reaches reg rules name) (hl : reg.get? name = some l)
      (ht : target ∈ targets l.rules) : Reaches reg rules target

/-- The names that the inclusions among the rules lead to in `n` steps. -/
inductive ReachesIn (reg : Registry) (rules : List Rule) : ℕ → String → Prop
  | own {name} (h : name ∈ targets rules) : ReachesIn reg rules 1 name
  | next {n name l target} (h : ReachesIn reg rules n name) (hl : reg.get? name = some l)
      (ht : target ∈ targets l.rules) : ReachesIn reg rules (n + 1) target

variable {reg : Registry} {root rules : List Rule} {taken : List String} {p : Pass} {k : ℕ}

theorem reaches_iff {name : String} : Reaches reg root name ↔ ∃ n, ReachesIn reg root n name := by
  constructor
  · intro h
    induction h with
    | own h => exact ⟨1, .own h⟩
    | next _ hl ht ih =>
      obtain ⟨n, hn⟩ := ih
      exact ⟨n + 1, .next hn hl ht⟩
  · rintro ⟨n, h⟩
    induction h with
    | own h => exact .own h
    | next _ hl ht ih => exact .next ih hl ht

theorem ReachesIn.pos {n : ℕ} {name : String} (h : ReachesIn reg root n name) : 1 ≤ n := by
  cases h <;> omega

/-- The inclusions that a pass leaves are those of the lists it takes in. -/
theorem PassOk.mem_targets_iff (h : PassOk reg taken rules p) {target : String} :
    target ∈ targets p.rules ↔
      ∃ name ∈ p.fresh, ∃ l, reg.get? name = some l ∧ target ∈ targets l.rules := by
  constructor
  · intro ht
    obtain ⟨r, hr, hi, rfl⟩ := mem_targets.mp ht
    rcases h.mem_rules_iff.mp hr with ⟨-, hn⟩ | ⟨name, hf, l, hl, hr⟩
    · rw [hn] at hi; cases hi
    · exact ⟨name, hf, l, hl, mem_targets.mpr ⟨r, hr, hi, rfl⟩⟩
  · rintro ⟨name, hf, l, hl, ht⟩
    obtain ⟨r, hr, hi, rfl⟩ := mem_targets.mp ht
    exact mem_targets.mpr ⟨r, h.mem_rules_iff.mpr (Or.inr ⟨name, hf, l, hl, hr⟩), hi, rfl⟩

/-! ### Layers -/

/-- **After `k` passes** the names reached in at most `k` steps are taken in, and the inclusions
that are left stand for names reached in `k + 1` steps, all that are not taken in among them. -/
structure Layered (reg : Registry) (root : List Rule) (k : ℕ) (taken : List String)
    (rules : List Rule) : Prop where
  nodup : taken.Nodup
  mem_names : ∀ name ∈ taken, name ∈ reg.names
  mem_taken : ∀ name, name ∈ taken ↔ ∃ n ≤ k, ReachesIn reg root n name
  sound : ∀ name ∈ targets rules, ReachesIn reg root (k + 1) name
  complete : ∀ name, ReachesIn reg root (k + 1) name → name ∈ taken ∨ name ∈ targets rules

theorem Layered.start (reg : Registry) (root : List Rule) : Layered reg root 0 [] root where
  nodup := List.nodup_nil
  mem_names := by simp
  mem_taken name := by
    simp only [List.not_mem_nil, false_iff]
    rintro ⟨n, hn, h⟩
    have := h.pos; omega
  sound _ h := .own h
  complete name h := by
    right
    cases h with
    | own h => exact h
    | next h => have := h.pos; omega

/-- The names taken in after one more pass. -/
theorem Layered.mem_append_iff (h : Layered reg root k taken rules) (hp : PassOk reg taken rules p)
    (name : String) : name ∈ taken ++ p.fresh ↔ ∃ n ≤ k + 1, ReachesIn reg root n name := by
  rw [List.mem_append, hp.mem_fresh_iff]
  constructor
  · rintro (ht | ⟨hr, -⟩)
    · obtain ⟨n, hn, hname⟩ := (h.mem_taken name).mp ht
      exact ⟨n, by omega, hname⟩
    · exact ⟨k + 1, Nat.le_refl _, h.sound name hr⟩
  · rintro ⟨n, hn, hname⟩
    by_cases ht : name ∈ taken
    · exact Or.inl ht
    · right
      rcases Nat.lt_or_ge k n with hkn | hkn
      · obtain rfl : n = k + 1 := by omega
        exact ⟨(h.complete name hname).resolve_left ht, ht⟩
      · exact absurd ((h.mem_taken name).mpr ⟨n, hkn, hname⟩) ht

theorem Layered.step (h : Layered reg root k taken rules) (hp : PassOk reg taken rules p) :
    Layered reg root (k + 1) (taken ++ p.fresh) p.rules where
  nodup := List.nodup_append'.mpr ⟨h.nodup, hp.nodup_fresh,
    fun _ ht hf => (hp.mem_fresh_iff.mp hf).2 ht⟩
  mem_names name hm := (List.mem_append.mp hm).elim (h.mem_names name) hp.mem_names
  mem_taken := h.mem_append_iff hp
  sound target ht := by
    obtain ⟨name, hf, l, hl, ht⟩ := hp.mem_targets_iff.mp ht
    exact .next (h.sound name (hp.mem_fresh_iff.mp hf).1) hl ht
  complete target ht := by
    obtain _ | @⟨_, name, l, _, hname, hl, ht⟩ := ht
    by_cases hm : name ∈ taken
    · left
      obtain ⟨n, hn, hname⟩ := (h.mem_taken name).mp hm
      exact (h.mem_append_iff hp target).mpr ⟨n + 1, by omega, .next hname hl ht⟩
    · right
      have hr := (h.complete name hname).resolve_left hm
      exact hp.mem_targets_iff.mpr ⟨name, hp.mem_fresh_iff.mpr ⟨hr, hm⟩, l, hl, ht⟩

/-- Before a pass that takes nothing in, all that is reached is taken in. -/
theorem Layered.mem_taken_iff (h : Layered reg root k taken rules) {out : List Rule}
    (hp : PassOk reg taken rules ⟨[], out⟩) {name : String} :
    name ∈ taken ↔ Reaches reg root name := by
  -- the steps may be more than `k + 1`, but each of them starts from a name that is taken in
  have hlast : ∀ name, ReachesIn reg root (k + 1) name → name ∈ taken := fun name hname => by
    have := (h.mem_append_iff hp name).mpr ⟨k + 1, Nat.le_refl _, hname⟩
    rwa [List.append_nil] at this
  rw [reaches_iff]
  constructor
  · intro hm
    obtain ⟨n, -, hname⟩ := (h.mem_taken name).mp hm
    exact ⟨n, hname⟩
  · rintro ⟨n, hname⟩
    induction hname with
    | own ho =>
      rcases Nat.eq_zero_or_pos k with rfl | hk
      · exact hlast _ (.own ho)
      · exact (h.mem_taken _).mpr ⟨1, hk, .own ho⟩
    | next _ hl ht ih =>
      obtain ⟨n, hn, hname⟩ := (h.mem_taken _).mp ih
      rcases Nat.lt_or_ge n k with hnk | hnk
      · exact (h.mem_taken _).mpr ⟨n + 1, hnk, .next hname hl ht⟩
      · obtain rfl : n = k := by omega
        exact hlast _ (.next hname hl ht)

end GeoRules.Expansion

namespace GeoRules.RuleList

open Expansion

variable {root : RuleList} {reg : Registry} {x : ResolvedList}

/-! ### What an expansion takes in -/

theorem resolve_layered (hx : root.resolve reg = .ok x) :
    x.name = root.name ∧ ∃ k rules, Layered reg root.rules k x.taken rules ∧
      PassOk reg x.taken rules ⟨[], x.rules⟩ :=
  resolve_run _ (fun h hp _ => Layered.step h hp) (Layered.start reg root.rules) hx

theorem nodup_taken (hx : root.resolve reg = .ok x) : x.taken.Nodup := by
  obtain ⟨-, k, rules, h, -⟩ := resolve_layered hx
  exact h.nodup

theorem mem_names_of_mem_taken (hx : root.resolve reg = .ok x) {name : String}
    (hn : name ∈ x.taken) : name ∈ reg.names := by
  obtain ⟨-, k, rules, h, -⟩ := resolve_layered hx
  exact h.mem_names name hn

/-- **An expansion takes in what its root reaches.** -/
theorem mem_taken_iff (hx : root.resolve reg = .ok x) {name : String} :
    name ∈ x.taken ↔ Reaches reg root.rules name := by
  obtain ⟨-, k, rules, h, hp⟩ := resolve_layered hx
  exact h.mem_taken_iff hp

theorem not_isInclusion (hx : root.resolve reg = .ok x) {r : Rule} (hr : r ∈ x.rules) :
    r.isInclusion = false := by
  obtain ⟨-, k, rules, -, hp⟩ := resolve_layered hx
  rw [← hp.plain_eq] at hr
  exact (mem_plain.mp hr).2

/-- An expansion that fails names a list that the root reaches and that is missing. -/
theorem resolve_error {e : MissingList} (he : root.resolve reg = .error e) :
    Reaches reg root.rules (Text.uppercase e.value) ∧ Text.uppercase e.value ∉ reg.names := by
  obtain ⟨k, taken, rules, h, hp⟩ :=
    resolve_run_error _ (fun h hp _ => Layered.step h hp) (Layered.start reg root.rules) he
  obtain ⟨u, r, v, q, rfl, -, hr, -, hn, rfl⟩ := pass_error hp
  have ht : r.target ∈ targets (u ++ r :: v) := mem_targets.mpr ⟨r, by simp, hr, rfl⟩
  exact ⟨reaches_iff.mpr ⟨k + 1, h.sound _ ht⟩, hn⟩

/-- **An expansion ends well exactly when all that its root reaches is in the registry.** -/
theorem resolve_isOk_iff : (∃ x, root.resolve reg = .ok x) ↔
    ∀ name, Reaches reg root.rules name → name ∈ reg.names := by
  constructor
  · rintro ⟨x, hx⟩ name h
    exact mem_names_of_mem_taken hx ((mem_taken_iff hx).mpr h)
  · intro h
    rcases hx : root.resolve reg with e | x
    · obtain ⟨hr, hn⟩ := resolve_error hx
      exact absurd (h _ hr) hn
    · exact ⟨x, rfl⟩

/-- **Expansion and reachability.** An expansion ends well exactly when every name that the root
reaches is in the registry, and then it takes in those names, each once, keeps the root's name and
leaves no inclusion. -/
theorem resolve_reaches (root : RuleList) (reg : Registry) :
    ((∃ x, root.resolve reg = .ok x) ↔
      ∀ name, Reaches reg root.rules name → name ∈ reg.names) ∧
    ∀ x, root.resolve reg = .ok x →
      x.name = root.name ∧ x.taken.Nodup ∧
      (∀ name, name ∈ x.taken ↔ Reaches reg root.rules name) ∧
      ∀ r ∈ x.rules, r.isInclusion = false := by
  refine ⟨resolve_isOk_iff, fun x hx => ⟨?_, nodup_taken hx, fun name => mem_taken_iff hx, ?_⟩⟩
  · exact (resolve_layered hx).1
  · exact fun r hr => not_isInclusion hx hr

/-- A root that reaches a list of its own name through a cycle takes that list in. -/
theorem resolve_reaches_cycle : Reaches .cycle cycleRoot.rules "A" ∧ "A" ∈ Registry.cycle.names ∧
    ¬ Reaches .cycle cycleRoot.rules "C" := by
  obtain ⟨hok, hall⟩ := resolve_reaches cycleRoot .cycle
  obtain ⟨-, -, htaken, -⟩ := hall _ resolve_cycleRoot
  have hA : Reaches .cycle cycleRoot.rules "A" := (htaken "A").mp (by decide)
  refine ⟨hA, hok.mp ⟨_, resolve_cycleRoot⟩ "A" hA, fun hC => ?_⟩
  exact absurd ((htaken "C").mpr hC) (by decide)

end GeoRules.RuleList
