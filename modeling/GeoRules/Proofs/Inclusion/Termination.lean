import GeoRules.Proofs.Inclusion.Conservation
import Mathlib.Order.Bounds.Defs

/-! # The number of passes

An expansion goes through the lists by their distance from the root. After `k` passes it has taken
in the names that the root reaches in at most `k` steps (`afterPasses`, `layered_of_afterPasses`),
and it gets as far as none of these names is missing (`afterPasses_isOk_iff`).

Every pass but the last takes in a name of the registry that no pass took in before, so there is at
most one pass more than there are lists, whatever cycles they form. What a pass takes in lies
exactly at its distance (`Layered.atDistance`), so an expansion that ends well makes one pass more
than the distance of the farthest list.

Main statement: `RuleList.resolve_layers`. -/

namespace GeoRules

namespace Expansion

/-! ### Passes one after the other -/

/-- What an expansion has after `k` passes, unless one of them fails. -/
def afterPasses (reg : Registry) (root : List Rule) : ℕ → Except MissingList Expanded
  | 0 => .ok ⟨[], root⟩
  | k + 1 => match afterPasses reg root k with
    | .error e => .error e
    | .ok x => match pass reg x.taken x.rules with
      | .error e => .error e
      | .ok p => .ok ⟨x.taken ++ p.fresh, p.rules⟩

/-- The number of passes that `passes` makes, the last one among them. -/
def passCount (reg : Registry) (taken : List String) (rules : List Rule) : ℕ :=
  match _h : pass reg taken rules with
  | .error _ => 1
  | .ok p => match _hf : p.fresh with
    | [] => 1
    | name :: names => passCount reg (taken ++ name :: names) p.rules + 1
termination_by (remaining reg taken).length
decreasing_by
  have hm : name ∈ reg.names ∧ name ∉ taken :=
    mem_fresh ‹pass reg taken rules = .ok p› (by simp [*])
  exact length_remaining_lt List.mem_cons_self hm.1 hm.2

/-- The name is reached in `d` steps and in no fewer. -/
def AtDistance (reg : Registry) (root : List Rule) (name : String) (d : ℕ) : Prop :=
  IsLeast {n | ReachesIn reg root n name} d

variable {reg : Registry} {root rules : List Rule} {taken : List String} {p : Pass} {k : ℕ}
  {x : Expanded}

theorem afterPasses_succ (h : afterPasses reg root k = .ok x)
    (hp : PassOk reg x.taken x.rules p) :
    afterPasses reg root (k + 1) = .ok ⟨x.taken ++ p.fresh, p.rules⟩ := by
  simp only [afterPasses, h, hp.eq_ok]

theorem exists_of_afterPasses_succ {y : Expanded} (h : afterPasses reg root (k + 1) = .ok y) :
    ∃ x p, afterPasses reg root k = .ok x ∧ PassOk reg x.taken x.rules p ∧
      y = ⟨x.taken ++ p.fresh, p.rules⟩ := by
  rw [afterPasses] at h
  rcases hx : afterPasses reg root k with e | x
  · rw [hx] at h
    cases h
  · rcases hp : pass reg x.taken x.rules with e | p
    · simp only [hx, hp] at h
      cases h
    · simp only [hx, hp] at h
      exact ⟨x, p, rfl, ok_of_pass hp, (Except.ok.inj h).symm⟩

/-- **After `k` passes** the names reached in at most `k` steps are taken in. -/
theorem layered_of_afterPasses (h : afterPasses reg root k = .ok x) :
    Layered reg root k x.taken x.rules := by
  induction k generalizing x with
  | zero =>
    obtain rfl := Except.ok.inj h
    exact .start reg root
  | succ k ih =>
    obtain ⟨y, p, hy, hp, rfl⟩ := exists_of_afterPasses_succ h
    exact (ih hy).step hp

/-- **How far the passes get**: to the distance at which a name is missing. -/
theorem afterPasses_isOk_iff : (∃ x, afterPasses reg root k = .ok x) ↔
    ∀ n ≤ k, ∀ name, ReachesIn reg root n name → name ∈ reg.names := by
  constructor
  · rintro ⟨x, hx⟩ n hn name hreach
    have hlayer := layered_of_afterPasses hx
    exact hlayer.mem_names name ((hlayer.mem_taken name).mpr ⟨n, hn, hreach⟩)
  · intro h
    induction k with
    | zero => exact ⟨_, rfl⟩
    | succ k ih =>
      obtain ⟨x, hx⟩ := ih fun n hn => h n (by omega)
      rcases hp : pass reg x.taken x.rules with e | p
      · obtain ⟨u, r, v, q, hrules, -, hr, -, hnot, -⟩ := pass_error hp
        have htarget : r.target ∈ targets x.rules :=
          mem_targets.mpr ⟨r, by rw [hrules]; simp, hr, rfl⟩
        have hreach := (layered_of_afterPasses hx).sound _ htarget
        exact absurd (h (k + 1) (Nat.le_refl _) _ hreach) hnot
      · exact ⟨_, afterPasses_succ hx (ok_of_pass hp)⟩

/-- **What a pass takes in** lies one step farther away than the passes before it got. -/
theorem Layered.atDistance (h : Layered reg root k taken rules) (hp : PassOk reg taken rules p)
    {name : String} (hname : name ∈ p.fresh) : AtDistance reg root name (k + 1) := by
  obtain ⟨htarget, hnot⟩ := hp.mem_fresh_iff.mp hname
  refine ⟨h.sound name htarget, fun n hn => ?_⟩
  by_contra hlt
  exact hnot ((h.mem_taken name).mpr ⟨n, by omega, hn⟩)

/-! ### Counting the passes -/

theorem passCount_of_error {e : MissingList} (h : pass reg taken rules = .error e) :
    passCount reg taken rules = 1 := by
  rw [passCount]
  split
  · rfl
  · next h' => rw [h] at h'; cases h'

theorem passCount_of_last {out : List Rule} (h : PassOk reg taken rules ⟨[], out⟩) :
    passCount reg taken rules = 1 := by
  rw [passCount]
  split
  · rfl
  · next h' =>
    rw [h.eq_ok] at h'
    obtain rfl := Except.ok.inj h'
    rfl

theorem PassOk.passCount_eq (h : PassOk reg taken rules p) (hf : p.fresh ≠ []) :
    passCount reg taken rules = passCount reg (taken ++ p.fresh) p.rules + 1 := by
  rw [passCount]
  split
  · next h' => rw [h.eq_ok] at h'; cases h'
  · next h' =>
    rw [h.eq_ok] at h'
    obtain rfl := Except.ok.inj h'
    split
    · next hn => exact absurd hn hf
    · next hn => rw [hn]

/-- **An expansion before pass `k + 1`**: each of the passes before it took something in. -/
structure Running (reg : Registry) (root : List Rule) (k : ℕ) (taken : List String)
    (rules : List Rule) : Prop where
  after : afterPasses reg root k = .ok ⟨taken, rules⟩
  count : passCount reg [] root = passCount reg taken rules + k
  le_length : k ≤ taken.length
  progress : ∀ j < k, ∃ x p, afterPasses reg root j = .ok x ∧ PassOk reg x.taken x.rules p ∧
    p.fresh ≠ []

theorem Running.start (reg : Registry) (root : List Rule) : Running reg root 0 [] root where
  after := rfl
  count := rfl
  le_length := Nat.le_refl 0
  progress j hj := absurd hj (Nat.not_lt_zero j)

theorem Running.step (h : Running reg root k taken rules) (hp : PassOk reg taken rules p)
    (hf : p.fresh ≠ []) : Running reg root (k + 1) (taken ++ p.fresh) p.rules where
  after := afterPasses_succ h.after hp
  count := by
    rw [h.count, hp.passCount_eq hf]
    omega
  le_length := by
    have hfresh := List.length_pos_iff.mpr hf
    have htaken := h.le_length
    rw [List.length_append]
    omega
  progress j hj := by
    rcases Nat.lt_succ_iff_lt_or_eq.mp hj with hj | rfl
    · exact h.progress j hj
    · exact ⟨_, p, h.after, hp, hf⟩

theorem Running.le_size (h : Running reg root k taken rules) : k ≤ reg.size := by
  have hlayer : Layered reg root k taken rules := layered_of_afterPasses h.after
  have hlength := (List.subperm_of_subset hlayer.nodup hlayer.mem_names).length_le
  rw [Registry.names, List.length_map] at hlength
  exact Nat.le_trans h.le_length hlength

/-- Before a pass that is not the first one, the distance of the farthest name is the number of the
passes made. -/
theorem Running.isGreatest (h : Running reg root (k + 1) taken rules) :
    IsGreatest {d | ∃ name ∈ taken, AtDistance reg root name d} (k + 1) := by
  have hlayer : Layered reg root (k + 1) taken rules := layered_of_afterPasses h.after
  constructor
  · obtain ⟨x, p, hx, hp, hf⟩ := h.progress k (Nat.lt_succ_self k)
    obtain ⟨name, hname⟩ := List.exists_mem_of_ne_nil _ hf
    have hdistance := (layered_of_afterPasses hx).atDistance hp hname
    exact ⟨name, (hlayer.mem_taken name).mpr ⟨k + 1, Nat.le_refl _, hdistance.1⟩, hdistance⟩
  · rintro d ⟨name, hname, hdistance⟩
    obtain ⟨n, hn, hreach⟩ := (hlayer.mem_taken name).mp hname
    exact Nat.le_trans (hdistance.2 hreach) hn

end Expansion

open Expansion

namespace RuleList

variable {root : RuleList} {reg : Registry}

/-- An expansion runs to its last pass, which takes nothing in or fails. -/
theorem exists_running (root : RuleList) (reg : Registry) : ∃ m taken rules,
    Running reg root.rules m taken rules ∧ passCount reg taken rules = 1 ∧
      ((∃ out, pass reg taken rules = .ok ⟨[], out⟩ ∧
          root.resolve reg = .ok ⟨root.name, taken, out⟩) ∨
        ∃ e, pass reg taken rules = .error e ∧ root.resolve reg = .error e) := by
  obtain ⟨m, taken, rules, hrun, hend⟩ :=
    passes_run (fun h hp hf => Running.step h hp hf) (Running.start reg root.rules)
  refine ⟨m, taken, rules, hrun, ?_⟩
  rcases hend with ⟨out, hlast, hpasses⟩ | ⟨e, hfail, hpasses⟩
  · exact ⟨passCount_of_last hlast, Or.inl ⟨out, hlast.eq_ok, resolve_of_ok hpasses⟩⟩
  · exact ⟨passCount_of_error hfail, Or.inr ⟨e, hfail, resolve_of_error hpasses⟩⟩

/-- **Layers and termination.** As long as no missing name is reached, the names taken in after `k`
passes are those that the root reaches in at least one and at most `k` steps. Each of the passes but
the last takes in a name of the registry that was not taken in before, and the last one takes
nothing in or fails, so there is at most one pass more than there are lists. If the expansion ends
well, the number of passes is one more than the greatest distance of a name taken in, or one if
there is no such name. -/
theorem resolve_layers (root : RuleList) (reg : Registry) :
    (∀ k, (∃ x, afterPasses reg root.rules k = .ok x) ↔
      ∀ n ≤ k, ∀ name, ReachesIn reg root.rules n name → name ∈ reg.names) ∧
    (∀ k x, afterPasses reg root.rules k = .ok x → x.taken.Nodup ∧
      ∀ name, name ∈ x.taken ↔ ∃ n, 1 ≤ n ∧ n ≤ k ∧ ReachesIn reg root.rules n name) ∧
    (∃ m, passCount reg [] root.rules = m + 1 ∧ m ≤ reg.size ∧
      (∀ k < m, ∃ x p, afterPasses reg root.rules k = .ok x ∧
        pass reg x.taken x.rules = .ok p ∧ ∃ name ∈ p.fresh, name ∈ reg.names ∧ name ∉ x.taken) ∧
      ∃ x, afterPasses reg root.rules m = .ok x ∧
        ((∃ out, pass reg x.taken x.rules = .ok ⟨[], out⟩ ∧
            root.resolve reg = .ok ⟨root.name, x.taken, out⟩) ∨
          ∃ e, pass reg x.taken x.rules = .error e ∧ root.resolve reg = .error e)) ∧
    ∀ x, root.resolve reg = .ok x →
      (x.taken = [] ∧ passCount reg [] root.rules = 1) ∨
      ∃ d, IsGreatest {d | ∃ name ∈ x.taken, AtDistance reg root.rules name d} d ∧
        passCount reg [] root.rules = d + 1 := by
  obtain ⟨m, taken, rules, hrun, hone, hend⟩ := exists_running root reg
  have hcount : passCount reg [] root.rules = m + 1 := by
    rw [hrun.count, hone]
    omega
  refine ⟨fun k => afterPasses_isOk_iff, fun k x hx => ?_, ⟨m, hcount, hrun.le_size,
    fun k hk => ?_, ⟨taken, rules⟩, hrun.after, hend⟩, fun x hx => ?_⟩
  · have hlayer := layered_of_afterPasses hx
    refine ⟨hlayer.nodup, fun name => (hlayer.mem_taken name).trans ⟨?_, ?_⟩⟩
    · rintro ⟨n, hn, hreach⟩
      exact ⟨n, hreach.pos, hn, hreach⟩
    · rintro ⟨n, -, hn, hreach⟩
      exact ⟨n, hn, hreach⟩
  · obtain ⟨x, p, hx, hp, hf⟩ := hrun.progress k hk
    obtain ⟨name, hname⟩ := List.exists_mem_of_ne_nil _ hf
    exact ⟨x, p, hx, hp.eq_ok, name, hname, mem_fresh hp.eq_ok hname⟩
  · rcases hend with ⟨out, -, hresolve⟩ | ⟨e, -, hresolve⟩
    · obtain rfl := Except.ok.inj (hresolve.symm.trans hx)
      rcases m with _ | m
      · obtain ⟨rfl, rfl⟩ := Expanded.mk.inj (Except.ok.inj hrun.after)
        exact Or.inl ⟨rfl, hcount⟩
      · exact Or.inr ⟨m + 1, hrun.isGreatest, hcount⟩
    · cases hresolve.symm.trans hx

/-- A cycle of two lists takes as many passes as two lists can take. -/
theorem resolve_layers_cycle :
    afterPasses .cycle cycleRoot.rules 1 = .ok ⟨["B"], [⟨.inclusion, "a", []⟩,
      ⟨.inclusion, "b", []⟩, ⟨.full, "z", []⟩, ⟨.domain, "r", []⟩]⟩ ∧
    (∀ name, name ∈ ["B"] ↔ ∃ n, 1 ≤ n ∧ n ≤ 1 ∧ ReachesIn .cycle cycleRoot.rules n name) ∧
    passCount .cycle [] cycleRoot.rules = Registry.cycle.size + 1 ∧
    IsGreatest {d | ∃ name ∈ ["B", "A"], AtDistance .cycle cycleRoot.rules name d} 2 := by
  obtain ⟨-, hlayers, ⟨m, hcount, hm, -⟩, hfarthest⟩ := resolve_layers cycleRoot .cycle
  have hfirst : afterPasses .cycle cycleRoot.rules 1 = .ok ⟨["B"], [⟨.inclusion, "a", []⟩,
      ⟨.inclusion, "b", []⟩, ⟨.full, "z", []⟩, ⟨.domain, "r", []⟩]⟩ := rfl
  have hB : ReachesIn .cycle cycleRoot.rules 1 "B" := .own (by decide)
  have hA : AtDistance .cycle cycleRoot.rules "A" 2 := by
    refine ⟨.next hB rfl (by decide), fun n hn => ?_⟩
    by_contra hlt
    have hmem := ((hlayers 1 _ hfirst).2 "A").mpr ⟨n, hn.pos, by omega, hn⟩
    exact absurd hmem (by decide)
  have hsize : Registry.cycle.size = 2 := rfl
  rcases hfarthest _ resolve_cycleRoot with ⟨hnil, -⟩ | ⟨d, hd, hpasses⟩
  · cases hnil
  · have hle : 2 ≤ d := hd.2 ⟨"A", by decide, hA⟩
    obtain rfl : d = 2 := by omega
    exact ⟨hfirst, (hlayers 1 _ hfirst).2, hpasses, hd⟩

end RuleList

end GeoRules
