import GeoRules.Build.Compilation
import GeoRules.Proofs.Inclusion.Reach

/-! # What an expansion depends on

A pass looks up the names of its inclusions and no others (`pass_congr`). In an expansion all of
these names are reached by the root. Two registries that have the same lists under the names that
the root reaches in one of them therefore expand it alike, pass for pass (`resolve_eq_of_agree`),
and whether an expansion succeeds or fails, the lists that its root does not reach have no part in
it. -/

namespace GeoRules

namespace Expansion

variable {reg reg' : Registry} {root rules : List Rule} {taken : List String}

/-- Both registries have the same list under every name that the rules reach in the first one, or
both have none. -/
def Agree (reg reg' : Registry) (rules : List Rule) : Prop :=
  ∀ name, Reaches reg rules name → reg'.get? name = reg.get? name

/-- A pass looks up the names of its inclusions only. -/
theorem pass_congr (h : ∀ name ∈ targets rules, reg'.get? name = reg.get? name) :
    pass reg' taken rules = pass reg taken rules := by
  induction rules generalizing taken with
  | nil => rfl
  | cons rule rules ih =>
    by_cases hr : rule.isInclusion
    · rw [targets_cons_inclusion hr, List.forall_mem_cons] at h
      rw [pass, pass, if_pos hr, if_pos hr, h.1, ih h.2, ih h.2]
    · have hplain : rule.isInclusion = false := by simpa using hr
      rw [targets_cons hplain] at h
      rw [pass, pass, if_neg hr, if_neg hr, ih h]

/-- The passes over `rules` are what is left of the passes over `root` in both registries, and all
inclusions in them are reached by the root. -/
structure Alike (reg reg' : Registry) (root : List Rule) (taken : List String) (rules : List Rule) :
    Prop where
  reached : ∀ name ∈ targets rules, Reaches reg root name
  left : passes reg [] root = passes reg taken rules
  right : passes reg' [] root = passes reg' taken rules

theorem Alike.start (reg reg' : Registry) (root : List Rule) : Alike reg reg' root [] root :=
  ⟨fun _ => .own, rfl, rfl⟩

theorem Alike.pass_eq (h : Alike reg reg' root taken rules) (hagree : Agree reg reg' root) :
    pass reg' taken rules = pass reg taken rules :=
  pass_congr fun name hname => hagree name (h.reached name hname)

theorem Alike.step {p : Pass} (h : Alike reg reg' root taken rules) (hagree : Agree reg reg' root)
    (hp : PassOk reg taken rules p) (hf : p.fresh ≠ []) :
    Alike reg reg' root (taken ++ p.fresh) p.rules where
  reached target ht := by
    obtain ⟨name, hfresh, l, hl, ht⟩ := hp.mem_targets_iff.mp ht
    have hname : Reaches reg root name := h.reached name (hp.mem_fresh_iff.mp hfresh).1
    exact .next hname hl ht
  left := h.left.trans (hp.passes_eq hf)
  right := by
    have hp' : PassOk reg' taken rules p := ok_of_pass ((h.pass_eq hagree).trans hp.eq_ok)
    exact h.right.trans (hp'.passes_eq hf)

/-- **Registries that agree on what the rules reach** expand them alike. -/
theorem passes_eq_of_agree (hagree : Agree reg reg' root) :
    passes reg' [] root = passes reg [] root := by
  obtain ⟨-, taken, rules, h, hend⟩ :=
    @passes_run reg [] root (fun _ => Alike reg reg' root)
      (fun h hp hf => h.step hagree hp hf) 0 (Alike.start reg reg' root)
  have hpass := h.pass_eq hagree
  rw [h.right]
  rcases hend with ⟨out, hlast, hrun⟩ | ⟨e, hfail, hrun⟩
  · rw [hrun]
    exact passes_of_last (ok_of_pass (hpass.trans hlast.eq_ok))
  · rw [hrun]
    exact passes_of_error (hpass.trans hfail)

end Expansion

open Expansion

namespace RuleList

variable {root : RuleList} {reg reg' : Registry}

theorem resolve_eq_of_agree (h : Agree reg reg' root.rules) :
    root.resolve reg' = root.resolve reg := by
  rw [resolve, resolve, passes_eq_of_agree h]

/-- What a list compiles to depends on the registry by its expansion only. -/
theorem compile_eq_of_agree (h : Agree reg reg' root.rules) :
    root.compile reg' = root.compile reg := by
  rw [compile, compile, resolve_eq_of_agree h]

/-- **Locality of expansion.** Two registries that agree on every name that the root reaches in one
of them give the same expansion of it, with the same names taken in and the same rules in order, or
the same missing list, and so the same message. Hence a list that the root does not reach may come
in, be replaced or go. -/
theorem resolve_local (root : RuleList) (reg : Registry) :
    (∀ reg' : Registry, (∀ name, Reaches reg root.rules name → reg'.get? name = reg.get? name) →
      root.resolve reg' = root.resolve reg ∧ root.compile reg' = root.compile reg) ∧
    (∀ l : RuleList, ¬ Reaches reg root.rules l.name →
      root.resolve (reg.insert l) = root.resolve reg ∧
        root.compile (reg.insert l) = root.compile reg) ∧
    ∀ name, ¬ Reaches reg root.rules name →
      root.resolve (reg.erase name) = root.resolve reg ∧
        root.compile (reg.erase name) = root.compile reg := by
  have hall : ∀ reg', Agree reg reg' root.rules →
      root.resolve reg' = root.resolve reg ∧ root.compile reg' = root.compile reg :=
    fun reg' h => ⟨resolve_eq_of_agree h, compile_eq_of_agree h⟩
  refine ⟨hall, fun l hl => hall _ fun name hname => ?_, fun name hn => hall _ fun other ho => ?_⟩
  · rw [Registry.get?_insert, if_neg]
    rintro rfl
    exact hl hname
  · refine Registry.get?_erase_of_ne ?_
    rintro rfl
    exact hn ho

end RuleList

/-- The cycle in another order, with a list between that includes one that is missing. -/
def Registry.cycleAndStray : Registry := .ofList
  [⟨"B", .site, [⟨.inclusion, "a", []⟩, ⟨.inclusion, "b", []⟩, ⟨.full, "z", []⟩]⟩,
    ⟨"C", .ip, [⟨.inclusion, "d", []⟩]⟩,
    ⟨"A", .site, [⟨.inclusion, "b", []⟩, ⟨.domain, "x", []⟩]⟩]

/-- The stray list changes nothing in the expansion of the cycle, nor does another one in its
place. -/
theorem RuleList.resolve_local_cycle :
    (∀ name, Reaches .cycle cycleRoot.rules name →
      Registry.cycleAndStray.get? name = Registry.cycle.get? name) ∧
    cycleRoot.resolve .cycleAndStray =
      .ok ⟨"A", ["B", "A"], [⟨.domain, "x", []⟩, ⟨.full, "z", []⟩, ⟨.domain, "r", []⟩]⟩ ∧
    ¬ Reaches .cycle cycleRoot.rules "C" ∧
    cycleRoot.compile (Registry.cycle.insert ⟨"C", .site, []⟩) = cycleRoot.compile .cycle ∧
    cycleRoot.compile (Registry.cycle.erase "C") = cycleRoot.compile .cycle := by
  have hreach : ∀ name, Reaches .cycle cycleRoot.rules name → name ∈ ["B", "A"] :=
    fun name => (mem_taken_iff resolve_cycleRoot).mpr
  have hagree : ∀ name ∈ ["B", "A"],
      Registry.cycleAndStray.get? name = Registry.cycle.get? name := by decide
  have hC : ¬ Reaches .cycle cycleRoot.rules "C" := fun h => absurd (hreach "C" h) (by decide)
  obtain ⟨hlocal, hinsert, herase⟩ := resolve_local cycleRoot .cycle
  have hboth : ∀ name, Reaches .cycle cycleRoot.rules name →
      Registry.cycleAndStray.get? name = Registry.cycle.get? name :=
    fun name hname => hagree name (hreach name hname)
  exact ⟨hboth, (hlocal _ hboth).1.trans resolve_cycleRoot, hC, (hinsert ⟨"C", .site, []⟩ hC).2,
    (herase "C" hC).2⟩

end GeoRules
