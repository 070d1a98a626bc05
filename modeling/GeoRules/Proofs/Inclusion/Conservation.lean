import GeoRules.Proofs.Inclusion.Reach
import Mathlib.Data.List.Flatten
import Mathlib.Data.List.Perm.Subperm

/-! # No rule is lost and none is doubled

The rules without inclusions of the root, and those of every list taken in, are spread over what is
already written and what still waits to be expanded (`Conserved`). A pass moves the rules of the
lists it takes in from the registry to the sequence and leaves the others where they are, so at the
end the sequence holds each of these bodies once (`perm_rules`). -/

namespace GeoRules.Expansion

/-- The rules are those of the root and of the lists taken in, inclusions apart. -/
def Conserved (reg : Registry) (root : List Rule) (taken : List String) (rules : List Rule) :
    Prop :=
  (plain rules).Perm (plain root ++ taken.flatMap fun name => plain (reg.rulesOf name))

variable {reg : Registry} {root rules : List Rule} {taken : List String} {p : Pass}

theorem PassOk.perm_plain (h : PassOk reg taken rules p) :
    (plain p.rules).Perm (plain rules ++ p.fresh.flatMap fun name => plain (reg.rulesOf name)) := by
  have := h.perm_rules.filter fun r => !r.isInclusion
  rwa [← plain, ← plain, plain_append, plain_plain, plain_flatMap] at this

theorem Conserved.step (h : Conserved reg root taken rules) (hp : PassOk reg taken rules p) :
    Conserved reg root (taken ++ p.fresh) p.rules := by
  unfold Conserved at h ⊢
  rw [List.flatMap_append, ← List.append_assoc]
  exact hp.perm_plain.trans (h.append_right _)

end GeoRules.Expansion

namespace GeoRules.RuleList

open Expansion

variable {root : RuleList} {reg : Registry} {x : ResolvedList}

/-- **An expansion holds the rules of its root and of the lists it takes in**, inclusions apart. -/
theorem perm_rules (hx : root.resolve reg = .ok x) : x.rules.Perm
    (plain root.rules ++ x.taken.flatMap fun name => plain (reg.rulesOf name)) := by
  have start : Conserved reg root.rules [] root.rules := by simp [Conserved]
  obtain ⟨-, k, rules, h, hp⟩ :=
    resolve_run (fun _ => Conserved reg root.rules) (fun h hp _ => h.step hp) start hx
  have hlast := hp.perm_rules
  rw [List.flatMap_nil, List.append_nil] at hlast
  exact hlast.trans h

/-- What one list that is taken in brings, apart from the rest. -/
theorem perm_rules_erase (hx : root.resolve reg = .ok x) {name : String} {l : RuleList}
    (hn : name ∈ x.taken) (hl : reg.get? name = some l) : x.rules.Perm
      (plain root.rules ++ plain l.rules ++
        (x.taken.erase name).flatMap fun other => plain (reg.rulesOf other)) := by
  have herase := (List.perm_cons_erase hn).flatMap_right fun other => plain (reg.rulesOf other)
  rw [List.flatMap_cons, Registry.rulesOf_eq hl] at herase
  rw [List.append_assoc]
  exact (perm_rules hx).trans (herase.append_left _)

/-- Distinct names of a registry stand for no more rules than it has. -/
theorem length_flatMap_plain_le {names : List String} (hnd : names.Nodup)
    (hsub : ∀ name ∈ names, name ∈ reg.names) :
    (names.flatMap fun name => plain (reg.rulesOf name)).length ≤
      (reg.lists.flatMap RuleList.rules).length := by
  obtain ⟨names', hperm, hs⟩ := List.subperm_of_subset hnd hsub
  calc (names.flatMap fun name => plain (reg.rulesOf name)).length
      = (plain (names.flatMap reg.rulesOf)).length := by rw [plain_flatMap]
    _ ≤ (names.flatMap reg.rulesOf).length := List.length_filter_le _ _
    _ = (names'.flatMap reg.rulesOf).length := (hperm.flatMap_right _).length_eq.symm
    _ ≤ (reg.names.flatMap reg.rulesOf).length := (hs.flatMap _).length_le
    _ = (reg.lists.flatMap RuleList.rules).length := by rw [reg.flatMap_rulesOf_names]

/-- **No rule is lost and none is doubled.** An expansion holds the rules of its root and, once for
each name taken in, the rules of the list of that name, inclusions apart; a list that is taken in,
be it the one of the root's own name, adds its rules once, whatever leads to it. Hence there are no
more rules than in the root and the registry together. -/
theorem resolve_conserves (hx : root.resolve reg = .ok x) :
    x.taken.Nodup ∧
    x.rules.Perm (plain root.rules ++ x.taken.flatMap fun name => plain (reg.rulesOf name)) ∧
    (∀ name ∈ x.taken, ∃ l, reg.get? name = some l ∧ name ∉ x.taken.erase name ∧
      x.rules.Perm (plain root.rules ++ plain l.rules ++
        (x.taken.erase name).flatMap fun other => plain (reg.rulesOf other))) ∧
    x.rules.length ≤ root.rules.length + (reg.lists.flatMap RuleList.rules).length := by
  refine ⟨nodup_taken hx, perm_rules hx, fun name hn => ?_, ?_⟩
  · obtain ⟨l, hl⟩ := Registry.mem_names_iff.mp (mem_names_of_mem_taken hx hn)
    exact ⟨l, hl, (nodup_taken hx).not_mem_erase, perm_rules_erase hx hn hl⟩
  · rw [(perm_rules hx).length_eq, List.length_append]
    exact Nat.add_le_add (List.length_filter_le _ _)
      (length_flatMap_plain_le (nodup_taken hx) fun name => mem_names_of_mem_taken hx)

/-- In the cycle the list of the root's own name adds its rules once to those of the root. -/
theorem resolve_conserves_cycle : cycleRoot.resolve .cycle =
      .ok ⟨"A", ["B", "A"], [⟨.domain, "x", []⟩, ⟨.full, "z", []⟩, ⟨.domain, "r", []⟩]⟩ ∧
    ["B", "A"].Nodup ∧
    ([⟨.domain, "x", []⟩, ⟨.full, "z", []⟩, ⟨.domain, "r", []⟩] : List Rule).Perm
      [⟨.domain, "r", []⟩, ⟨.full, "z", []⟩, ⟨.domain, "x", []⟩] := by
  obtain ⟨hnd, hperm, -, -⟩ := resolve_conserves resolve_cycleRoot
  exact ⟨resolve_cycleRoot, hnd, hperm⟩

end GeoRules.RuleList
