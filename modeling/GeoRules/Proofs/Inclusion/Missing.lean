import GeoRules.Proofs.Inclusion.Placement
import Mathlib.Order.Bounds.Defs

/-! # The missing list that is reported

An expansion that fails names a list that is missing at the least distance from the root: a pass
fails before any list at a greater distance is looked for, and all names at lesser distances were
taken in. Among the missing names of that distance it is the one whose inclusion comes first in the
sequence in which all nearer lists stand in their places (`resolve_error_nearest`).

This sequence is the view of a body in which lists hang above one layer, each at the first inclusion
of its name (`Body.Nearer`). There is one such body only (`Nearer.unique`): every layer is made of
what hangs in the layer above (`map_rule_layer_succ`), and where something hangs in it follows from
the names in it and above. -/

namespace GeoRules

open Expansion

namespace Body

variable {reg : Registry} {root : List Rule} {k : ℕ}

/-! ### From one layer to the next -/

theorem map_rule_layer_zero : ∀ t : Body, t.Hangs reg →
    (t.layer 0).map Occurrence.rule = t.rules.filter Rule.isInclusion
  | nil, _ => rfl
  | leaf r rest, h => by
    have ih := map_rule_layer_zero rest h
    rcases hr : r.isInclusion
    · rw [layer_leaf hr, rules, List.filter_cons_of_neg (by simp [hr]), ih]
    · rw [layer_leaf_inclusion hr, rules, List.filter_cons_of_pos hr, List.map_cons, ih]
  | hang r block rest, ⟨hr, _, _, hrest⟩ => by
    rw [layer, rules, List.filter_cons_of_pos hr, List.map_cons, map_rule_layer_zero rest hrest]

/-- The inclusions of the list that hangs at an inclusion. -/
def inclusionsAt (reg : Registry) (o : Occurrence) : List Rule :=
  if o.hangs then (reg.rulesOf o.target).filter Rule.isInclusion else []

/-- **A layer is made of what hangs in the layer above.** -/
theorem map_rule_layer_succ : ∀ (t : Body) (d : ℕ), t.Hangs reg →
    (t.layer (d + 1)).map Occurrence.rule = (t.layer d).flatMap (inclusionsAt reg)
  | nil, d, _ => by cases d <;> rfl
  | leaf r rest, 0, h => by
    have ih := map_rule_layer_succ rest 0 h
    rcases hr : r.isInclusion
    · rw [layer_leaf hr, layer_leaf hr, ih]
    · rw [layer_leaf_inclusion hr, layer, ih]
      rfl
  | leaf r rest, d + 1, h => map_rule_layer_succ rest (d + 1) h
  | hang r block rest, 0, ⟨_, ⟨l, hl, hblock⟩, hhangs, hrest⟩ => by
    have hinclusions : inclusionsAt reg ⟨r, true⟩ = block.rules.filter Rule.isInclusion := by
      rw [hblock, ← Registry.rulesOf_eq hl]
      rfl
    rw [layer, layer, List.map_append, List.flatMap_cons, hinclusions,
      map_rule_layer_zero block hhangs, map_rule_layer_succ rest 0 hrest]
  | hang r block rest, d + 1, ⟨_, _, hblock, hrest⟩ => by
    rw [layer, layer, List.map_append, List.flatMap_append, map_rule_layer_succ block d hblock,
      map_rule_layer_succ rest (d + 1) hrest]

variable {t t' : Body}

/-- Bodies over the same rules that agree above a layer have the same inclusions in that layer. -/
theorem map_rule_layer_congr (hh : t.Hangs reg) (hh' : t'.Hangs reg) (hrules : t.rules = t'.rules)
    {d : ℕ} (h : ∀ e < d, t.layer e = t'.layer e) :
    (t.layer d).map Occurrence.rule = (t'.layer d).map Occurrence.rule := by
  rcases d with _ | d
  · rw [map_rule_layer_zero t hh, map_rule_layer_zero t' hh', hrules]
  · rw [map_rule_layer_succ t d hh, map_rule_layer_succ t' d hh', h d (Nat.lt_succ_self d)]

/-- Whether something hangs at a rule shows in the first layer. -/
theorem layer_leaf_ne_hang {r : Rule} (hr : r.isInclusion) (rest block rest' : Body) :
    (leaf r rest).layer 0 ≠ (hang r block rest').layer 0 := by
  rw [layer_leaf_inclusion hr, layer]
  intro h
  cases (List.cons.inj h).1

/-- The layers of two bodies come apart where something hangs, for what hangs has as many inclusions
on both sides. -/
theorem layers_of_hang {r r' : Rule} {block block' rest rest' : Body} (hh : block.Hangs reg)
    (hh' : block'.Hangs reg) (hrules : block.rules = block'.rules)
    (h : ∀ d < k, (hang r block rest).layer (d + 1) = (hang r' block' rest').layer (d + 1)) :
    ∀ d < k, block.layer d = block'.layer d ∧ rest.layer (d + 1) = rest'.layer (d + 1) := by
  intro d hd
  induction d using Nat.strongRecOn with
  | ind d ih =>
    have hsame := map_rule_layer_congr hh hh' hrules fun e he => (ih e he (by omega)).1
    have hlength : (block.layer d).length = (block'.layer d).length := by
      simpa only [List.length_map] using congrArg List.length hsame
    exact List.append_inj (h d hd) hlength

/-- **A shallow body is known by its layers**, for lists of the registry hang in it. -/
theorem eq_of_layers : ∀ (t : Body) {t' : Body} {k : ℕ}, t.Hangs reg → t'.Hangs reg →
    t.Shallow k → t'.Shallow k → t.rules = t'.rules → (∀ d < k, t.layer d = t'.layer d) → t = t'
  | nil, nil, _, _, _, _, _, _, _ => rfl
  | nil, leaf .., _, _, _, _, _, hrules, _ => by cases hrules
  | nil, hang .., _, _, _, _, _, hrules, _ => by cases hrules
  | leaf .., nil, _, _, _, _, _, hrules, _ => by cases hrules
  | hang .., nil, _, _, _, _, _, hrules, _ => by cases hrules
  | leaf r rest, leaf r' rest', k, hh, hh', hs, hs', hrules, h => by
    obtain ⟨rfl, hrest⟩ := List.cons.inj hrules
    have hlayers : ∀ d < k, rest.layer d = rest'.layer d := fun d hd => by
      have hd := h d hd
      rcases hr : r.isInclusion
      · rwa [layer_leaf hr, layer_leaf hr] at hd
      · rcases d with _ | d
        · rw [layer_leaf_inclusion hr, layer_leaf_inclusion hr] at hd
          exact (List.cons.inj hd).2
        · exact hd
    have hh : rest.Hangs reg := hh
    have hh' : rest'.Hangs reg := hh'
    have hs : rest.Shallow k := by cases k <;> exact hs
    have hs' : rest'.Shallow k := by cases k <;> exact hs'
    rw [eq_of_layers rest hh hh' hs hs' hrest hlayers]
  | leaf r rest, hang r' block' rest', k + 1, hh, ⟨hr', _⟩, hs, hs', hrules, h => by
    obtain ⟨rfl, -⟩ := List.cons.inj hrules
    exact absurd (h 0 k.succ_pos) (layer_leaf_ne_hang hr' _ _ _)
  | hang r block rest, leaf r' rest', k + 1, ⟨hr, _⟩, hh', hs, hs', hrules, h => by
    obtain ⟨rfl, -⟩ := List.cons.inj hrules
    exact absurd (h 0 k.succ_pos).symm (layer_leaf_ne_hang hr _ _ _)
  | hang r block rest, hang r' block' rest', k + 1, ⟨_, ⟨l, hl, hbl⟩, hhb, hhr⟩,
      ⟨_, ⟨l', hl', hbl'⟩, hhb', hhr'⟩, ⟨hsb, hsr⟩, ⟨hsb', hsr'⟩, hrules, h => by
    obtain ⟨rfl, hrest⟩ := List.cons.inj hrules
    obtain rfl : l = l' := Option.some.inj (hl.symm.trans hl')
    have hblock : block.rules = block'.rules := hbl.trans hbl'.symm
    have hpieces := layers_of_hang hhb hhb' hblock fun d hd => h (d + 1) (Nat.succ_lt_succ hd)
    have hlayers : ∀ d < k + 1, rest.layer d = rest'.layer d := fun d hd => by
      rcases d with _ | d
      · exact (List.cons.inj (h 0 hd)).2
      · exact (hpieces d (by omega)).2
    rw [eq_of_layers block hhb hhb' hsb hsb' hblock fun d hd => (hpieces d hd).1,
      eq_of_layers rest hhr hhr' hsr hsr' hrest hlayers]

/-! ### The body of the nearer lists -/

/-- **The lists nearer than layer `k` hang in the body**, each at the first inclusion of its name by
layer and then from left to right, and no others do. -/
structure Nearer (reg : Registry) (root : List Rule) (k : ℕ) (t : Body) : Prop where
  rules_eq : t.rules = root
  hangs : t.Hangs reg
  shallow : t.Shallow k
  hangs_iff : ∀ d < k, ∀ i o, t.At d i o → (o.hangs = true ↔
    ∀ d' i' o', t.At d' i' o' → o'.target = o.target → d < d' ∨ d = d' ∧ i ≤ i')

/-- In terms of the names: where something hangs depends on the names of the inclusions only. -/
theorem Nearer.hangs_iff_not_mem (h : Nearer reg root k t) {d i : ℕ} {o : Occurrence} (hd : d < k)
    (ho : t.At d i o) : o.hangs = true ↔
      (∀ e < d, o.target ∉ (t.layer e).map Occurrence.target) ∧
        o.target ∉ ((t.layer d).map Occurrence.target).take i := by
  rw [h.hangs_iff d hd i o ho, ← first_iff, ← List.map_take, List.mem_map]
  simp only [not_exists, not_and, ne_eq]

theorem Nearer.layer_eq (h : Nearer reg root k t) (h' : Nearer reg root k t') {d : ℕ}
    (hd : d < k) : t.layer d = t'.layer d := by
  -- the inclusions of a layer come from the layer above, and their names say where something hangs
  induction d using Nat.strongRecOn with
  | ind d ih =>
    have habove : ∀ e < d, t.layer e = t'.layer e := fun e he => ih e he (by omega)
    have hrule : (t.layer d).map Occurrence.rule = (t'.layer d).map Occurrence.rule :=
      map_rule_layer_congr h.hangs h'.hangs (h.rules_eq.trans h'.rules_eq.symm) habove
    have htarget : (t.layer d).map Occurrence.target = (t'.layer d).map Occurrence.target := by
      have h : Occurrence.target = Rule.target ∘ Occurrence.rule := rfl
      rw [h, ← List.map_map, ← List.map_map, hrule]
    refine List.ext_getElem (by simpa using congrArg List.length hrule) fun i hi hi' => ?_
    have hat : t.At d i (t.layer d)[i] := List.getElem?_eq_getElem hi
    have hat' : t'.At d i (t'.layer d)[i] := List.getElem?_eq_getElem hi'
    have hsame : (t.layer d)[i].rule = (t'.layer d)[i].rule := by
      have hget := List.getElem_of_eq hrule (by simpa using hi)
      rwa [List.getElem_map, List.getElem_map] at hget
    generalize (t.layer d)[i] = o at hat hsame ⊢
    generalize (t'.layer d)[i] = o' at hat' hsame ⊢
    have hflag : o.hangs = true ↔ o'.hangs = true := by
      rw [h.hangs_iff_not_mem hd hat, h'.hangs_iff_not_mem hd hat', htarget, Occurrence.target,
        Occurrence.target, hsame]
      exact and_congr_left' (forall₂_congr fun e he => by rw [habove e he])
    cases o; cases o'
    exact (Occurrence.mk.injEq ..).mpr ⟨hsame, Bool.eq_iff_iff.mpr hflag⟩

/-- **There is one such body only.** -/
theorem Nearer.unique (h : Nearer reg root k t) (h' : Nearer reg root k t') : t = t' :=
  eq_of_layers t h.hangs h'.hangs h.shallow h'.shallow (h.rules_eq.trans h'.rules_eq.symm)
    fun _ => h.layer_eq h'

end Body

theorem Grown.nearer {reg : Registry} {root rules : List Rule} {k : ℕ} {taken : List String}
    {t : Body} (h : Grown reg root k taken rules t) : t.Nearer reg root k where
  rules_eq := h.rules_eq
  hangs := h.hangs
  shallow := h.shallow
  hangs_iff d hd i o ho := (h.hangs_iff d hd i o ho).trans t.first_iff

/-! ### The failing pass -/

/-- The inclusion stands for a list that is missing. -/
def Rule.Dangles (reg : Registry) (r : Rule) : Prop :=
  r.isInclusion ∧ r.target ∉ reg.names

instance (reg : Registry) : DecidablePred (Rule.Dangles reg) :=
  fun r => inferInstanceAs (Decidable (r.isInclusion = true ∧ r.target ∉ reg.names))

namespace Expansion

variable {reg : Registry} {root rules : List Rule} {taken : List String} {p : Pass} {k : ℕ}

/-- The rule stands in the root or in a list that the root reaches. -/
def Stands (reg : Registry) (root : List Rule) (r : Rule) : Prop :=
  r ∈ root ∨ ∃ name l, Reaches reg root name ∧ reg.get? name = some l ∧ r ∈ l.rules

/-- **Before a pass**: the layer it is at, the body that stands behind the rules, and where the
rules come from. -/
structure Before (reg : Registry) (root : List Rule) (k : ℕ) (taken : List String)
    (rules : List Rule) : Prop where
  layered : Layered reg root k taken rules
  grown : ∃ t, Grown reg root k taken rules t
  stands : ∀ r ∈ rules, Stands reg root r

theorem Before.start (reg : Registry) (root : List Rule) : Before reg root 0 [] root :=
  ⟨.start reg root, ⟨_, .start reg root⟩, fun _ => Or.inl⟩

theorem Before.step (h : Before reg root k taken rules) (hp : PassOk reg taken rules p) :
    Before reg root (k + 1) (taken ++ p.fresh) p.rules where
  layered := h.layered.step hp
  grown := by
    obtain ⟨t, ht⟩ := h.grown
    exact ht.step hp
  stands r hr := by
    rcases hp.mem_rules_iff.mp hr with ⟨hr, -⟩ | ⟨name, hname, l, hl, hr⟩
    · exact h.stands r hr
    · have ht := h.layered.sound name (hp.mem_fresh_iff.mp hname).1
      exact Or.inr ⟨name, l, reaches_iff.mpr ⟨_, ht⟩, hl, hr⟩

/-- A pass goes over no inclusion of a list that is missing. -/
theorem PassOk.not_dangles (hp : PassOk reg taken rules p) (ht : ∀ name ∈ taken, name ∈ reg.names)
    {r : Rule} (hr : r ∈ rules) : ¬ r.Dangles reg := by
  rintro ⟨hi, hn⟩
  by_cases hm : r.target ∈ taken
  · exact hn (ht _ hm)
  · exact hn (hp.mem_names (hp.mem_fresh_iff.mpr ⟨mem_targets.mpr ⟨r, hr, hi, rfl⟩, hm⟩))

/-- **A pass that fails names the first inclusion of a list that is missing.** -/
theorem find?_of_pass_error (ht : ∀ name ∈ taken, name ∈ reg.names) {e : MissingList}
    (h : pass reg taken rules = .error e) :
    ∃ r ∈ rules, r.Dangles reg ∧ rules.find? (fun r => r.Dangles reg) = some r ∧
      r.value = e.value := by
  obtain ⟨u, r, v, q, rfl, hu, hr, -, hn, rfl⟩ := pass_error h
  refine ⟨r, by simp, ⟨hr, hn⟩,
    List.find?_eq_some_iff_append.mpr ⟨decide_eq_true ⟨hr, hn⟩, u, v, rfl, ?_⟩, rfl⟩
  intro s hs
  simpa using hu.not_dangles ht hs

/-- Names at lesser distances are taken in, so none of them is missing. -/
theorem Layered.lt_of_not_mem (h : Layered reg root k taken rules) {name : String} {n : ℕ}
    (hn : name ∉ reg.names) (hr : ReachesIn reg root n name) : k + 1 ≤ n := by
  by_contra hlt
  exact hn (h.mem_names name ((h.mem_taken name).mpr ⟨n, by omega, hr⟩))

/-- The missing names of the next distance are those that the rules stand for. -/
theorem Layered.mem_targets_iff (h : Layered reg root k taken rules) {name : String}
    (hn : name ∉ reg.names) : name ∈ targets rules ↔ ReachesIn reg root (k + 1) name :=
  ⟨h.sound name, fun hr => (h.complete name hr).resolve_left fun ht => hn (h.mem_names name ht)⟩

end Expansion

/-! ### The report -/

namespace RuleList

/-- **Which missing list is reported.** An expansion that fails reports the value of an inclusion
that stands in the root or in a list that the root reaches. The list of that name is missing, and
among the missing lists that the root reaches none has a lesser distance. In the one body in which
the nearer lists hang, and nothing else, the missing lists of this distance are those that the
inclusions left in its view stand for, and the first of these inclusions is the one reported. -/
theorem resolve_error_nearest {root : RuleList} {reg : Registry} {e : MissingList}
    (he : root.resolve reg = .error e) :
    Text.uppercase e.value ∉ reg.names ∧
    ∃ k, IsLeast {n | ReachesIn reg root.rules n (Text.uppercase e.value)} (k + 1) ∧
      (∀ name ∉ reg.names, ∀ n, ReachesIn reg root.rules n name → k + 1 ≤ n) ∧
      ∃ t : Body, t.Nearer reg root.rules k ∧ (∀ t' : Body, t'.Nearer reg root.rules k → t' = t) ∧
        (∀ name ∉ reg.names,
          (name ∈ targets (t.view k) ↔ ReachesIn reg root.rules (k + 1) name)) ∧
        ∃ r, (t.view k).find? (fun r => r.Dangles reg) = some r ∧ Stands reg root.rules r ∧
          r.value = e.value := by
  obtain ⟨k, taken, rules, h, hp⟩ :=
    resolve_run_error _ (fun h hp _ => Before.step h hp) (Before.start reg root.rules) he
  obtain ⟨t, ht⟩ := h.grown
  obtain ⟨r, hmem, hdangles, hfind, hvalue⟩ := find?_of_pass_error h.layered.mem_names hp
  have htarget : r.target = Text.uppercase e.value := by rw [← hvalue, Rule.target]
  have hnot : Text.uppercase e.value ∉ reg.names := htarget ▸ hdangles.2
  have hreach : ReachesIn reg root.rules (k + 1) (Text.uppercase e.value) :=
    h.layered.sound _ (htarget ▸ mem_targets.mpr ⟨r, hmem, hdangles.1, rfl⟩)
  refine ⟨hnot, k, ⟨hreach, fun n hn => h.layered.lt_of_not_mem hnot hn⟩,
    fun name hn n => h.layered.lt_of_not_mem hn, t, ht.nearer, fun t' ht' => ht'.unique ht.nearer,
    fun name hn => ?_, r, ?_, h.stands r hmem, hvalue⟩
  · rw [ht.view]
    exact h.layered.mem_targets_iff hn
  · rw [ht.view]
    exact hfind

end RuleList

/-! ### Missing lists at two distances -/

/-- Three missing lists, of which the one that a depth-first search would meet first has the
greatest distance from `RuleList.brokenRoot`. -/
def Registry.broken : Registry := .ofList
  [⟨"A", .site, [⟨.inclusion, "c", []⟩]⟩, ⟨"B", .site, [⟨.inclusion, "Lost", []⟩,
    ⟨.inclusion, "none", []⟩]⟩, ⟨"C", .site, [⟨.inclusion, "gone", []⟩]⟩]

/-- A list that reaches all lists of `Registry.broken`. -/
def RuleList.brokenRoot : RuleList := ⟨"R", .site, [⟨.inclusion, "a", []⟩, ⟨.inclusion, "b", []⟩]⟩

theorem RuleList.resolve_brokenRoot : brokenRoot.resolve .broken = .error ⟨"Lost"⟩ := by
  have h1 : pass .broken [] brokenRoot.rules = .ok ⟨["A", "B"],
      [⟨.inclusion, "c", []⟩, ⟨.inclusion, "Lost", []⟩, ⟨.inclusion, "none", []⟩]⟩ := rfl
  have h2 : pass .broken ["A", "B"] [⟨.inclusion, "c", []⟩, ⟨.inclusion, "Lost", []⟩,
      ⟨.inclusion, "none", []⟩] = .error ⟨"Lost"⟩ := rfl
  refine resolve_of_error ?_
  rw [(ok_of_pass h1).passes_eq (List.cons_ne_nil _ _)]
  exact passes_of_error h2

/-- The list that is reported has distance two, and no missing list is nearer, whatever stands
before it. -/
theorem RuleList.resolve_error_nearest_broken :
    brokenRoot.resolve .broken = .error ⟨"Lost"⟩ ∧
    IsLeast {n | ReachesIn .broken brokenRoot.rules n "LOST"} 2 ∧
    (∀ name ∉ Registry.broken.names, ∀ n, ReachesIn .broken brokenRoot.rules n name → 2 ≤ n) ∧
    ∃ t : Body, t.Nearer .broken brokenRoot.rules 1 ∧
      ∃ r, (t.view 1).find? (fun r => r.Dangles .broken) = some r ∧ r.value = "Lost" := by
  obtain ⟨-, k, hleast, hnear, t, ht, -, -, r, hfind, -, hr⟩ :=
    resolve_error_nearest resolve_brokenRoot
  have hupper : Text.uppercase "Lost" = "LOST" := rfl
  rw [hupper] at hleast
  have hB : ReachesIn .broken brokenRoot.rules 1 "B" := .own (by decide)
  have hle : k + 1 ≤ 2 := hleast.2 (ReachesIn.next hB (by rfl) (by decide))
  -- the root itself names lists that are there
  have hk : k ≠ 0 := by
    rintro rfl
    obtain h | ⟨h, -, -⟩ := hleast.1
    · exact absurd h (by decide)
    · exact absurd h.pos (by decide)
  obtain rfl : k = 1 := by omega
  exact ⟨resolve_brokenRoot, hleast, hnear, t, ht, r, hfind, hr⟩

end GeoRules
