import GeoRules.Proofs.Inclusion.Body
import GeoRules.Proofs.Inclusion.Conservation

/-! # Where the lists come to stand

An expansion is the flattening of a body over its root in which every list that is taken in hangs at
one inclusion: of all inclusions of its name in the body, the one of the least layer and, among
those of that layer, the leftmost (`Placement`).

The passes build this body layer by layer (`Grown`). A pass reads the inclusions of one layer from
left to right and hangs a list at each whose name was not met before, as `mark` says; the layers
above it stay as they are (`grow`). -/

namespace GeoRules

open Expansion

/-! ### The inclusions of one layer -/

/-- The inclusions of a layer after a pass that starts with the names in `taken`: a list hangs at
those whose name was not met before. -/
def mark (taken : List String) : List Occurrence → List Occurrence
  | [] => []
  | o :: os =>
    if o.target ∈ taken then ⟨o.rule, false⟩ :: mark taken os
    else ⟨o.rule, true⟩ :: mark (o.target :: taken) os

section Mark
variable {taken taken' : List String} {o : Occurrence} {os : List Occurrence}

theorem mark_of_mem (h : o.target ∈ taken) :
    mark taken (o :: os) = ⟨o.rule, false⟩ :: mark taken os := by rw [mark, if_pos h]

theorem mark_of_not_mem (h : o.target ∉ taken) :
    mark taken (o :: os) = ⟨o.rule, true⟩ :: mark (o.target :: taken) os := by
  rw [mark, if_neg h]

theorem map_rule_mark (taken : List String) (os : List Occurrence) :
    (mark taken os).map Occurrence.rule = os.map Occurrence.rule := by
  induction os generalizing taken with
  | nil => rfl
  | cons o os ih =>
    rw [mark]
    split <;> rw [List.map_cons, List.map_cons, ih]

theorem map_target_mark (taken : List String) (os : List Occurrence) :
    (mark taken os).map Occurrence.target = os.map Occurrence.target := by
  have h : Occurrence.target = Rule.target ∘ Occurrence.rule := rfl
  rw [h, ← List.map_map, ← List.map_map, map_rule_mark]

theorem mark_congr (os : List Occurrence)
    (h : ∀ name, name ∈ taken ↔ name ∈ taken') : mark taken os = mark taken' os := by
  induction os generalizing taken taken' with
  | nil => rfl
  | cons o os ih =>
    have hcons : ∀ name, name ∈ o.target :: taken ↔ name ∈ o.target :: taken' := fun name => by
      rw [List.mem_cons, List.mem_cons, h]
    simp only [mark, h]
    rw [ih h, ih hcons]

theorem mark_append (os os' : List Occurrence)
    (h : ∀ name, name ∈ taken' ↔ name ∈ taken ∨ name ∈ os.map Occurrence.target) :
    mark taken (os ++ os') = mark taken os ++ mark taken' os' := by
  induction os generalizing taken with
  | nil => exact mark_congr os' fun name => by simp [h]
  | cons o os ih =>
    rw [List.cons_append]
    by_cases ht : o.target ∈ taken
    · rw [mark_of_mem ht, mark_of_mem ht, ih fun name => ?_]; rfl
      rw [h, List.map_cons, List.mem_cons]
      constructor
      · rintro (hn | rfl | hn)
        · exact Or.inl hn
        · exact Or.inl ht
        · exact Or.inr hn
      · rintro (hn | hn)
        · exact Or.inl hn
        · exact Or.inr (Or.inr hn)
    · rw [mark_of_not_mem ht, mark_of_not_mem ht, ih fun name => ?_]; rfl
      rw [h, List.map_cons, List.mem_cons, List.mem_cons, or_assoc, or_left_comm]

/-- **A list hangs at the inclusions whose name was not met before.** -/
theorem hangs_mark {i : ℕ} (ho : (mark taken os)[i]? = some o) : o.hangs = true ↔
    o.target ∉ taken ∧ ∀ o' ∈ (mark taken os).take i, o'.target ≠ o.target := by
  induction os generalizing taken i with
  | nil => simp [mark] at ho
  | cons s os ih =>
    by_cases ht : s.target ∈ taken
    · rw [mark_of_mem ht] at ho ⊢
      rcases i with _ | i
      · obtain rfl := Option.some.inj ho
        exact ⟨fun h => Bool.noConfusion h, fun h => absurd ht h.1⟩
      · rw [ih ho, List.take_succ_cons, List.forall_mem_cons]
        constructor
        · rintro ⟨hn, hi⟩; exact ⟨hn, fun he => hn (he ▸ ht), hi⟩
        · rintro ⟨hn, -, hi⟩; exact ⟨hn, hi⟩
    · rw [mark_of_not_mem ht] at ho ⊢
      rcases i with _ | i
      · obtain rfl := Option.some.inj ho
        exact ⟨fun _ => ⟨ht, by simp⟩, fun _ => rfl⟩
      · rw [ih ho, List.take_succ_cons, List.forall_mem_cons, List.mem_cons, not_or]
        constructor
        · rintro ⟨⟨hs, hn⟩, hi⟩; exact ⟨hn, Ne.symm hs, hi⟩
        · rintro ⟨hn, hs, hi⟩; exact ⟨⟨Ne.symm hs, hn⟩, hi⟩

end Mark

/-! ### One pass -/

namespace Body

/-- **The body `t'` comes from `t` by a pass over layer `k`** that leaves `rules`. -/
structure Grows (reg : Registry) (k : ℕ) (taken : List String) (t t' : Body) (out : List Rule) :
    Prop where
  rules : t'.rules = t.rules
  hangs : t'.Hangs reg
  shallow : t'.Shallow (k + 1)
  view : t'.view (k + 1) = out
  above : ∀ d < k, t'.layer d = t.layer d
  layer : t'.layer k = mark taken (t.layer k)

variable {reg : Registry} {k : ℕ} {taken taken' : List String} {t t' b b' : Body}
  {out out' : List Rule} {r : Rule} {l : RuleList}

theorem Grows.nil : Grows reg k taken nil nil [] where
  rules := rfl
  hangs := trivial
  shallow := trivial
  view := rfl
  above _ _ := rfl
  layer := by cases k <;> rfl

/-- A rule that is no inclusion. -/
theorem Grows.keep (h : Grows reg k taken t t' out) (hr : r.isInclusion = false) :
    Grows reg k taken (leaf r t) (leaf r t') (r :: out) where
  rules := by rw [Body.rules, Body.rules, h.rules]
  hangs := h.hangs
  shallow := h.shallow
  view := by rw [view_leaf hr, h.view]
  above d hd := by rw [layer_leaf hr, layer_leaf hr, h.above d hd]
  layer := by rw [layer_leaf hr, layer_leaf hr, h.layer]

/-- An inclusion above the layer. -/
theorem Grows.skip (h : Grows reg (k + 1) taken t t' out) (hr : r.isInclusion) :
    Grows reg (k + 1) taken (leaf r t) (leaf r t') out where
  rules := by rw [Body.rules, Body.rules, h.rules]
  hangs := h.hangs
  shallow := h.shallow
  view := by rw [view_leaf_inclusion hr, h.view]
  above d hd := by
    rcases d with _ | d
    · rw [layer_leaf_inclusion hr, layer_leaf_inclusion hr, h.above 0 hd]
    · exact h.above (d + 1) hd
  layer := h.layer

/-- An inclusion in the layer whose name was met before. -/
theorem Grows.drop (h : Grows reg 0 taken t t' out) (hr : r.isInclusion) (ht : r.target ∈ taken) :
    Grows reg 0 taken (leaf r t) (leaf r t') out where
  rules := by rw [Body.rules, Body.rules, h.rules]
  hangs := h.hangs
  shallow := h.shallow
  view := by rw [view_leaf_inclusion hr, h.view]
  above d hd := absurd hd (Nat.not_lt_zero d)
  layer := by
    have hm : Occurrence.target ⟨r, false⟩ ∈ taken := ht
    rw [layer_leaf_inclusion hr, layer_leaf_inclusion hr, mark_of_mem hm, h.layer]

/-- An inclusion in the layer at which a list hangs from now on. -/
theorem Grows.take (h : Grows reg 0 (r.target :: taken) t t' out) (hr : r.isInclusion)
    (ht : r.target ∉ taken) (hl : reg.get? r.target = some l) :
    Grows reg 0 taken (leaf r t) (hang r (ofRules l.rules) t') (l.rules ++ out) where
  rules := by rw [Body.rules, Body.rules, h.rules]
  hangs := ⟨hr, ⟨l, hl, rules_ofRules _⟩, hangs_ofRules _, h.hangs⟩
  shallow := ⟨shallow_ofRules _ _, h.shallow⟩
  view := by rw [Body.view, view_ofRules, h.view]
  above d hd := absurd hd (Nat.not_lt_zero d)
  layer := by
    have hm : Occurrence.target ⟨r, false⟩ ∉ taken := ht
    rw [layer_leaf_inclusion hr, mark_of_not_mem hm, Body.layer, h.layer]
    rfl

/-- An inclusion at which a list hangs already. -/
theorem Grows.hang (hb : Grows reg k taken b b' out) (h : Grows reg (k + 1) taken' t t' out')
    (hr : r.isInclusion) (hl : reg.get? r.target = some l) (hbl : b.rules = l.rules)
    (ht : ∀ name, name ∈ taken' ↔ name ∈ taken ∨ name ∈ (b.layer k).map Occurrence.target) :
    Grows reg (k + 1) taken (hang r b t) (hang r b' t') (out ++ out') where
  rules := by rw [Body.rules, Body.rules, h.rules]
  hangs := ⟨hr, ⟨l, hl, hb.rules.trans hbl⟩, hb.hangs, h.hangs⟩
  shallow := ⟨hb.shallow, h.shallow⟩
  view := by rw [Body.view, hb.view, h.view]
  above d hd := by
    rcases d with _ | d
    · rw [Body.layer, Body.layer, h.above 0 hd]
    · rw [Body.layer, Body.layer, hb.above d (by omega), h.above (d + 1) hd]
  layer := by rw [Body.layer, Body.layer, hb.layer, h.layer, mark_append _ _ ht]

/-- **A pass hangs lists at the inclusions of one layer.** -/
theorem grow (t : Body) {k : ℕ} {taken : List String} {p : Pass} (hs : t.Shallow k)
    (hh : t.Hangs reg) (hp : PassOk reg taken (t.view k) p) :
    ∃ t', Grows reg k taken t t' p.rules := by
  -- a layer of the body is one layer less in the bodies that hang in it
  induction t generalizing k taken p with
  | nil =>
    have hview : nil.view k = [] := by cases k <;> rfl
    rw [hview] at hp
    cases hp
    exact ⟨nil, .nil⟩
  | leaf r rest ih =>
    have hs' : rest.Shallow k := by cases k <;> exact hs
    rcases hr : r.isInclusion
    · rw [view_leaf hr] at hp
      obtain _ | ⟨-, hp⟩ | ⟨hi, -, -⟩ | ⟨hi, -, -, -⟩ := hp
      · obtain ⟨t', ht'⟩ := ih hs' hh hp
        exact ⟨_, ht'.keep hr⟩
      · rw [hr] at hi; cases hi
      · rw [hr] at hi; cases hi
    · rcases k with _ | k
      · rw [view] at hp
        obtain _ | ⟨hi, -⟩ | ⟨-, ht, hp⟩ | ⟨-, ht, hl, hp⟩ := hp
        · rw [hr] at hi; cases hi
        · obtain ⟨t', ht'⟩ := ih hs' hh hp
          exact ⟨_, ht'.drop hr ht⟩
        · obtain ⟨t', ht'⟩ := ih hs' hh hp
          exact ⟨_, ht'.take hr ht hl⟩
      · rw [view_leaf_inclusion hr] at hp
        obtain ⟨t', ht'⟩ := ih hs' hh hp
        exact ⟨_, ht'.skip hr⟩
  | hang r block rest ihb ihr =>
    rcases k with _ | k
    · cases hs
    · obtain ⟨hsb, hsr⟩ := hs
      obtain ⟨hr, ⟨l, hl, hbl⟩, hhb, hhr⟩ := hh
      rw [view] at hp
      obtain ⟨q, s, hq, hrest, rfl⟩ := hp.of_append
      obtain ⟨b', hb'⟩ := ihb hsb hhb hq
      obtain ⟨t', ht'⟩ := ihr hsr hhr hrest
      refine ⟨_, hb'.hang ht' hr hl hbl fun name => ?_⟩
      rw [List.mem_append, List.mem_reverse, hq.mem_fresh_iff, targets_view block hsb]
      by_cases hn : name ∈ taken <;> simp [hn]

end Body

/-! ### All passes -/

variable {reg : Registry} {root rules : List Rule} {k : ℕ} {taken : List String} {t : Body}

/-- **After `k` passes**: the body over the root whose layers above `k` are done, the view of which
is the sequence of rules. -/
structure Grown (reg : Registry) (root : List Rule) (k : ℕ) (taken : List String)
    (rules : List Rule) (t : Body) : Prop where
  rules_eq : t.rules = root
  hangs : t.Hangs reg
  shallow : t.Shallow k
  view : t.view k = rules
  mem_taken : ∀ name, name ∈ taken ↔ ∃ d < k, name ∈ (t.layer d).map Occurrence.target
  hangs_iff : ∀ d < k, ∀ i o, (t.layer d)[i]? = some o → (o.hangs = true ↔
    (∀ d' < d, o.target ∉ (t.layer d').map Occurrence.target) ∧
      ∀ o' ∈ (t.layer d).take i, o'.target ≠ o.target)

theorem Grown.start (reg : Registry) (root : List Rule) :
    Grown reg root 0 [] root (Body.ofRules root) where
  rules_eq := Body.rules_ofRules root
  hangs := Body.hangs_ofRules root
  shallow := Body.shallow_ofRules 0 root
  view := Body.view_ofRules root
  mem_taken name := by simp
  hangs_iff d hd := absurd hd (Nat.not_lt_zero d)

theorem Grown.step (h : Grown reg root k taken rules t) {p : Pass}
    (hp : PassOk reg taken rules p) :
    ∃ t', Grown reg root (k + 1) (taken ++ p.fresh) p.rules t' := by
  have hview := h.view
  subst hview
  obtain ⟨t', g⟩ := Body.grow t h.shallow h.hangs hp
  -- the names in the layers up to `k` do not change
  have htargets : ∀ d ≤ k,
      (t'.layer d).map Occurrence.target = (t.layer d).map Occurrence.target := by
    intro d hd
    rcases Nat.lt_or_ge d k with hdk | hdk
    · rw [g.above d hdk]
    · obtain rfl : d = k := Nat.le_antisymm hd hdk
      rw [g.layer, map_target_mark]
  refine ⟨t', g.rules.trans h.rules_eq, g.hangs, g.shallow, g.view, fun name => ?_, ?_⟩
  · rw [List.mem_append, hp.mem_fresh_iff, Body.targets_view t h.shallow, ← htargets k le_rfl]
    constructor
    · rintro (hn | ⟨hn, -⟩)
      · obtain ⟨d, hd, hn⟩ := (h.mem_taken name).mp hn
        exact ⟨d, by omega, by rwa [htargets d (Nat.le_of_lt hd)]⟩
      · exact ⟨k, by omega, hn⟩
    · rintro ⟨d, hd, hn⟩
      by_cases ht : name ∈ taken
      · exact Or.inl ht
      · rcases Nat.lt_or_ge d k with hdk | hdk
        · rw [htargets d (Nat.le_of_lt hdk)] at hn
          exact absurd ((h.mem_taken name).mpr ⟨d, hdk, hn⟩) ht
        · obtain rfl : d = k := by omega
          exact Or.inr ⟨hn, ht⟩
  · intro d hd i o ho
    have hbefore : (∀ d' < d, o.target ∉ (t'.layer d').map Occurrence.target) ↔
        ∀ d' < d, o.target ∉ (t.layer d').map Occurrence.target :=
      forall₂_congr fun d' hd' => by rw [htargets d' (by omega)]
    rw [hbefore]
    rcases Nat.lt_or_ge d k with hdk | hdk
    · rw [g.above d hdk] at ho ⊢
      exact h.hangs_iff d hdk i o ho
    · obtain rfl : d = k := by omega
      rw [g.layer] at ho ⊢
      rw [hangs_mark ho, h.mem_taken]
      simp only [not_exists, not_and]

/-! ### The whole expansion -/

/-- **Where the lists hang**: at an inclusion of their name, each at the one that comes first by
layer and then from left to right. -/
structure Placement (reg : Registry) (root : List Rule) (taken : List String) (t : Body) :
    Prop where
  rules_eq : t.rules = root
  hangs : t.Hangs reg
  mem_taken : ∀ name, name ∈ taken ↔
    ∃ d i o, t.At d i o ∧ o.hangs = true ∧ o.target = name
  hangs_iff : ∀ d i o, t.At d i o → (o.hangs = true ↔
    ∀ d' i' o', t.At d' i' o' → o'.target = o.target → d < d' ∨ d = d' ∧ i ≤ i')

/-- **Before a pass that takes nothing in** the sequence is the flattening of the body. -/
theorem Grown.finish (h : Grown reg root k taken rules t) {out : List Rule}
    (hp : PassOk reg taken rules ⟨[], out⟩) :
    ∃ t', Placement reg root taken t' ∧ out = t'.flatten := by
  obtain ⟨t', g⟩ := h.step hp
  have hout : t'.view (k + 1) = out := g.view
  have hmem := g.mem_taken
  rw [List.append_nil] at hmem
  -- nothing is left to be expanded, so the last layer is the one of the pass
  have hnil : t'.layer (k + 1) = [] := by
    have htargets := Body.targets_view t' g.shallow
    rw [hout, ← hp.plain_eq, targets_plain] at htargets
    exact List.map_eq_nil_iff.mp htargets.symm
  have hlt : ∀ {d i o}, t'.At d i o → d < k + 1 := by
    intro d i o ho
    by_contra hd
    rcases Nat.lt_or_eq_of_le (Nat.le_of_not_lt hd) with hd | rfl
    · rw [Body.At, Body.layer_eq_nil t' g.shallow hd] at ho; simp at ho
    · rw [Body.At, hnil] at ho; simp at ho
  have hfirst : ∀ d i o, t'.At d i o → (o.hangs = true ↔
      ∀ d' i' o', t'.At d' i' o' → o'.target = o.target → d < d' ∨ d = d' ∧ i ≤ i') :=
    fun d i o ho => (g.hangs_iff d (hlt ho) i o ho).trans (Body.first_iff t')
  refine ⟨t', ⟨g.rules_eq, g.hangs, fun name => ?_, hfirst⟩, ?_⟩
  · rw [hmem]
    constructor
    · rintro ⟨d, -, hn⟩
      obtain ⟨i, o, ho, rfl⟩ := Body.mem_map_target.mp hn
      obtain ⟨d', i', o', ho', he, hmin⟩ := Body.exists_first ho
      exact ⟨d', i', o', ho', (hfirst d' i' o' ho').mpr (by rwa [he]), he⟩
    · rintro ⟨d, i, o, ho, -, rfl⟩
      exact ⟨d, hlt ho, Body.mem_map_target.mpr ⟨i, o, ho, rfl⟩⟩
  · rw [Body.flatten_eq t' g.shallow, hout, hp.plain_eq]

/-- A list hangs at one inclusion only. -/
theorem Placement.unique (h : Placement reg root taken t) {name : String} (hn : name ∈ taken) :
    ∃! p : ℕ × ℕ, ∃ o, t.At p.1 p.2 o ∧ o.hangs = true ∧ o.target = name := by
  obtain ⟨d, i, o, ho, hh, rfl⟩ := (h.mem_taken name).mp hn
  refine ⟨(d, i), ⟨o, ho, hh, rfl⟩, ?_⟩
  rintro ⟨e, j⟩ ⟨s, hs, hh', he⟩
  have h1 := (h.hangs_iff d i o ho).mp hh e j s hs he
  have h2 := (h.hangs_iff e j s hs).mp hh' d i o ho he.symm
  exact Prod.ext (by simp only; omega) (by simp only; omega)

/-- The body of every list that is taken in hangs somewhere. -/
theorem Placement.exists_placed (h : Placement reg root taken t) {name : String}
    (hn : name ∈ taken) :
    ∃ l, reg.get? name = some l ∧ ∃ b ∈ t.placed, b.rules = l.rules := by
  obtain ⟨d, i, o, ho, hh, rfl⟩ := (h.mem_taken name).mp hn
  obtain ⟨b, hb, l, hl, hbl⟩ := t.exists_placed h.hangs (List.mem_of_getElem? ho) hh
  exact ⟨l, hl, b, hb, hbl⟩

namespace RuleList

variable {root : RuleList} {x : ResolvedList}

theorem exists_placement (hx : root.resolve reg = .ok x) :
    ∃ t, Placement reg root.rules x.taken t ∧ x.rules = t.flatten := by
  obtain ⟨-, k, rules, ⟨t, h⟩, hp⟩ :=
    resolve_run (fun k taken rules => ∃ t, Grown reg root.rules k taken rules t)
      (fun ⟨_, h⟩ hp _ => h.step hp) ⟨_, Grown.start reg root.rules⟩ hx
  exact h.finish hp

/-- **Where the lists come to stand.** The rules of an expansion are the flattening of a body over
the root in which each list that is taken in hangs at one inclusion, the first of its name by layer
and then from left to right. Hence the rules of the root and of each such list keep their order, and
what an inclusion brings in lies in one piece between the rules before it and those behind it. -/
theorem resolve_placement (hx : root.resolve reg = .ok x) :
    ∃ t : Body, Placement reg root.rules x.taken t ∧ x.rules = t.flatten ∧
      (∀ name ∈ x.taken, ∃! p : ℕ × ℕ, ∃ o, t.At p.1 p.2 o ∧ o.hangs = true ∧ o.target = name) ∧
      (plain root.rules).Sublist x.rules ∧
      (∀ name ∈ x.taken, ∃ l, reg.get? name = some l ∧ (plain l.rules).Sublist x.rules ∧
        ∃ b ∈ t.placed, b.rules = l.rules) ∧
      ∀ b ∈ t :: t.placed, b.flatten <:+: x.rules ∧
        ∀ u r v, b.rules = u ++ r :: v → r.isInclusion →
          (∀ c, b.blockAt u.length = some c →
            c ∈ b.placed ∧ ∃ l, reg.get? r.target = some l ∧ c.rules = l.rules) ∧
          ∃ before after,
            b.flatten = before ++ ((b.blockAt u.length).elim [] Body.flatten ++ after) ∧
            (plain u).Sublist before ∧ (plain v).Sublist after := by
  obtain ⟨t, h, hflat⟩ := exists_placement hx
  have hpiece : ∀ b ∈ t :: t.placed, b.Hangs reg ∧ b.flatten <:+: x.rules := by
    intro b hb
    rw [hflat]
    rcases List.mem_cons.mp hb with rfl | hb
    · exact ⟨h.hangs, List.infix_rfl⟩
    · exact ⟨t.hangs_of_mem_placed h.hangs hb, t.flatten_isInfix hb⟩
  have hplain : ∀ b ∈ t :: t.placed, (plain b.rules).Sublist x.rules := fun b hb =>
    (b.plain_sublist_flatten (hpiece b hb).1).trans (hpiece b hb).2.sublist
  refine ⟨t, h, hflat, fun name hn => h.unique hn, ?_, fun name hn => ?_, fun b hb => ?_⟩
  · rw [← h.rules_eq]
    exact hplain t List.mem_cons_self
  · obtain ⟨l, hl, b, hb, hbl⟩ := h.exists_placed hn
    refine ⟨l, hl, ?_, b, hb, hbl⟩
    rw [← hbl]
    exact hplain b (List.mem_cons_of_mem t hb)
  · obtain ⟨hh, hpart⟩ := hpiece b hb
    refine ⟨hpart, fun u r v hr hi => ⟨fun c hc => b.rules_blockAt hh hr hc, ?_⟩⟩
    exact b.flatten_split hh hr hi

end RuleList

/-- A list, and one that includes it. -/
def Registry.shared : Registry := .ofList
  [⟨"B", .site, [⟨.inclusion, "d", []⟩, ⟨.full, "z", []⟩]⟩, ⟨"D", .site, [⟨.domain, "x", []⟩]⟩]

namespace RuleList

/-- A list that includes both. -/
def sharedRoot : RuleList := ⟨"A", .site, [⟨.inclusion, "b", []⟩, ⟨.inclusion, "d", []⟩]⟩

theorem resolve_sharedRoot : sharedRoot.resolve .shared =
    .ok ⟨"A", ["B", "D"], [⟨.full, "z", []⟩, ⟨.domain, "x", []⟩]⟩ := by
  have h1 : pass .shared [] sharedRoot.rules = .ok ⟨["B", "D"],
      [⟨.inclusion, "d", []⟩, ⟨.full, "z", []⟩, ⟨.domain, "x", []⟩]⟩ := rfl
  have h2 : pass .shared ["B", "D"] [⟨.inclusion, "d", []⟩, ⟨.full, "z", []⟩,
      ⟨.domain, "x", []⟩] = .ok ⟨[], [⟨.full, "z", []⟩, ⟨.domain, "x", []⟩]⟩ := rfl
  exact resolve_of_ok (passes_of_step h1 (passes_of_last (ok_of_pass h2)))

/-- The shared list hangs at the root's own inclusion and not at the one that is read before it. -/
theorem resolve_placement_shared : sharedRoot.resolve .shared =
      .ok ⟨"A", ["B", "D"], [⟨.full, "z", []⟩, ⟨.domain, "x", []⟩]⟩ ∧
    ∃ t : Body, Placement .shared sharedRoot.rules ["B", "D"] t ∧
      t.flatten = [⟨.full, "z", []⟩, ⟨.domain, "x", []⟩] ∧
      ∃! p : ℕ × ℕ, ∃ o, t.At p.1 p.2 o ∧ o.hangs = true ∧ o.target = "D" := by
  obtain ⟨t, h, hflat, hone, -⟩ := resolve_placement resolve_sharedRoot
  exact ⟨resolve_sharedRoot, t, h, hflat.symm, hone "D" (by decide)⟩

end RuleList

end GeoRules
