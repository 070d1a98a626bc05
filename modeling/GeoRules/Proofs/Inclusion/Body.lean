import GeoRules.Proofs.Inclusion.Pass
import Mathlib.Data.Nat.Find

/-! # Bodies in which lists hang

A body is the sequence of a list's rules in which, at some of the inclusions, the body of the list
that the inclusion stands for hangs. It is an ordered tree: its flattening reads it from left to
right, puts what hangs at an inclusion in the inclusion's place and leaves out the inclusions at
which nothing hangs.

The inclusions of a body lie in layers: layer `0` holds those of its own rules, layer `d + 1` those
of the layer `d` of the bodies that hang in it, each layer from left to right. A body is `Shallow k`
if bodies hang in it above layer `k` only. What the passes have written then is `view k`, the
flattening with the inclusions of layer `k` still in it: `flatten_eq` and `targets_view`. -/

namespace GeoRules

open Expansion

/-- The rules of a list, with the bodies that hang at its inclusions. -/
inductive Body
  | nil
  | leaf (r : Rule) (rest : Body)
  | hang (r : Rule) (block rest : Body)

/-- An inclusion in a body, and whether a body hangs at it. -/
structure Occurrence where
  rule : Rule
  hangs : Bool

/-- The name of the list that the inclusion stands for. -/
def Occurrence.target (o : Occurrence) : String := o.rule.target

namespace Body

/-- The body in which nothing hangs. -/
def ofRules : List Rule → Body
  | [] => nil
  | r :: rs => leaf r (ofRules rs)

/-- The rules of the body itself. -/
def rules : Body → List Rule
  | nil => []
  | leaf r rest => r :: rest.rules
  | hang r _ rest => r :: rest.rules

/-- **The body from left to right.** -/
def flatten : Body → List Rule
  | nil => []
  | leaf r rest => if r.isInclusion then rest.flatten else r :: rest.flatten
  | hang _ block rest => block.flatten ++ rest.flatten

/-- The bodies that hang in the body, at any depth. -/
def placed : Body → List Body
  | nil => []
  | leaf _ rest => rest.placed
  | hang _ block rest => block :: (block.placed ++ rest.placed)

/-- The body that hangs at the rule of the index. -/
def blockAt : Body → ℕ → Option Body
  | nil, _ => none
  | leaf _ _, 0 => none
  | hang _ block _, 0 => some block
  | leaf _ rest, n + 1 => rest.blockAt n
  | hang _ _ rest, n + 1 => rest.blockAt n

/-- **The layers of inclusions**, each from left to right. -/
def layer : ℕ → Body → List Occurrence
  | _, nil => []
  | 0, leaf r rest => if r.isInclusion then ⟨r, false⟩ :: layer 0 rest else layer 0 rest
  | 0, hang r _ rest => ⟨r, true⟩ :: layer 0 rest
  | d + 1, leaf _ rest => layer (d + 1) rest
  | d + 1, hang _ block rest => layer d block ++ layer (d + 1) rest

/-- The inclusion of index `i` in layer `d`. -/
def At (t : Body) (d i : ℕ) (o : Occurrence) : Prop := (t.layer d)[i]? = some o

/-- What hangs in the body are lists of the registry, each at an inclusion of its name. -/
def Hangs (reg : Registry) : Body → Prop
  | nil => True
  | leaf _ rest => rest.Hangs reg
  | hang r block rest => r.isInclusion ∧ (∃ l, reg.get? r.target = some l ∧ block.rules = l.rules) ∧
      block.Hangs reg ∧ rest.Hangs reg

variable {reg : Registry}

/-! ### The flattening -/

theorem rules_ofRules (rs : List Rule) : (ofRules rs).rules = rs := by
  induction rs with
  | nil => rfl
  | cons r rs ih => rw [ofRules, rules, ih]

theorem hangs_ofRules (rs : List Rule) : (ofRules rs).Hangs reg := by
  induction rs with
  | nil => trivial
  | cons r rs ih => exact ih

theorem flatten_leaf {r : Rule} (h : r.isInclusion = false) (rest : Body) :
    (leaf r rest).flatten = r :: rest.flatten := by simp [flatten, h]

theorem flatten_leaf_inclusion {r : Rule} (h : r.isInclusion) (rest : Body) :
    (leaf r rest).flatten = rest.flatten := by simp [flatten, h]

/-- The rules of a body that are no inclusions keep their order. -/
theorem plain_sublist_flatten : ∀ t : Body, t.Hangs reg → (plain t.rules).Sublist t.flatten
  | nil, _ => List.Sublist.slnil
  | leaf r rest, h => by
    have ih := plain_sublist_flatten rest h
    rw [rules]
    rcases hr : r.isInclusion
    · rw [plain_cons hr, flatten_leaf hr]; exact ih.cons_cons r
    · rw [plain_cons_inclusion hr, flatten_leaf_inclusion hr]; exact ih
  | hang r block rest, ⟨hr, _, _, hrest⟩ => by
    have ih := plain_sublist_flatten rest hrest
    rw [rules, plain_cons_inclusion hr, flatten]
    exact ih.trans (List.sublist_append_right _ _)

/-- What hangs in a body lies in one piece. -/
theorem flatten_isInfix : ∀ (t : Body) {b : Body}, b ∈ t.placed → b.flatten <:+: t.flatten
  | leaf r rest, b, hb => by
    have ih := flatten_isInfix rest hb
    rcases hr : r.isInclusion
    · rw [flatten_leaf hr]; exact ih.trans (List.suffix_cons r _).isInfix
    · rw [flatten_leaf_inclusion hr]; exact ih
  | hang r block rest, b, hb => by
    rw [flatten]
    rcases List.mem_cons.mp hb with rfl | hb
    · exact (List.prefix_append _ _).isInfix
    · rcases List.mem_append.mp hb with hb | hb
      · exact (flatten_isInfix block hb).trans (List.prefix_append _ _).isInfix
      · exact (flatten_isInfix rest hb).trans (List.suffix_append _ _).isInfix

theorem hangs_of_mem_placed : ∀ (t : Body) {b : Body}, t.Hangs reg → b ∈ t.placed → b.Hangs reg
  | leaf _ rest, _, h, hb => hangs_of_mem_placed rest h hb
  | hang _ block rest, _, ⟨_, _, hblock, hrest⟩, hb => by
    rcases List.mem_cons.mp hb with rfl | hb
    · exact hblock
    · rcases List.mem_append.mp hb with hb | hb
      · exact hangs_of_mem_placed block hblock hb
      · exact hangs_of_mem_placed rest hrest hb

/-- **What an inclusion brings in** lies between the rules before it and those behind it. -/
theorem flatten_split : ∀ (t : Body) {u v : List Rule} {r : Rule}, t.Hangs reg →
    t.rules = u ++ r :: v → r.isInclusion →
    ∃ before after, t.flatten = before ++ ((t.blockAt u.length).elim [] flatten ++ after) ∧
      (plain u).Sublist before ∧ (plain v).Sublist after
  | nil, u, v, r, _, he, _ =>
    absurd he.symm (List.append_ne_nil_of_right_ne_nil u (List.cons_ne_nil r v))
  | leaf s rest, [], v, r, h, he, hr => by
    obtain ⟨rfl, rfl⟩ := List.cons.inj he
    exact ⟨[], rest.flatten, flatten_leaf_inclusion hr rest, List.nil_sublist _,
      plain_sublist_flatten rest h⟩
  | hang s block rest, [], v, r, ⟨_, _, _, hrest⟩, he, hr => by
    obtain ⟨rfl, rfl⟩ := List.cons.inj he
    exact ⟨[], rest.flatten, rfl, List.nil_sublist _, plain_sublist_flatten rest hrest⟩
  | leaf s rest, w :: u, v, r, h, he, hr => by
    obtain ⟨rfl, hrest⟩ := List.cons.inj he
    obtain ⟨before, after, hf, hu, hv⟩ := flatten_split rest h hrest hr
    rcases hs : s.isInclusion
    · refine ⟨s :: before, after, ?_, ?_, hv⟩
      · rw [flatten_leaf hs, hf]; rfl
      · rw [plain_cons hs]; exact hu.cons_cons s
    · refine ⟨before, after, ?_, ?_, hv⟩
      · rw [flatten_leaf_inclusion hs, hf]; rfl
      · rw [plain_cons_inclusion hs]; exact hu
  | hang s block rest, w :: u, v, r, ⟨hs, _, _, hrest⟩, he, hr => by
    obtain ⟨rfl, htail⟩ := List.cons.inj he
    obtain ⟨before, after, hf, hu, hv⟩ := flatten_split rest hrest htail hr
    refine ⟨block.flatten ++ before, after, ?_, ?_, hv⟩
    · rw [flatten, hf, List.append_assoc]; rfl
    · rw [plain_cons_inclusion hs]; exact hu.trans (List.sublist_append_right _ _)

/-- At an inclusion at which something hangs it is the list of the inclusion's name. -/
theorem exists_placed : ∀ (t : Body) {d : ℕ} {o : Occurrence}, t.Hangs reg → o ∈ t.layer d →
    o.hangs = true → ∃ b ∈ t.placed, ∃ l, reg.get? o.target = some l ∧ b.rules = l.rules
  | nil, d, o, _, ho, _ => by simp [layer] at ho
  | leaf r rest, 0, o, h, ho, hh => by
    have ih := exists_placed rest (d := 0) (o := o) h
    rw [layer] at ho
    split at ho
    · rcases List.mem_cons.mp ho with rfl | ho
      · cases hh
      · exact ih ho hh
    · exact ih ho hh
  | leaf r rest, d + 1, o, h, ho, hh => exists_placed rest h ho hh
  | hang r block rest, 0, o, ⟨_, hl, _, hrest⟩, ho, hh => by
    rcases List.mem_cons.mp ho with rfl | ho
    · exact ⟨block, List.mem_cons_self, hl⟩
    · obtain ⟨b, hb, hbl⟩ := exists_placed rest hrest ho hh
      exact ⟨b, List.mem_cons_of_mem _ (List.mem_append_right _ hb), hbl⟩
  | hang r block rest, d + 1, o, ⟨_, _, hblock, hrest⟩, ho, hh => by
    rcases List.mem_append.mp ho with ho | ho
    · obtain ⟨b, hb, hbl⟩ := exists_placed block hblock ho hh
      exact ⟨b, List.mem_cons_of_mem _ (List.mem_append_left _ hb), hbl⟩
    · obtain ⟨b, hb, hbl⟩ := exists_placed rest hrest ho hh
      exact ⟨b, List.mem_cons_of_mem _ (List.mem_append_right _ hb), hbl⟩

theorem rules_blockAt : ∀ (t : Body) {u v : List Rule} {r : Rule} {b : Body}, t.Hangs reg →
    t.rules = u ++ r :: v → t.blockAt u.length = some b →
    b ∈ t.placed ∧ ∃ l, reg.get? r.target = some l ∧ b.rules = l.rules
  | leaf s rest, w :: u, v, r, b, h, he, hb =>
    rules_blockAt rest (u := u) h (List.cons.inj he).2 hb
  | hang s block rest, [], v, r, b, ⟨_, hl, _, _⟩, he, hb => by
    obtain rfl : block = b := Option.some.inj hb
    obtain rfl : s = r := (List.cons.inj he).1
    exact ⟨List.mem_cons_self, hl⟩
  | hang s block rest, w :: u, v, r, b, ⟨_, _, _, hrest⟩, he, hb => by
    obtain ⟨hm, hl⟩ := rules_blockAt rest (u := u) hrest (List.cons.inj he).2 hb
    exact ⟨List.mem_cons_of_mem _ (List.mem_append_right _ hm), hl⟩

/-! ### The first inclusion of a name -/

variable {t : Body}

theorem mem_map_target {d : ℕ} {name : String} :
    name ∈ (t.layer d).map Occurrence.target ↔ ∃ i o, t.At d i o ∧ o.target = name := by
  rw [List.mem_map]
  constructor
  · rintro ⟨o, ho, rfl⟩
    obtain ⟨i, hi⟩ := List.mem_iff_getElem?.mp ho
    exact ⟨i, o, hi, rfl⟩
  · rintro ⟨i, o, hi, rfl⟩
    exact ⟨o, List.mem_of_getElem? hi, rfl⟩

/-- An inclusion is the first of its name by layer and then from left to right if the name stands
neither in a layer above nor before it in its own. -/
theorem first_iff (t : Body) {d i : ℕ} {o : Occurrence} :
    ((∀ d' < d, o.target ∉ (t.layer d').map Occurrence.target) ∧
        ∀ o' ∈ (t.layer d).take i, o'.target ≠ o.target) ↔
      ∀ d' i' o', t.At d' i' o' → o'.target = o.target →
        d < d' ∨ d = d' ∧ i ≤ i' := by
  constructor
  · rintro ⟨hlayers, htake⟩ d' i' o' ho' he
    rcases Nat.lt_trichotomy d d' with hd | rfl | hd
    · exact Or.inl hd
    · refine Or.inr ⟨rfl, ?_⟩
      by_contra hi
      have hm : o' ∈ (t.layer d).take i := by
        refine List.mem_iff_getElem?.mpr ⟨i', ?_⟩
        rw [List.getElem?_take_of_lt (by omega), ho']
      exact htake o' hm he
    · exact absurd (mem_map_target.mpr ⟨i', o', ho', he⟩) (hlayers d' hd)
  · refine fun h => ⟨fun d' hd hm => ?_, fun o' hm he => ?_⟩
    · obtain ⟨i', o', ho', he⟩ := mem_map_target.mp hm
      have := h d' i' o' ho' he
      omega
    · obtain ⟨i', hi', rfl⟩ := List.mem_take_iff_getElem.mp hm
      have := h d i' _ (List.getElem?_eq_getElem (by omega)) he
      omega

/-- Every name that an inclusion stands for has a first inclusion. -/
theorem exists_first {d i : ℕ} {o : Occurrence} (ho : t.At d i o) :
    ∃ d' i' o', t.At d' i' o' ∧ o'.target = o.target ∧
      ∀ e j s, t.At e j s → s.target = o.target → d' < e ∨ d' = e ∧ i' ≤ j := by
  classical
  have hd : ∃ d i s, t.At d i s ∧ s.target = o.target := ⟨d, i, o, ho, rfl⟩
  have hi := Nat.find_spec hd
  obtain ⟨s, hs, he⟩ := Nat.find_spec hi
  refine ⟨Nat.find hd, Nat.find hi, s, hs, he, fun e j s' hs' he' => ?_⟩
  have hle : Nat.find hd ≤ e := Nat.find_min' hd ⟨j, s', hs', he'⟩
  rcases Nat.lt_or_eq_of_le hle with hlt | heq
  · exact Or.inl hlt
  · refine Or.inr ⟨heq, Nat.find_min' hi ⟨s', ?_, he'⟩⟩
    rw [heq]; exact hs'

/-! ### What the passes have written -/

/-- Bodies hang above layer `k` only. -/
def Shallow : ℕ → Body → Prop
  | _, nil => True
  | k, leaf _ rest => rest.Shallow k
  | 0, hang .. => False
  | k + 1, hang _ block rest => block.Shallow k ∧ rest.Shallow (k + 1)

/-- The body from left to right, with the inclusions of layer `k`. -/
def view : ℕ → Body → List Rule
  | _, nil => []
  | 0, leaf r rest => r :: rest.view 0
  | 0, hang _ block rest => block.flatten ++ rest.view 0
  | k + 1, leaf r rest => if r.isInclusion then rest.view (k + 1) else r :: rest.view (k + 1)
  | k + 1, hang _ block rest => block.view k ++ rest.view (k + 1)

theorem shallow_ofRules (k : ℕ) (rs : List Rule) : (ofRules rs).Shallow k := by
  induction rs with
  | nil => cases k <;> trivial
  | cons r rs ih => cases k <;> exact ih

theorem view_ofRules (rs : List Rule) : (ofRules rs).view 0 = rs := by
  induction rs with
  | nil => rfl
  | cons r rs ih => rw [ofRules, view, ih]

theorem view_leaf {r : Rule} (h : r.isInclusion = false) (k : ℕ) (rest : Body) :
    (leaf r rest).view k = r :: rest.view k := by cases k <;> simp [view, h]

theorem view_leaf_inclusion {r : Rule} (h : r.isInclusion) (k : ℕ) (rest : Body) :
    (leaf r rest).view (k + 1) = rest.view (k + 1) := by simp [view, h]

theorem layer_leaf {r : Rule} (h : r.isInclusion = false) (d : ℕ) (rest : Body) :
    (leaf r rest).layer d = rest.layer d := by cases d <;> simp [layer, h]

theorem layer_leaf_inclusion {r : Rule} (h : r.isInclusion) (rest : Body) :
    (leaf r rest).layer 0 = ⟨r, false⟩ :: rest.layer 0 := by simp [layer, h]

/-- Without the inclusions of its layer, the view is the flattening. -/
theorem flatten_eq : ∀ (t : Body) {k : ℕ}, t.Shallow k → t.flatten = plain (t.view k)
  | nil, k, _ => by cases k <;> rfl
  | leaf r rest, k, h => by
    have ih := flatten_eq rest (k := k) (by cases k <;> exact h)
    rcases hr : r.isInclusion
    · rw [flatten_leaf hr, view_leaf hr, plain_cons hr, ih]
    · rw [flatten_leaf_inclusion hr, ih]
      rcases k with _ | k
      · rw [view, plain_cons_inclusion hr]
      · rw [view_leaf_inclusion hr]
  | hang r block rest, k + 1, ⟨hblock, hrest⟩ => by
    rw [flatten, view, plain_append, flatten_eq block hblock, flatten_eq rest hrest]

/-- The inclusions in the view are those of its layer. -/
theorem targets_view : ∀ (t : Body) {k : ℕ}, t.Shallow k →
    targets (t.view k) = (t.layer k).map Occurrence.target
  | nil, k, _ => by cases k <;> rfl
  | leaf r rest, k, h => by
    have ih := targets_view rest (k := k) (by cases k <;> exact h)
    rcases hr : r.isInclusion
    · rw [view_leaf hr, layer_leaf hr, targets_cons hr, ih]
    · rcases k with _ | k
      · rw [view, layer_leaf_inclusion hr, targets_cons_inclusion hr, ih]; rfl
      · rw [view_leaf_inclusion hr, layer, ih]
  | hang r block rest, k + 1, ⟨hblock, hrest⟩ => by
    rw [view, layer, targets_append, List.map_append, targets_view block hblock,
      targets_view rest hrest]

theorem layer_eq_nil : ∀ (t : Body) {k d : ℕ}, t.Shallow k → k < d → t.layer d = []
  | nil, _, d, _, _ => by cases d <;> rfl
  | leaf r rest, k, d + 1, h, hd => layer_eq_nil rest (k := k) (by cases k <;> exact h) hd
  | hang r block rest, k + 1, d + 1, ⟨hblock, hrest⟩, hd => by
    rw [layer, layer_eq_nil block hblock (by omega), layer_eq_nil rest hrest hd]; rfl

end Body

end GeoRules
