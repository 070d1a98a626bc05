import GeoRules.Proofs.Inclusion.Pass
import Mathlib.Logic.Relation

/-! # What an expansion sees of inclusions

A pass sees of an inclusion its target alone, and of the inclusions of one name the first. The
outline of rules keeps just that: a pass fails at the first name of the outline that no list has,
and otherwise takes in its names and leaves its items with the lists in the place of their names
(`pass_cases`).

Rules with one outline, whatever was taken in before, are indistinct. Lists that are spelled in
another way, whose attributes at inclusions are others, or in which an inclusion is left out behind
another one of the same name (`Edit`) are indistinct, and passes over indistinct rules leave
indistinct rules. An expansion therefore does not change under such edits (`resolve_edited`). -/

namespace GeoRules

namespace Expansion

/-! ### Outlines -/

/-- What a pass sees: a rule that stays, or the name of a list that is taken in. -/
inductive Item
  | rule (r : Rule)
  | list (name : String)

/-- The name of the list that the item stands for. -/
def Item.name? : Item → Option String
  | rule _ => none
  | list name => some name

/-- The rules that a pass puts in the place of the item. -/
def Item.rules (reg : Registry) : Item → List Rule
  | rule r => [r]
  | list name => reg.rulesOf name

/-- The names of the lists that the items stand for. -/
def listNames (items : List Item) : List String := items.filterMap Item.name?

/-- **What a pass sees of the rules** after the names in `taken` were taken in. -/
def outline (taken : List String) : List Rule → List Item
  | [] => []
  | r :: rs =>
    if r.isInclusion then
      if r.target ∈ taken then outline taken rs
      else .list r.target :: outline (r.target :: taken) rs
    else .rule r :: outline taken rs

section Outline
variable {taken : List String} {r : Rule}

theorem outline_cons (h : r.isInclusion = false) (rs : List Rule) :
    outline taken (r :: rs) = .rule r :: outline taken rs := by simp [outline, h]

theorem outline_cons_of_mem (h : r.isInclusion) (ht : r.target ∈ taken) (rs : List Rule) :
    outline taken (r :: rs) = outline taken rs := by rw [outline, if_pos h, if_pos ht]

theorem outline_cons_of_not_mem (h : r.isInclusion) (ht : r.target ∉ taken) (rs : List Rule) :
    outline taken (r :: rs) = .list r.target :: outline (r.target :: taken) rs := by
  rw [outline, if_pos h, if_neg ht]

theorem listNames_rule (items : List Item) :
    listNames (.rule r :: items) = listNames items := rfl

theorem listNames_list (name : String) (items : List Item) :
    listNames (.list name :: items) = name :: listNames items := rfl

/-- The second of two pieces is seen after the names of the first. -/
theorem outline_append (u v : List Rule) : outline taken (u ++ v) =
    outline taken u ++ outline ((listNames (outline taken u)).reverse ++ taken) v := by
  induction u generalizing taken with
  | nil => rfl
  | cons r u ih =>
    rw [List.cons_append]
    rcases hr : r.isInclusion
    · rw [outline_cons hr, outline_cons hr, ih, listNames_rule]; rfl
    · by_cases ht : r.target ∈ taken
      · rw [outline_cons_of_mem hr ht, outline_cons_of_mem hr ht, ih]
      · rw [outline_cons_of_not_mem hr ht, outline_cons_of_not_mem hr ht, ih, listNames_list,
          List.reverse_cons, List.append_assoc]; rfl

/-- Every name of an inclusion was taken in before or is in the outline. -/
theorem mem_listNames_of_mem_targets {rules : List Rule} {name : String}
    (h : name ∈ targets rules) : name ∈ listNames (outline taken rules) ∨ name ∈ taken := by
  induction rules generalizing taken with
  | nil => cases h
  | cons r rules ih =>
    rcases hr : r.isInclusion
    · rw [targets_cons hr] at h
      rw [outline_cons hr, listNames_rule]
      exact ih h
    · rw [targets_cons_inclusion hr, List.mem_cons] at h
      by_cases ht : r.target ∈ taken
      · rw [outline_cons_of_mem hr ht]
        rcases h with rfl | h
        · exact Or.inr ht
        · exact ih h
      · rw [outline_cons_of_not_mem hr ht, listNames_list, List.mem_cons]
        rcases h with rfl | h
        · exact Or.inl (Or.inl rfl)
        · rcases @ih (r.target :: taken) h with hn | hn
          · exact Or.inl (Or.inr hn)
          · rcases List.mem_cons.mp hn with rfl | hn
            · exact Or.inl (Or.inl rfl)
            · exact Or.inr hn

end Outline

/-! ### A pass over an outline -/

/-- The first name of the items that no list has. -/
def missing? (reg : Registry) (items : List Item) : Option String :=
  (listNames items).find? (· ∉ reg.names)

section Missing
variable {reg : Registry} {items : List Item} {name : String}

theorem missing?_rule (r : Rule) : missing? reg (.rule r :: items) = missing? reg items := by
  rw [missing?, listNames_rule, missing?]

theorem missing?_list_of_mem (h : name ∈ reg.names) :
    missing? reg (.list name :: items) = missing? reg items := by
  rw [missing?, listNames_list, List.find?_cons_of_neg (by simpa using h), missing?]

theorem missing?_list_of_not_mem (h : name ∉ reg.names) :
    missing? reg (.list name :: items) = some name := by
  rw [missing?, listNames_list, List.find?_cons_of_pos (by simpa using h)]

end Missing

/-- **What a pass does** depends on the outline of its rules. It fails with the value of an
inclusion of the first missing name, or takes in all names. -/
theorem pass_cases (reg : Registry) (taken : List String) (rules : List Rule) :
    (missing? reg (outline taken rules) = none ∧ pass reg taken rules =
      .ok ⟨listNames (outline taken rules), (outline taken rules).flatMap (Item.rules reg)⟩) ∨
    ∃ e : MissingList, missing? reg (outline taken rules) = some (Text.uppercase e.value) ∧
      pass reg taken rules = .error e := by
  induction rules generalizing taken with
  | nil => exact Or.inl ⟨rfl, rfl⟩
  | cons rule rules ih =>
    rcases pass_cons reg taken rule rules with
      ⟨hr, he⟩ | ⟨hr, ht, he⟩ | ⟨hr, ht, hl, he⟩ | ⟨hr, ht, l, hl, he⟩
    · rw [outline_cons hr, missing?_rule, he]
      rcases ih taken with ⟨hnone, hp⟩ | ⟨e, hsome, hp⟩
      · rw [hp, listNames_rule, List.flatMap_cons, Item.rules]
        exact Or.inl ⟨hnone, rfl⟩
      · rw [hp]
        exact Or.inr ⟨e, hsome, rfl⟩
    · rw [outline_cons_of_mem hr ht, he]
      exact ih taken
    · have hname : rule.target ∉ reg.names := Registry.get?_eq_none_iff.mp hl
      rw [outline_cons_of_not_mem hr ht, missing?_list_of_not_mem hname, he]
      exact Or.inr ⟨⟨rule.value⟩, rfl, rfl⟩
    · have hname : rule.target ∈ reg.names := Registry.mem_names_iff.mpr ⟨l, hl⟩
      rw [outline_cons_of_not_mem hr ht, missing?_list_of_mem hname, he]
      rcases ih (rule.target :: taken) with ⟨hnone, hp⟩ | ⟨e, hsome, hp⟩
      · rw [hp, listNames_list, List.flatMap_cons, Item.rules, Registry.rulesOf_eq hl]
        exact Or.inl ⟨hnone, rfl⟩
      · rw [hp]
        exact Or.inr ⟨e, hsome, rfl⟩

/-! ### Rules with one outline -/

/-- No pass tells the rules apart. -/
def Indistinct (rules rules' : List Rule) : Prop :=
  ∀ taken, outline taken rules = outline taken rules'

theorem Indistinct.refl (rules : List Rule) : Indistinct rules rules := fun _ => rfl

theorem Indistinct.append {u u' v v' : List Rule} (hu : Indistinct u u') (hv : Indistinct v v') :
    Indistinct (u ++ v) (u' ++ v') := fun taken => by
  rw [outline_append, outline_append, hu taken, hv]

/-- Under every name both registries have lists with indistinct rules, or both have none. -/
def IndistinctLists (reg reg' : Registry) : Prop :=
  ∀ name, Option.Rel (fun l l' => Indistinct l.rules l'.rules) (reg.get? name) (reg'.get? name)

variable {reg reg' : Registry} {rules rules' : List Rule} {taken : List String} {items : List Item}

theorem optionRel_cases {α : Type} {R : α → α → Prop} {o o' : Option α} (h : Option.Rel R o o') :
    (o = none ∧ o' = none) ∨ ∃ a b, o = some a ∧ o' = some b ∧ R a b := by
  cases h with
  | none => exact Or.inl ⟨rfl, rfl⟩
  | some h => exact Or.inr ⟨_, _, rfl, rfl, h⟩

theorem IndistinctLists.rulesOf (h : IndistinctLists reg reg') (name : String) :
    Indistinct (reg.rulesOf name) (reg'.rulesOf name) := by
  rcases optionRel_cases (h name) with ⟨hl, hl'⟩ | ⟨l, l', hl, hl', hrules⟩
  · rw [Registry.rulesOf, Registry.rulesOf, hl, hl']
    exact .refl []
  · rw [Registry.rulesOf_eq hl, Registry.rulesOf_eq hl']
    exact hrules

theorem IndistinctLists.mem_names_iff (h : IndistinctLists reg reg') (name : String) :
    name ∈ reg'.names ↔ name ∈ reg.names := by
  rw [Registry.mem_names_iff, Registry.mem_names_iff]
  rcases optionRel_cases (h name) with ⟨hl, hl'⟩ | ⟨l, l', hl, hl', -⟩
  · simp [hl, hl']
  · simp [hl, hl']

theorem IndistinctLists.missing?_eq (h : IndistinctLists reg reg') (items : List Item) :
    missing? reg' items = missing? reg items := by
  rw [missing?, missing?]
  congr 1
  funext name
  rw [decide_eq_decide, h.mem_names_iff]

theorem IndistinctLists.flatMap (h : IndistinctLists reg reg') (items : List Item) :
    Indistinct (items.flatMap (Item.rules reg)) (items.flatMap (Item.rules reg')) := by
  induction items with
  | nil => exact .refl []
  | cons item items ih =>
    rw [List.flatMap_cons, List.flatMap_cons]
    cases item with
    | rule r => exact .append (.refl [r]) ih
    | list name => exact .append (h.rulesOf name) ih

/-- Items without names are the same rules in all registries. -/
theorem flatMap_rules_eq (h : listNames items = []) (reg reg' : Registry) :
    items.flatMap (Item.rules reg) = items.flatMap (Item.rules reg') := by
  induction items with
  | nil => rfl
  | cons item items ih =>
    cases item with
    | rule r =>
      rw [List.flatMap_cons, List.flatMap_cons, ih h]
      rfl
    | list name => cases h

/-! ### Expansions of indistinct rules -/

/-- **A pass over indistinct rules** fails in both registries with values of one name, or it takes
in the same names in both. -/
theorem pass_indistinct (hreg : IndistinctLists reg reg') (hrules : Indistinct rules rules')
    (taken : List String) :
    (∃ p p', pass reg taken rules = .ok p ∧ pass reg' taken rules' = .ok p' ∧
      p'.fresh = p.fresh ∧ Indistinct p.rules p'.rules ∧ (p.fresh = [] → p'.rules = p.rules)) ∨
    ∃ e e' : MissingList, pass reg taken rules = .error e ∧ pass reg' taken rules' = .error e' ∧
      Text.uppercase e'.value = Text.uppercase e.value := by
  have hcases := pass_cases reg taken rules
  have hcases' := pass_cases reg' taken rules'
  rw [← hrules taken, hreg.missing?_eq] at hcases'
  rcases hcases with ⟨hnone, hp⟩ | ⟨e, hsome, hp⟩ <;>
    rcases hcases' with ⟨hnone', hp'⟩ | ⟨e', hsome', hp'⟩
  · exact Or.inl ⟨_, _, hp, hp', rfl, hreg.flatMap _, fun hf => flatMap_rules_eq hf reg' reg⟩
  · rw [hnone] at hsome'; cases hsome'
  · rw [hsome] at hnone'; cases hnone'
  · exact Or.inr ⟨e, e', hp, hp', Option.some.inj (hsome'.symm.trans hsome)⟩

/-- The passes over `rules` and over indistinct ones are what is left of the passes over `root` and
`root'`. -/
structure Twin (reg reg' : Registry) (root root' : List Rule) (taken : List String)
    (rules : List Rule) : Prop where
  left : passes reg [] root = passes reg taken rules
  right : ∃ rules', passes reg' [] root' = passes reg' taken rules' ∧ Indistinct rules rules'

theorem Twin.step {root root' : List Rule} {p : Pass} (hreg : IndistinctLists reg reg')
    (h : Twin reg reg' root root' taken rules) (hp : PassOk reg taken rules p)
    (hf : p.fresh ≠ []) : Twin reg reg' root root' (taken ++ p.fresh) p.rules := by
  refine ⟨h.left.trans (hp.passes_eq hf), ?_⟩
  obtain ⟨rules', hrun, hrules⟩ := h.right
  rcases pass_indistinct hreg hrules taken with ⟨q, p', hq, hp', hfresh, hind, -⟩ | ⟨e, -, he, -, -⟩
  · obtain rfl := Except.ok.inj (hp.eq_ok.symm.trans hq)
    have hstep := (ok_of_pass hp').passes_eq (by rwa [hfresh])
    exact ⟨p'.rules, hrun.trans (by rw [hstep, hfresh]), hind⟩
  · rw [hp.eq_ok] at he; cases he

/-- **Indistinct rules are expanded alike**: both expansions end well with the same names and the
same rules, or both fail with values of one name. -/
theorem passes_indistinct {root root' : List Rule} (hreg : IndistinctLists reg reg')
    (hroot : Indistinct root root') :
    (∃ x, passes reg [] root = .ok x ∧ passes reg' [] root' = .ok x) ∨
    ∃ e e' : MissingList, passes reg [] root = .error e ∧ passes reg' [] root' = .error e' ∧
      Text.uppercase e'.value = Text.uppercase e.value := by
  obtain ⟨-, taken, rules, h, hend⟩ :=
    @passes_run reg [] root (fun _ => Twin reg reg' root root')
      (fun h hp hf => h.step hreg hp hf) 0 ⟨rfl, root', rfl, hroot⟩
  obtain ⟨rules', hrun', hrules⟩ := h.right
  rcases pass_indistinct hreg hrules taken with
    ⟨p, p', hp, hp', hfresh, -, hlast⟩ | ⟨e, e', he, he', hvalue⟩
  · rcases hend with ⟨out, hout, hrun⟩ | ⟨e, hfail, -⟩
    · obtain rfl := Except.ok.inj (hout.eq_ok.symm.trans hp)
      obtain ⟨fresh, out'⟩ := p'
      obtain rfl : fresh = [] := hfresh
      obtain rfl : out' = out := hlast rfl
      exact Or.inl ⟨_, hrun, hrun'.trans (passes_of_last (ok_of_pass hp'))⟩
    · rw [hfail] at hp; cases hp
  · rcases hend with ⟨out, hout, -⟩ | ⟨e₁, hfail, hrun⟩
    · rw [hout.eq_ok] at he; cases he
    · obtain rfl := Except.error.inj (hfail.symm.trans he)
      exact Or.inr ⟨_, e', hrun, hrun'.trans (passes_of_error he'), hvalue⟩

/-! ### Edits -/

/-- **An edit of an inclusion** among the rules of a list. -/
inductive Edit : List Rule → List Rule → Prop
  /-- Another spelling of the name. -/
  | spelling {u v : List Rule} {r : Rule} (hr : r.isInclusion) (value : String)
      (h : Text.uppercase value = Text.uppercase r.value) :
      Edit (u ++ r :: v) (u ++ { r with value } :: v)
  /-- Other attributes, or none. -/
  | attributes {u v : List Rule} {r : Rule} (hr : r.isInclusion) (attributes : List Attribute) :
      Edit (u ++ r :: v) (u ++ { r with attributes } :: v)
  /-- No inclusion of a name that an inclusion before it has. -/
  | omission {u v : List Rule} {r : Rule} (hr : r.isInclusion) (h : r.target ∈ targets u) :
      Edit (u ++ r :: v) (u ++ v)

/-- Any number of edits, one after the other. -/
def Edited : List Rule → List Rule → Prop := Relation.ReflTransGen Edit

/-- Of an inclusion only the target is seen. -/
theorem outline_cons_congr {r r' : Rule} (hr : r.isInclusion) (hr' : r'.isInclusion)
    (ht : r'.target = r.target) (rs : List Rule) :
    outline taken (r' :: rs) = outline taken (r :: rs) := by
  rw [outline, outline, if_pos hr, if_pos hr', ht]

theorem Edit.indistinct (h : Edit rules rules') : Indistinct rules rules' := by
  intro taken
  cases h with
  | @spelling u v r hr value hvalue =>
    have hr' : ({ r with value } : Rule).isInclusion := hr
    rw [outline_append, outline_append, outline_cons_congr hr' hr hvalue.symm]
  | @attributes u v r hr attributes =>
    have hr' : ({ r with attributes } : Rule).isInclusion := hr
    rw [outline_append, outline_append, outline_cons_congr hr' hr rfl]
  | @omission u v r hr ht =>
    have hmem : r.target ∈ (listNames (outline taken u)).reverse ++ taken := by
      rw [List.mem_append, List.mem_reverse]
      exact mem_listNames_of_mem_targets ht
    rw [outline_append, outline_append, outline_cons_of_mem hr hmem]

theorem Edited.indistinct (h : Edited rules rules') : Indistinct rules rules' := by
  induction h with
  | refl => exact .refl rules
  | tail _ hedit ih => exact fun taken => (ih taken).trans (hedit.indistinct taken)

end Expansion

open Expansion

namespace RuleList

/-- **Inclusions count by their target and once in a list.** Where in the root and in the lists of
the registry the names of inclusions are spelled otherwise, their attributes are changed, or
inclusions are left out behind others of the same name, the expansion stays the same: it takes in
the same names and has the same rules in the same order, or it fails with a value of the same
name. -/
theorem resolve_edited {root root' : RuleList} {reg reg' : Registry}
    (hname : root'.name = root.name) (hroot : Edited root.rules root'.rules)
    (hreg : ∀ name, Option.Rel (fun l l' : RuleList => Edited l.rules l'.rules)
      (reg.get? name) (reg'.get? name)) :
    (∀ x, root.resolve reg = .ok x ↔ root'.resolve reg' = .ok x) ∧
    ∀ e, root.resolve reg = .error e → ∃ e', root'.resolve reg' = .error e' ∧
      Text.uppercase e'.value = Text.uppercase e.value := by
  have hlists : IndistinctLists reg reg' := fun name => by
    rcases optionRel_cases (hreg name) with ⟨hl, hl'⟩ | ⟨l, l', hl, hl', h⟩
    · rw [hl, hl']
      exact .none
    · rw [hl, hl']
      exact .some h.indistinct
  rcases passes_indistinct hlists hroot.indistinct with ⟨y, hy, hy'⟩ | ⟨e, e', he, he', hvalue⟩
  · rw [resolve_of_ok hy, resolve_of_ok hy', hname]
    exact ⟨fun x => Iff.rfl, fun e he => by cases he⟩
  · rw [resolve_of_error he, resolve_of_error he']
    refine ⟨fun x => ⟨fun hx => (by cases hx), fun hx => (by cases hx)⟩, fun e₁ h => ?_⟩
    obtain rfl := Except.error.inj h
    exact ⟨e', rfl, hvalue⟩

end RuleList

/-- The cycle with its inclusions repeated and spelled in capital letters. -/
def Registry.looseCycle : Registry := .ofList
  [⟨"A", .site, [⟨.inclusion, "B", []⟩, ⟨.domain, "x", []⟩, ⟨.inclusion, "b", []⟩]⟩,
    ⟨"B", .site, [⟨.inclusion, "a", [⟨"@t", .flag true⟩]⟩, ⟨.inclusion, "b", []⟩,
      ⟨.full, "z", []⟩]⟩]

/-- The root of the cycle with its inclusion twice. -/
def RuleList.looseRoot : RuleList :=
  ⟨"A", .site, [⟨.inclusion, "b", [⟨"@t", .number 1⟩]⟩, ⟨.domain, "r", []⟩, ⟨.inclusion, "B", []⟩]⟩

/-- The loose cycle expands as the cycle does. -/
theorem RuleList.resolve_edited_loose :
    (∀ name, Option.Rel (fun l l' : RuleList => Edited l.rules l'.rules)
      (Registry.looseCycle.get? name) (Registry.cycle.get? name)) ∧
    Edited looseRoot.rules cycleRoot.rules ∧
    looseRoot.resolve .looseCycle =
      .ok ⟨"A", ["B", "A"], [⟨.domain, "x", []⟩, ⟨.full, "z", []⟩, ⟨.domain, "r", []⟩]⟩ := by
  have hroot : Edited looseRoot.rules cycleRoot.rules :=
    .head (@Edit.omission [⟨.inclusion, "b", [⟨"@t", .number 1⟩]⟩, ⟨.domain, "r", []⟩] []
      ⟨.inclusion, "B", []⟩ rfl (by decide))
      (.single (@Edit.attributes [] [⟨.domain, "r", []⟩] ⟨.inclusion, "b", _⟩ rfl []))
  have hA : Edited [⟨.inclusion, "B", []⟩, ⟨.domain, "x", []⟩, ⟨.inclusion, "b", []⟩]
      [⟨.inclusion, "b", []⟩, ⟨.domain, "x", []⟩] :=
    .head (@Edit.omission [⟨.inclusion, "B", []⟩, ⟨.domain, "x", []⟩] [] ⟨.inclusion, "b", []⟩ rfl
      (by decide))
      (.single (@Edit.spelling [] [⟨.domain, "x", []⟩] ⟨.inclusion, "B", []⟩ rfl "b" (by decide)))
  have hB : Edited
      [⟨.inclusion, "a", [⟨"@t", .flag true⟩]⟩, ⟨.inclusion, "b", []⟩, ⟨.full, "z", []⟩]
      [⟨.inclusion, "a", []⟩, ⟨.inclusion, "b", []⟩, ⟨.full, "z", []⟩] :=
    .single (@Edit.attributes [] [⟨.inclusion, "b", []⟩, ⟨.full, "z", []⟩] ⟨.inclusion, "a", _⟩ rfl
      [])
  have hreg : ∀ name, Option.Rel (fun l l' : RuleList => Edited l.rules l'.rules)
      (Registry.looseCycle.get? name) (Registry.cycle.get? name) := by
    intro name
    by_cases h1 : name = "A"
    · subst h1
      exact .some hA
    · by_cases h2 : name = "B"
      · subst h2
        exact .some hB
      · have hloose : Registry.looseCycle.names = ["A", "B"] := by decide
        have hcycle : Registry.cycle.names = ["A", "B"] := by decide
        have hnone : name ∉ ["A", "B"] := by simp [h1, h2]
        rw [Registry.get?_eq_none_iff.mpr (hloose ▸ hnone),
          Registry.get?_eq_none_iff.mpr (hcycle ▸ hnone)]
        exact .none
  obtain ⟨hok, -⟩ := @resolve_edited looseRoot cycleRoot _ _ rfl hroot hreg
  exact ⟨hreg, hroot, (hok _).mpr resolve_cycleRoot⟩

end GeoRules
