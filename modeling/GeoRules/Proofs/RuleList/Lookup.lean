import GeoRules.RuleList.Registry
import Mathlib.Data.List.Nodup

/-! # Looking up lists

A name leads to the one list that stands under it, or to none; a list that is inserted or dropped
changes what its own name leads to and nothing else. `rulesOf` is the body that a name leads to,
empty if no list has the name. -/

namespace GeoRules.Registry

variable {reg : Registry} {name : String} {l : RuleList}

theorem mem_of_get? (h : reg.get? name = some l) : l ∈ reg.lists := List.mem_of_find?_eq_some h

theorem name_of_get? (h : reg.get? name = some l) : l.name = name := by
  simpa using List.find?_some h

theorem get?_name (hl : l ∈ reg.lists) : reg.get? l.name = some l := by
  cases h : reg.get? l.name with
  | none => exact absurd (List.find?_eq_none.mp h l hl) (by simp)
  | some m =>
    have he : m = l := List.inj_on_of_nodup_map reg.nodup (mem_of_get? h) hl (name_of_get? h)
    rw [he]

theorem mem_names_iff : name ∈ reg.names ↔ ∃ l, reg.get? name = some l := by
  rw [names, List.mem_map]
  constructor
  · rintro ⟨l, hl, rfl⟩; exact ⟨l, get?_name hl⟩
  · rintro ⟨l, h⟩; exact ⟨l, mem_of_get? h, name_of_get? h⟩

theorem get?_eq_none_iff : reg.get? name = none ↔ name ∉ reg.names := by
  rw [mem_names_iff, Option.eq_none_iff_forall_ne_some, not_exists]

/-! ### Lists inserted and dropped -/

theorem find?_put (l : RuleList) (name : String) (ls : List RuleList) :
    (put l ls).find? (·.name = name) =
      if name = l.name then some l else ls.find? (·.name = name) := by
  induction ls with
  | nil =>
    by_cases hname : name = l.name
    · simp [put, hname]
    · simp [put, hname, Ne.symm hname]
  | cons m ms ih =>
    rw [put]
    by_cases hm : m.name = l.name
    · rw [if_pos hm, List.find?_cons, List.find?_cons, hm]
      by_cases hname : name = l.name
      · simp [hname]
      · simp [hname, Ne.symm hname]
    · rw [if_neg hm, List.find?_cons, List.find?_cons, ih]
      by_cases hname : name = l.name
      · simp [hname, hm]
      · simp [hname]

theorem get?_insert (reg : Registry) (l : RuleList) (name : String) :
    (reg.insert l).get? name = if name = l.name then some l else reg.get? name :=
  find?_put l name reg.lists

/-- The registry without the list of the name. -/
def erase (reg : Registry) (name : String) : Registry where
  lists := reg.lists.filter (·.name ≠ name)
  nodup := reg.nodup.sublist (List.filter_sublist.map _)

theorem get?_erase_of_ne {name' : String} (h : name' ≠ name) :
    (reg.erase name).get? name' = reg.get? name' := by
  rw [get?, get?, erase, List.find?_filter]
  refine congrArg (List.find? · reg.lists) (funext fun l => ?_)
  by_cases hl : l.name = name'
  · simp [hl, h]
  · simp [hl]

/-! ### The body that a name leads to -/

/-- The rules of the list of the name. -/
def rulesOf (reg : Registry) (name : String) : List Rule :=
  match reg.get? name with
  | none => []
  | some l => l.rules

theorem rulesOf_eq (h : reg.get? name = some l) : reg.rulesOf name = l.rules := by
  rw [rulesOf, h]

theorem flatMap_rulesOf_names (reg : Registry) :
    reg.names.flatMap reg.rulesOf = reg.lists.flatMap RuleList.rules := by
  have h : (reg.lists.map RuleList.name).map reg.rulesOf = reg.lists.map RuleList.rules := by
    rw [List.map_map]
    exact List.map_congr_left fun l hl => rulesOf_eq (get?_name hl)
  rw [names, List.flatMap_def, h, List.flatMap_def]

end GeoRules.Registry
