import GeoRules.Rule.Basic

/-!
# Registries: rule lists under their names

A registry holds at most one list of each name, in the order in which the names came in. A list that
is inserted under a name that is taken replaces the one before it.
-/

namespace GeoRules

/-- Rule lists with pairwise distinct names. -/
structure Registry where
  lists : List RuleList
  nodup : (lists.map RuleList.name).Nodup

namespace Registry

/-- The registry without lists. -/
def empty : Registry := ⟨[], by simp⟩

instance : Inhabited Registry := ⟨empty⟩

/-- The names of the lists. -/
def names (reg : Registry) : List String := reg.lists.map RuleList.name

/-- The list of the name. -/
def get? (reg : Registry) (name : String) : Option RuleList :=
  reg.lists.find? (·.name = name)

/-- The number of lists. -/
def size (reg : Registry) : Nat := reg.lists.length

/-- The lists with `l` in the place of the one of its name. -/
def put (l : RuleList) : List RuleList → List RuleList
  | [] => [l]
  | m :: ms => if m.name = l.name then l :: ms else m :: put l ms

theorem map_name_put (l : RuleList) (ls : List RuleList) :
    (put l ls).map RuleList.name =
      if l.name ∈ ls.map RuleList.name then ls.map RuleList.name
      else ls.map RuleList.name ++ [l.name] := by
  induction ls with
  | nil => simp [put]
  | cons m ms ih =>
    by_cases h : m.name = l.name
    · simp [put, h]
    · have h' : l.name ≠ m.name := fun e => h e.symm
      rw [put, if_neg h, List.map_cons, ih]
      split <;> simp_all

/-- The registry with `l` under its name. -/
def insert (reg : Registry) (l : RuleList) : Registry where
  lists := put l reg.lists
  nodup := by
    rw [map_name_put]
    split
    · exact reg.nodup
    · next h =>
      exact List.nodup_append.2 ⟨reg.nodup, by simp, fun a ha b hb =>
        fun e => h (by simp_all)⟩

/-- The registry of lists inserted one after the other. -/
def ofList (ls : List RuleList) : Registry := ls.foldl insert empty

end Registry

end GeoRules
