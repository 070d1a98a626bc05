import GeoRules.RuleList.Registry

/-!
# Expanding inclusions

The rules of a list are expanded in passes. A pass puts the rules of the included list in the place
of every inclusion; the inclusions that come in with them wait for the next pass. A list is taken in
at the first inclusion of its name only, and the other inclusions of it are dropped; a name that no
list has ends the expansion. A pass that takes nothing in is the last: each pass before it takes in
a name of the registry that no pass took in before, so there are at most as many of them as lists.
-/

namespace GeoRules

/-- An inclusion whose list is missing, with the value that names it. -/
structure MissingList where
  value : String
  deriving DecidableEq, Repr

/-- The wording of the error. -/
def MissingList.message (e : MissingList) : String := e.value ++ " not found"

namespace Expansion

/-! ### One pass -/

/-- The outcome of a pass: the names it takes in, in order, and the rules it leaves. -/
structure Pass where
  fresh : List String
  rules : List Rule
  deriving DecidableEq, Repr

/-- One pass over rules after the names in `taken` were taken in. -/
def pass (reg : Registry) (taken : List String) : List Rule → Except MissingList Pass
  | [] => .ok ⟨[], []⟩
  | rule :: rules =>
    if rule.isInclusion then
      if rule.target ∈ taken then pass reg taken rules
      else match reg.get? rule.target with
        | none => .error ⟨rule.value⟩
        | some l => match pass reg (rule.target :: taken) rules with
          | .error e => .error e
          | .ok p => .ok ⟨rule.target :: p.fresh, l.rules ++ p.rules⟩
    else match pass reg taken rules with
      | .error e => .error e
      | .ok p => .ok ⟨p.fresh, rule :: p.rules⟩

/-- A pass takes in names of the registry that were not taken in before. -/
theorem mem_fresh {reg : Registry} {taken : List String} {rules : List Rule} {p : Pass}
    (h : pass reg taken rules = .ok p) {name : String} (hn : name ∈ p.fresh) :
    name ∈ reg.names ∧ name ∉ taken := by
  induction rules generalizing taken p with
  | nil => simp only [pass, Except.ok.injEq] at h; simp [← h] at hn
  | cons rule rules ih =>
    rw [pass] at h
    split at h
    · split at h
      · exact ih h hn
      · next ht =>
        split at h
        · cases h
        · next l hl =>
          split at h
          · cases h
          · next q hq =>
            obtain rfl := Except.ok.inj h
            rcases List.mem_cons.1 hn with rfl | hn
            · refine ⟨?_, ht⟩
              have := List.find?_some hl
              exact List.mem_map.2 ⟨l, List.mem_of_find?_eq_some hl, by simpa using this⟩
            · exact ⟨(ih hq hn).1, fun hm => (ih hq hn).2 (List.mem_cons_of_mem _ hm)⟩
    · split at h
      · cases h
      · next q hq =>
        obtain rfl := Except.ok.inj h
        exact ih hq hn

/-! ### All passes -/

/-- The names of the registry that were not taken in. -/
def remaining (reg : Registry) (taken : List String) : List String :=
  reg.names.filter (· ∉ taken)

theorem length_remaining_lt {reg : Registry} {taken fresh : List String} {name : String}
    (hn : name ∈ fresh) (hr : name ∈ reg.names) (ht : name ∉ taken) :
    (remaining reg (taken ++ fresh)).length < (remaining reg taken).length := by
  have h : remaining reg (taken ++ fresh) = (remaining reg taken).filter (· ∉ fresh) := by
    simp [remaining, List.filter_filter, Bool.and_comm]
  rw [h]
  refine Nat.lt_of_le_of_ne (List.length_filter_le _ _) fun he => ?_
  have := List.length_filter_eq_length_iff.1 he name (by simp [remaining, hr, ht])
  simp [hn] at this

/-- The outcome of an expansion: the names taken in, in order, and the rules without inclusions. -/
structure Expanded where
  taken : List String
  rules : List Rule
  deriving DecidableEq, Repr

/-- The passes over rules after the names in `taken` were taken in. -/
def passes (reg : Registry) (taken : List String) (rules : List Rule) :
    Except MissingList Expanded :=
  match _h : pass reg taken rules with
  | .error e => .error e
  | .ok p => match _hf : p.fresh with
    | [] => .ok ⟨taken, p.rules⟩
    | name :: names => passes reg (taken ++ name :: names) p.rules
termination_by (remaining reg taken).length
decreasing_by
  have hm : name ∈ reg.names ∧ name ∉ taken :=
    mem_fresh ‹pass reg taken rules = .ok p› (by simp [*])
  exact length_remaining_lt List.mem_cons_self hm.1 hm.2

end Expansion

/-- A list whose inclusions are expanded, with the names of the lists taken in. -/
structure ResolvedList where
  name : String
  taken : List String
  rules : List Rule
  deriving DecidableEq, Repr

/-- The list with its inclusions expanded against the registry. Its own name is not taken in at
first, so a list that reaches itself takes in the list of its name once. -/
def RuleList.resolve (l : RuleList) (reg : Registry) : Except MissingList ResolvedList :=
  match Expansion.passes reg [] l.rules with
  | .error e => .error e
  | .ok x => .ok ⟨l.name, x.taken, x.rules⟩

end GeoRules
