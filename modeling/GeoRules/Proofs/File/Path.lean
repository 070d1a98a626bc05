import GeoRules.File.Path
import GeoRules.Proofs.Text.Cut
import Mathlib.Data.Nat.Notation

/-! # Names in joined paths

The names in a path have no slash. A path joined from a directory and a name has the names of the
directory and then that name (`pathNames_join`), and one joined from a directory and the names below
it has all of these (`pathNames_join_intercalate`). -/

namespace GeoRules.File

/-- A name that leads on to something: it is no part of a path with several names, and it is not one
of those that lead nowhere else or back. -/
def ProperName (name : String) : Prop :=
  staysPut name = false ∧ name ≠ ".." ∧ '/' ∉ name.toList

instance (name : String) : Decidable (ProperName name) :=
  inferInstanceAs (Decidable (staysPut name = false ∧ name ≠ ".." ∧ '/' ∉ name.toList))

theorem ProperName.ne_empty {name : String} (h : ProperName name) : name ≠ "" := by
  rintro rfl
  exact absurd h.1 (by decide)

/-! ### Names in a path -/

/-- The names in a directory's path, without the empty one that a slash at its end leaves. -/
def directoryNames (dir : String) : List String :=
  ((dir.toList.splitOn '/').filter (· ≠ [])).map String.ofList

theorem not_mem_of_mem_directoryNames {dir name : String} (h : name ∈ directoryNames dir) :
    '/' ∉ name.toList := by
  obtain ⟨part, hpart, rfl⟩ := List.mem_map.mp h
  rw [String.toList_ofList]
  exact Text.not_mem_of_mem_splitOn (List.mem_filter.mp hpart).1

theorem not_mem_of_mem_pathNames {path name : String} (h : name ∈ pathNames path) :
    '/' ∉ name.toList := by
  unfold pathNames at h
  split at h
  · rcases List.mem_append.mp h with h | h
    · exact not_mem_of_mem_directoryNames h
    · simp_all
  · exact not_mem_of_mem_directoryNames h

/-! ### Joined paths -/

theorem toList_join (dir name : String) : (join dir name).toList =
    if dir = "" ∨ dir.toList.getLast? = some '/' then dir.toList ++ name.toList
    else dir.toList ++ '/' :: name.toList := by
  unfold join
  split <;> simp

section Join
variable {dir name : String}

theorem directoryNames_eq_singleton (h : name ≠ "") (hslash : '/' ∉ name.toList) :
    directoryNames name = [name] := by
  have hname : name.toList ≠ [] := fun he => h (String.toList_eq_nil_iff.mp he)
  simp [directoryNames, List.splitOn_eq_singleton hslash, hname]

/-- The names in a joined path are those in both parts. -/
theorem directoryNames_join (dir path : String) :
    directoryNames (join dir path) = directoryNames dir ++ directoryNames path := by
  unfold directoryNames
  rw [toList_join]
  split
  · next hdir =>
    rcases hdir with rfl | hlast
    · simp
    · obtain ⟨parts, hparts⟩ := List.getLast?_eq_some_iff.mp hlast
      rw [hparts, List.append_assoc, List.singleton_append, List.splitOn_append_cons_self,
        List.splitOn_append_cons_self]
      simp
  · rw [List.splitOn_append_cons_self]
    simp

/-- A path joined with one that does not end with a slash has no empty name at its end. -/
theorem pathNames_join_path {path : String} (h : path ≠ "")
    (hlast : path.toList.getLast? ≠ some '/') :
    pathNames (join dir path) = directoryNames dir ++ directoryNames path := by
  have hpath : path.toList ≠ [] := fun he => h (String.toList_eq_nil_iff.mp he)
  have hend : (join dir path).toList.getLast? = path.toList.getLast? := by
    rw [toList_join, List.getLast?_eq_some_getLast hpath]
    split
    · rw [List.getLast?_append, List.getLast?_eq_some_getLast hpath, Option.some_or]
    · rw [List.getLast?_append, List.getLast?_cons, List.getLast?_eq_some_getLast hpath]
      rfl
  rw [← directoryNames_join]
  exact if_neg (hend ▸ hlast)

theorem pathNames_join (h : name ≠ "") (hslash : '/' ∉ name.toList) :
    pathNames (join dir name) = directoryNames dir ++ [name] := by
  rw [pathNames_join_path h fun he => hslash (List.mem_of_getLast? he),
    directoryNames_eq_singleton h hslash]

/-- A path joined with one that starts at no root starts where the directory starts. -/
theorem isAbsolute_join {path : String} (h : isAbsolute path = false) :
    isAbsolute (join dir path) = isAbsolute dir := by
  unfold isAbsolute at h ⊢
  rw [toList_join]
  by_cases hdir : dir = ""
  · simp_all
  · have hne : dir.toList ≠ [] := fun he => hdir (String.toList_eq_nil_iff.mp he)
    split
    · rw [List.head?_append_of_ne_nil _ hne]
    · rw [List.head?_append_of_ne_nil _ hne]

theorem ProperName.isAbsolute_eq_false (h : ProperName name) : isAbsolute name = false := by
  rw [isAbsolute, decide_eq_false_iff_not]
  exact fun he => h.2.2 (List.mem_of_mem_head? he)

end Join

/-! ### Paths below a directory -/

section Below
variable {names : List String}

theorem splitOn_intercalate_names (h : ∀ name ∈ names, ProperName name) (hne : names ≠ []) :
    ("/".intercalate names).toList.splitOn '/' = names.map String.toList := by
  have hslash : ∀ part ∈ names.map String.toList, '/' ∉ part := by
    intro part hpart
    obtain ⟨name, hname, rfl⟩ := List.mem_map.mp hpart
    exact (h name hname).2.2
  rw [String.toList_intercalate]
  exact List.splitOn_intercalate '/' hslash (by simpa using hne)

theorem intercalate_ne_empty (h : ∀ name ∈ names, ProperName name) (hne : names ≠ []) :
    "/".intercalate names ≠ "" := by
  intro he
  have hparts := splitOn_intercalate_names h hne
  rw [he, String.toList_empty, List.splitOn_nil] at hparts
  rcases names with _ | ⟨name, names⟩
  · exact hne rfl
  · have hname : [] = name.toList := (List.cons.inj hparts).1
    exact (h name List.mem_cons_self).ne_empty (String.toList_eq_nil_iff.mp hname.symm)

theorem directoryNames_intercalate (h : ∀ name ∈ names, ProperName name) (hne : names ≠ []) :
    directoryNames ("/".intercalate names) = names := by
  have hproper : ∀ part ∈ names.map String.toList, part ≠ [] := by
    intro part hpart
    obtain ⟨name, hname, rfl⟩ := List.mem_map.mp hpart
    exact fun he => (h name hname).ne_empty (String.toList_eq_nil_iff.mp he)
  rw [directoryNames, splitOn_intercalate_names h hne,
    List.filter_eq_self.mpr fun part hpart => decide_eq_true (hproper part hpart), List.map_map]
  simp

/-- Neither end of the path of names is a slash. -/
theorem ends_intercalate (h : ∀ name ∈ names, ProperName name) (hne : names ≠ []) :
    isAbsolute ("/".intercalate names) = false ∧
      ("/".intercalate names).toList.getLast? ≠ some '/' := by
  have hparts := splitOn_intercalate_names h hne
  have hempty : [] ∉ names.map String.toList := by
    intro he
    obtain ⟨name, hname, he⟩ := List.mem_map.mp he
    exact (h name hname).ne_empty (String.toList_eq_nil_iff.mp he)
  constructor
  · rw [isAbsolute, decide_eq_false_iff_not]
    intro he
    obtain ⟨rest, hrest⟩ := List.head?_eq_some_iff.mp he
    rw [hrest, ← List.nil_append ('/' :: rest), List.splitOn_append_cons_self] at hparts
    exact hempty (hparts ▸ by simp)
  · intro he
    obtain ⟨rest, hrest⟩ := List.getLast?_eq_some_iff.mp he
    rw [hrest, List.splitOn_append_cons_self] at hparts
    exact hempty (hparts ▸ by simp)

/-- The names in the path of what lies below a directory. -/
theorem pathNames_join_intercalate {dir : String} (h : ∀ name ∈ names, ProperName name)
    (hne : names ≠ []) :
    pathNames (join dir ("/".intercalate names)) = directoryNames dir ++ names := by
  rw [pathNames_join_path (intercalate_ne_empty h hne) (ends_intercalate h hne).2,
    directoryNames_intercalate h hne]

/-- The last name in that path is the last of these names. -/
theorem fileName_join_intercalate {dir last : String} (h : ∀ name ∈ names, ProperName name)
    (hlast : names.getLast? = some last) :
    fileName (join dir ("/".intercalate names)) = last := by
  have hne : names ≠ [] := by
    rintro rfl
    cases hlast
  have hproper := h last (List.mem_of_getLast? hlast)
  obtain ⟨before, rfl⟩ := List.getLast?_eq_some_iff.mp hlast
  rw [fileName, pathNames_join_intercalate h hne, ← List.append_assoc, List.filter_append,
    List.filter_singleton, hproper.1]
  simp [hproper.2.1]

end Below

end GeoRules.File
