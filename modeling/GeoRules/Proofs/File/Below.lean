import GeoRules.Proofs.File.Walk
import Mathlib.Data.List.Induction

/-! # Paths of what lies below a directory

Who reads walks along the names of a directory and then along those behind them
(`walk_read_append`). In a well-formed file system all places on the way to one that exists are
directories, so the path joined from a directory and the names below it leads to the place of these
names, unless the path or a name is too long (`WellFormed.locate_below`). -/

namespace GeoRules.File.FileSystem

variable {fs : FileSystem} {links : ℕ} {place root : Place} {path : String}
  {names tail : List String}

/-! ### Walking on from a directory -/

/-- For those who read, a name leads on whatever names are behind it, or it never does. -/
theorem step_read_cases (fs : FileSystem) (links : ℕ) (place : Place) (name : String) :
    (∃ links' place' new, ∀ names,
      fs.step .read links place name names = .go links' place' (new ++ names)) ∨
    ∀ names links' place' names',
      fs.step .read links place name names ≠ .go links' place' names' := by
  unfold step
  by_cases hstay : staysPut name
  · exact Or.inl ⟨links, place, [], fun names => if_pos hstay⟩
  by_cases hup : name = ".."
  · exact Or.inl ⟨links, place.dropLast, [], fun names => by
      rw [if_neg hstay, if_pos hup, List.nil_append]⟩
  have hread : ∀ names : List String, ¬ (Purpose.read = .write ∧ names = [""]) := by simp
  simp only [if_neg hstay, if_neg hup, if_neg (hread _)]
  by_cases hsize : maxNameSize < name.utf8ByteSize
  · exact Or.inr fun names links' place' names' h => by
      rw [if_pos hsize] at h
      cases h
  simp only [if_neg hsize]
  unfold enter
  rcases fs.node? (place ++ [name]) with _ | ⟨bytes⟩ | _ | target
  · exact Or.inr fun names links' place' names' => by by_cases hn : names = [] <;> simp [hn]
  · exact Or.inr fun names links' place' names' => by by_cases hn : names = [] <;> simp [hn]
  · exact Or.inl ⟨links, place ++ [name], [], fun names => rfl⟩
  · by_cases htarget : target = ""
    · exact Or.inr fun names links' place' names' h => by simp [htarget] at h
    rcases links with _ | links
    · exact Or.inr fun names links' place' names' h => by simp [htarget] at h
    · exact Or.inl ⟨links, if isAbsolute target then [] else place, pathNames target,
        fun names => by simp [htarget]⟩

/-- **Names behind those of a directory** are walked from the directory on. A slash at its end is as
good as none. -/
theorem walk_read_append
    (h : fs.walk .read links place (names ++ tail) = .ok (root, some .directory))
    (htail : tail = [] ∨ tail = [""]) :
    ∃ links', ∀ rest,
      fs.walk .read links place (names ++ rest) = fs.walk .read links' root rest := by
  generalize hall : names ++ tail = all at h
  induction links, place, all using walk_rec fs .read generalizing names with
  | nil links place =>
    obtain ⟨rfl, -⟩ := List.append_eq_nil_iff.mp hall
    rw [walk_nil] at h
    obtain ⟨rfl, -⟩ := Prod.mk.inj (Except.ok.inj h)
    exact ⟨links, fun rest => rfl⟩
  | cons links place first behind ih =>
    rcases names with _ | ⟨first', names⟩
    · -- the slash at the end
      rw [List.nil_append] at hall
      rcases htail with rfl | rfl
      · cases hall
      · obtain ⟨rfl, rfl⟩ := List.cons.inj hall
        rw [walk_cons, step, if_pos (by decide)] at h
        simp only [walk_nil] at h
        obtain ⟨rfl, -⟩ := Prod.mk.inj (Except.ok.inj h)
        exact ⟨links, fun rest => rfl⟩
    · rw [List.cons_append] at hall
      obtain ⟨rfl, rfl⟩ := List.cons.inj hall
      rw [walk_cons] at h
      rcases step_read_cases fs links place first' with ⟨links', place', new, hstep⟩ | hstep
      · rw [hstep] at h
        dsimp only at h
        obtain ⟨links'', hwalk⟩ := ih links' place' _ (hstep _) (List.append_assoc ..) h
        refine ⟨links'', fun rest => ?_⟩
        rw [List.cons_append, walk_cons, hstep]
        dsimp only
        rw [← List.append_assoc, hwalk rest]
      · rcases hnext : fs.step .read links place first' (names ++ tail) with e | q | ⟨l, q, n⟩
        · rw [hnext] at h
          cases h
        · rw [hnext] at h
          obtain ⟨-, hnode⟩ := Prod.mk.inj (Except.ok.inj h)
          rcases (step_eq_stop hnext).2.2.2.2 with (hfile | ⟨bytes, hfile⟩) | hlook
          · rw [hfile] at hnode
            cases hnode
          · rw [hfile] at hnode
            cases hnode
          · cases hlook
        · exact absurd hnext (hstep _ _ _ _)

/-- A path below that of a directory is refused, or the names are walked from the directory on. -/
theorem locate_read_below (h : fs.locate .read path = .ok (root, some .directory))
    (hproper : ∀ name ∈ names, ProperName name) (hne : names ≠ []) :
    (∃ e, fs.locate .read (join path ("/".intercalate names)) = .error e) ∨
      ∃ links, fs.locate .read (join path ("/".intercalate names)) =
        fs.walk .read links root names := by
  rcases locate_cases (join path ("/".intercalate names)) with ⟨e, he⟩ | hbelow
  · exact Or.inl ⟨e, he fs .read⟩
  · rcases locate_cases path with ⟨e, he⟩ | hpath
    · rw [he] at h
      cases h
    · obtain ⟨tail, htail, hnames⟩ : ∃ tail, (tail = [] ∨ tail = [""]) ∧
          pathNames path = directoryNames path ++ tail := by
        unfold pathNames
        split
        · exact ⟨[""], Or.inr rfl, rfl⟩
        · exact ⟨[], Or.inl rfl, (List.append_nil _).symm⟩
      rw [hpath, hnames] at h
      obtain ⟨links, hwalk⟩ := walk_read_append h htail
      rw [hbelow, pathNames_join_intercalate hproper hne,
        isAbsolute_join (ends_intercalate hproper hne).1, hwalk names]
      exact Or.inr ⟨links, rfl⟩

/-- A walk along directories ends at the place of the names, unless one of them is too long. -/
theorem walk_read_directories (hproper : ∀ name ∈ names, ProperName name) (hne : names ≠ [])
    (hway : ∀ way, way ≠ [] → way <+: names → way ≠ names →
      fs.node? (root ++ way) = some .directory)
    (hend : ∀ target, fs.node? (root ++ names) ≠ some (.link target)) :
    (∃ e, fs.walk .read links root names = .error e) ∨
      fs.walk .read links root names = .ok (root ++ names, fs.node? (root ++ names)) := by
  induction names generalizing root with
  | nil => exact absurd rfl hne
  | cons name names ih =>
    rw [List.forall_mem_cons] at hproper
    have hstay : ¬ staysPut name := by simp [hproper.1.1]
    have hread : ¬ (Purpose.read = .write ∧ names = [""]) := by simp
    rw [walk_cons, step, if_neg hstay, if_neg hproper.1.2.1, if_neg hread]
    by_cases hsize : maxNameSize < name.utf8ByteSize
    · rw [if_pos hsize]
      exact Or.inl ⟨_, rfl⟩
    rw [if_neg hsize, enter]
    by_cases hlast : names = []
    · subst hlast
      rcases hnode : fs.node? (root ++ [name]) with _ | ⟨bytes⟩ | _ | target
      · exact Or.inr (by simp [hnode])
      · exact Or.inr (by simp [hnode])
      · exact Or.inr (by simp [walk_nil, hnode])
      · exact absurd hnode (hend target)
    · have hdirectory : fs.node? (root ++ [name]) = some .directory :=
        hway [name] (by simp) ⟨names, rfl⟩ (by simpa using hlast)
      rw [hdirectory]
      have hassoc : ∀ way, root ++ [name] ++ way = root ++ name :: way := fun way => by simp
      have hrest := @ih (root ++ [name]) hproper.2 hlast
      rw [hassoc] at hrest
      refine hrest (fun way hw hprefix hneq => ?_) hend
      rw [hassoc]
      exact hway (name :: way) (by simp) (List.prefix_cons_inj name |>.mpr hprefix)
        (by simpa using hneq)

/-! ### Well-formed file systems -/

namespace WellFormed

variable {p q : Place}

/-- The way to a directory is one of directories. -/
theorem node?_eq_directory_of_prefix (h : fs.WellFormed) (hp : fs.node? p = some .directory)
    (hq : q <+: p) : fs.node? q = some .directory := by
  obtain ⟨rest, rfl⟩ := hq
  induction rest using List.reverseRecOn with
  | nil => simpa using hp
  | append_singleton rest last ih =>
    refine ih ?_
    rw [← List.append_assoc] at hp
    simpa using h.parent_directory hp

/-- A path that leads to nothing leads to it in a directory. -/
theorem walk_parent (h : fs.WellFormed) {purpose : Purpose}
    (hplace : fs.node? place = some .directory)
    (hwalk : fs.walk purpose links place names = .ok (p, none)) :
    fs.node? p.dropLast = some .directory := by
  induction links, place, names using walk_rec fs purpose with
  | nil links place =>
    rw [walk_nil, hplace] at hwalk
    cases hwalk
  | cons links place first names ih =>
    rw [walk_cons] at hwalk
    rcases hstep : fs.step purpose links place first names with e | q | ⟨links', q, names'⟩
    · rw [hstep] at hwalk
      cases hwalk
    · rw [hstep] at hwalk
      obtain ⟨-, -, -, rfl, -⟩ := step_eq_stop hstep
      obtain ⟨rfl, -⟩ := Prod.mk.inj (Except.ok.inj hwalk)
      rwa [List.dropLast_concat]
    · rw [hstep] at hwalk
      refine ih links' q names' hstep ?_ hwalk
      rcases step_eq_go hstep with ⟨-, -, ⟨-, rfl⟩ | ⟨-, rfl⟩ | ⟨-, -, -, hq⟩⟩ |
        ⟨target, -, -, rfl | rfl, -⟩
      · exact hplace
      · exact h.parent_directory hplace
      · exact hq
      · rfl
      · exact hplace

theorem locate_parent (h : fs.WellFormed) {purpose : Purpose}
    (hlocate : fs.locate purpose path = .ok (p, none)) :
    fs.node? p.dropLast = some .directory := by
  have hstart : fs.node? (if isAbsolute path then [] else fs.workingDirectory) =
      some .directory := by
    split
    · rfl
    · exact h.workingDirectory
  rcases locate_cases path with ⟨e, he⟩ | hwalk
  · rw [he] at hlocate
    cases hlocate
  · rw [hwalk] at hlocate
    exact h.walk_parent hstart hlocate

/-- **The path of what lies below a directory** leads there, unless it is refused. -/
theorem locate_below (h : fs.WellFormed)
    (hread : fs.locate .read path = .ok (root, some .directory))
    (hproper : ∀ name ∈ names, ProperName name) (hne : names ≠ [])
    (hparent : fs.node? (root ++ names).dropLast = some .directory)
    (hend : ∀ target, fs.node? (root ++ names) ≠ some (.link target)) :
    (∃ e, fs.locate .read (join path ("/".intercalate names)) = .error e) ∨
      fs.locate .read (join path ("/".intercalate names)) =
        .ok (root ++ names, fs.node? (root ++ names)) := by
  rcases locate_read_below hread hproper hne with he | ⟨links, hwalk⟩
  · exact Or.inl he
  · rw [hwalk]
    refine walk_read_directories hproper hne (fun way _ hprefix hneq => ?_) hend
    refine h.node?_eq_directory_of_prefix hparent ?_
    obtain ⟨rest, rfl⟩ := hprefix
    have hrest : rest ≠ [] := by
      rintro rfl
      exact hneq (List.append_nil way).symm
    rw [← List.append_assoc, List.dropLast_append_of_ne_nil hrest]
    exact List.prefix_append _ _

end WellFormed

end GeoRules.File.FileSystem
