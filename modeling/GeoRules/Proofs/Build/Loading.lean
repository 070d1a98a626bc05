import GeoRules.Build.Run
import GeoRules.Proofs.File.Listing
import GeoRules.Proofs.Inclusion.Locality

/-! # What loading comes to

Loading fails if the data path leads to nothing or a directory cannot be listed, and it gives the
report of all files otherwise, in some order (`loadDirectory_outcome`).

Files that are visited in another order give the same lists in another order. Where lists of one
name are the same list, the order then makes no difference to what a name leads to
(`Registry.get?_ofList_iff`), nor to what a list compiles to (`Registry.compileLists_congr`). -/

namespace GeoRules

open File

/-! ### One file -/

/-- A file is loaded as before where what lies at its place is as before. -/
theorem toOption_loadFile_eq {fs fs' : FileSystem} (h : fs.Filled fs') {path : String}
    (hsame : ∀ p node, fs.locate .read path = .ok (p, node) → fs'.node? p = fs.node? p) :
    (loadFile fs' path).toOption = (loadFile fs path).toOption := by
  rcases h.locate .read path with ⟨e, e', he, he'⟩ | ⟨p, hp, hp'⟩
  · simp [loadFile, FileSystem.read, he, he', Except.toOption]
  · rw [hsame p _ hp] at hp'
    simp [loadFile, FileSystem.read, hp, hp']

theorem loadFile_of_read {fs : FileSystem} {path : String} {bytes : List UInt8} {l : RuleList}
    (h : fs.read path = .ok bytes) (hload : RuleList.load (fileName path) bytes = .ok l) :
    loadFile fs path = .ok l := by
  simp only [loadFile, h, hload]

/-- What a file makes depends on its name and its bytes. -/
theorem toOption_loadFile_of_read {fs : FileSystem} {path : String} {bytes : List UInt8}
    (h : fs.read path = .ok bytes) :
    (loadFile fs path).toOption = (RuleList.load (fileName path) bytes).toOption := by
  rw [loadFile, h]
  dsimp only
  rcases RuleList.load (fileName path) bytes with e | l <;> rfl

/-! ### All files -/

theorem registry_loadFiles (fs : FileSystem) (paths : List String) : (loadFiles fs paths).registry =
    .ofList (paths.filterMap fun path => (loadFile fs path).toOption) := by
  have hfold : ∀ report : LoadReport,
      (paths.foldl (fun report path => report.add path (loadFile fs path)) report).registry =
        (paths.filterMap fun path => (loadFile fs path).toOption).foldl Registry.insert
          report.registry := by
    induction paths with
    | nil => exact fun report => rfl
    | cons path paths ih =>
      intro report
      rw [List.foldl_cons, ih]
      rcases hload : loadFile fs path with e | l
      · simp [hload, Except.toOption, LoadReport.add]
      · simp [hload, Except.toOption, LoadReport.add]
  exact hfold {}

/-- A walk ends with the paths of all files or with the first error. -/
theorem mapM_id_outcome {ε α : Type} (found : List (Except ε α)) :
    (∃ xs, found = xs.map .ok ∧ found.mapM id = .ok xs) ∨
      ∃ e, .error e ∈ found ∧ found.mapM id = .error e := by
  induction found with
  | nil => exact Or.inl ⟨[], rfl, rfl⟩
  | cons x found ih =>
    rw [List.mapM_cons]
    rcases x with e | a
    · exact Or.inr ⟨e, List.mem_cons_self, rfl⟩
    · rcases ih with ⟨xs, rfl, hxs⟩ | ⟨e, he, hfail⟩
      · exact Or.inl ⟨a :: xs, rfl, by rw [hxs]; rfl⟩
      · exact Or.inr ⟨e, List.mem_cons_of_mem _ he, by rw [hfail]; rfl⟩

/-- **What loading can come to**: the path leads to nothing, a directory at or below it cannot be
listed, or all files that are found are loaded in some order. -/
theorem loadDirectory_outcome (fs : FileSystem) (path : String) (faults : Faults)
    (orders : Orders) :
    (¬ fs.leads path ∧ loadDirectory fs path faults orders = .error (.path path)) ∨
    (fs.leads path ∧ ∃ e ∈ fs.barred path faults,
      loadDirectory fs path faults orders = .error (.directory e)) ∨
    fs.leads path ∧ fs.barred path faults = [] ∧ ∃ visited, visited.Perm (fs.filesIn path) ∧
      orders.visits ((fs.filesIn path).map .ok) = visited.map .ok ∧
      loadDirectory fs path faults orders = .ok (loadFiles fs visited) := by
  have hperm := orders.visits_perm (fs.visits path faults)
  by_cases hleads : fs.leads path
  · rcases mapM_id_outcome (orders.visits (fs.visits path faults)) with
      ⟨visited, hvisited, hload⟩ | ⟨e, he, hload⟩
    · have hbarred : fs.barred path faults = [] := by
        by_contra hne
        obtain ⟨e, he⟩ := FileSystem.exists_error_iff.mpr hne
        have hmem := hperm.mem_iff.mpr he
        simp [hvisited] at hmem
      have hfiles : visited.Perm (fs.filesIn path) := by
        rw [hvisited, FileSystem.visits_of_barred_eq_nil hbarred] at hperm
        exact (List.map_perm_map_iff fun _ _ => Except.ok.inj).mp hperm
      have hall := FileSystem.visits_of_barred_eq_nil hbarred
      exact Or.inr (Or.inr ⟨hleads, hbarred, visited, hfiles, hall ▸ hvisited, by
        rw [loadDirectory, if_pos hleads, hload]⟩)
    · have hbarred := FileSystem.mem_barred_of_visits (hperm.mem_iff.mp he)
      exact Or.inr (Or.inl ⟨hleads, e, hbarred, by rw [loadDirectory, if_pos hleads, hload]⟩)
  · exact Or.inl ⟨hleads, if_neg hleads⟩

theorem loadDirectory_eq_ok {fs : FileSystem} {path : String} {faults : Faults} {orders : Orders}
    {report : LoadReport} (h : loadDirectory fs path faults orders = .ok report) :
    fs.leads path ∧ fs.barred path faults = [] ∧
      ∃ visited, visited.Perm (fs.filesIn path) ∧ report = loadFiles fs visited := by
  rcases loadDirectory_outcome fs path faults orders with ⟨-, he⟩ | ⟨-, e, -, he⟩ |
    ⟨hleads, hbarred, visited, hvisited, -, hload⟩
  · rw [he] at h
    cases h
  · rw [he] at h
    cases h
  · exact ⟨hleads, hbarred, visited, hvisited, Except.ok.inj (h.symm.trans hload)⟩

/-- Where all directories can be listed, loading gives the report of all files. -/
theorem exists_loadDirectory {fs : FileSystem} {path : String} {faults : Faults}
    (hleads : fs.leads path) (hbarred : fs.barred path faults = []) (orders : Orders) :
    ∃ visited, visited.Perm (fs.filesIn path) ∧
      orders.visits ((fs.filesIn path).map .ok) = visited.map .ok ∧
      loadDirectory fs path faults orders = .ok (loadFiles fs visited) := by
  rcases loadDirectory_outcome fs path faults orders with ⟨hnot, -⟩ | ⟨-, e, he, -⟩ |
    ⟨-, -, hload⟩
  · exact absurd hleads hnot
  · rw [hbarred] at he
    cases he
  · exact hload

theorem loadDirectory_asKept {fs : FileSystem} {path : String} {faults : Faults}
    (hleads : fs.leads path) (hbarred : fs.barred path faults = []) :
    loadDirectory fs path faults = .ok (loadFiles fs (fs.filesIn path)) := by
  obtain ⟨visited, -, hvisited, hload⟩ := exists_loadDirectory hleads hbarred .asKept
  obtain rfl := (List.map_inj_right fun _ _ => Except.ok.inj).mp hvisited
  exact hload

/-! ### Registries of the same lists -/

namespace Registry

variable {reg reg' : Registry} {ls ls' : List RuleList} {name : String} {l : RuleList}

theorem ofList_concat (ls : List RuleList) (l : RuleList) :
    ofList (ls ++ [l]) = (ofList ls).insert l := by
  rw [ofList, List.foldl_append]
  rfl

/-- **Where lists of one name are the same**, a registry of lists holds all of them. -/
theorem get?_ofList_iff (h : ∀ l ∈ ls, ∀ l' ∈ ls, l.name = l'.name → l = l') :
    (ofList ls).get? name = some l ↔ l ∈ ls ∧ l.name = name := by
  induction ls using List.reverseRecOn with
  | nil =>
    constructor
    · intro h
      cases h
    · rintro ⟨h, -⟩
      cases h
  | append_singleton ls last ih =>
    have hlast : last ∈ ls ++ [last] := by simp
    have hbefore := ih fun l hl l' hl' =>
      h l (List.mem_append_left _ hl) l' (List.mem_append_left _ hl')
    rw [ofList_concat, get?_insert]
    by_cases hname : name = last.name
    · rw [if_pos hname, Option.some_inj]
      constructor
      · rintro rfl
        exact ⟨hlast, hname.symm⟩
      · rintro ⟨hl, hln⟩
        exact h last hlast l hl (hname.symm.trans hln.symm)
    · rw [if_neg hname, hbefore, List.mem_append, List.mem_singleton]
      constructor
      · rintro ⟨hl, hln⟩
        exact ⟨Or.inl hl, hln⟩
      · rintro ⟨hl | rfl, hln⟩
        · exact ⟨hl, hln⟩
        · exact absurd hln.symm hname

theorem get?_ofList_perm (hls : ls.Perm ls')
    (h : ∀ l ∈ ls, ∀ l' ∈ ls, l.name = l'.name → l = l') (name : String) :
    (ofList ls').get? name = (ofList ls).get? name := by
  refine Option.ext fun l => ?_
  rw [get?_ofList_iff h, get?_ofList_iff fun l hl l' hl' =>
    h l (hls.mem_iff.mpr hl) l' (hls.mem_iff.mpr hl'), hls.mem_iff]

/-- Registries in which all names lead to the same hold the same lists. -/
theorem lists_perm_of_get? (h : ∀ name, reg'.get? name = reg.get? name) :
    reg.lists.Perm reg'.lists := by
  have hmem : ∀ {reg : Registry} {l : RuleList}, l ∈ reg.lists ↔ reg.get? l.name = some l :=
    ⟨get?_name, mem_of_get?⟩
  refine (List.perm_ext_iff_of_nodup reg.nodup.of_map reg'.nodup.of_map).mpr fun l => ?_
  rw [hmem, hmem, h]

/-- What lists compile to depends on what the names lead to only. -/
theorem compileLists_congr (h : ∀ name, reg'.get? name = reg.get? name) (ls : List RuleList) :
    reg'.compileLists ls = reg.compileLists ls := by
  induction ls with
  | nil => rfl
  | cons l ls ih =>
    rw [compileLists, compileLists, ih, RuleList.compile_eq_of_agree fun name _ => h name]

end Registry

end GeoRules
