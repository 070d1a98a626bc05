import GeoRules.Proofs.Build.Loading
import GeoRules.Proofs.Build.Written
import GeoRules.Proofs.File.Below

/-! # Files of a build among its data

Where a build writes below its data, the next build reads what it wrote. `Config.Harmless` says of
the files of a compilation, before they are written, that this makes no difference: none of them
makes a new list where it comes to lie, and none makes another list than the file in its place did.
The lists that are read afterwards are then those that were read before
(`Config.Harmless.loads_eq`).

Files that come to lie apart from the data are harmless, whatever they hold
(`Config.Apart.harmless`); and so are new files whose bytes make no lists
(`Config.harmless_of_fresh`). -/

namespace GeoRules

open File

variable {config : Config} {fs : FileSystem} {c : Compilation}

/-- The lists that are read under one name are one list. -/
def Config.Unambiguous (config : Config) (fs : FileSystem) : Prop :=
  ∀ path ∈ fs.filesIn config.dataPath, ∀ path' ∈ fs.filesIn config.dataPath, ∀ l l',
    loadFile fs path = .ok l → loadFile fs path' = .ok l' → l.name = l'.name → l = l'

theorem Config.Unambiguous.eq_of_name (h : config.Unambiguous fs) {visited : List String}
    (hvisited : visited.Perm (fs.filesIn config.dataPath)) :
    ∀ l ∈ visited.filterMap fun path => (loadFile fs path).toOption,
      ∀ l' ∈ visited.filterMap fun path => (loadFile fs path).toOption,
        l.name = l'.name → l = l' := by
  have hload : ∀ l ∈ visited.filterMap fun path => (loadFile fs path).toOption,
      ∃ path ∈ fs.filesIn config.dataPath, loadFile fs path = .ok l := by
    intro l hl
    obtain ⟨path, hpath, hsome⟩ := List.mem_filterMap.mp hl
    exact ⟨path, hvisited.mem_iff.mp hpath, toOption_eq_some_iff.mp hsome⟩
  intro l hl l' hl'
  obtain ⟨path, hpath, hl⟩ := hload l hl
  obtain ⟨path', hpath', hl'⟩ := hload l' hl'
  exact h path hpath path' hpath' l l' hl hl'

/-- What is written of the compilation makes the lists that were there. -/
structure Config.Harmless (config : Config) (fs : FileSystem) (c : Compilation) : Prop where
  /-- Under a path that is read, what is written makes the list that was there, or none if there
  was none. -/
  old : ∀ path ∈ fs.filesIn config.dataPath, ∀ p node, fs.locate .read path = .ok (p, node) →
    ∀ file ∈ c.files, fs.Target (join config.outputDir file.1) p →
      (RuleList.load (fileName path) file.2).toOption = (loadFile fs path).toOption
  /-- Where nothing was, below the data, what is written makes no list. -/
  new : ∀ root, fs.locate .read config.dataPath = .ok (root, some .directory) →
    ∀ names last, names.getLast? = some last → fs.node? (root ++ names) = none →
    ∀ file ∈ c.files, fs.Target (join config.outputDir file.1) (root ++ names) →
      (RuleList.load last file.2).toOption = none

/-! ### The lists that are read afterwards -/

namespace Config.Harmless

variable {place : String → Place}

/-- What is found where something was written is one of the files that belong there. -/
theorem exists_written (hplace : ∀ file ∈ c.files, fs.Target (join config.outputDir file.1)
      (place file.1)) {p : Place} (hp : ∃ file ∈ c.files, place file.1 = p) :
    ∃ file ∈ c.files, fs.Target (join config.outputDir file.1) p ∧
      (fs.putAll (c.placed place)).node? p = some (.file file.2) := by
  have hsome : ∃ entry ∈ c.placed place, entry.1 = p := by
    obtain ⟨file, hfile, rfl⟩ := hp
    exact ⟨_, List.mem_map_of_mem hfile, rfl⟩
  obtain ⟨entry, hentry, hep, hnode⟩ := FileSystem.exists_node?_putAll fs
    (fun entry hentry => (Compilation.takesFile_placed hplace entry hentry).ne_nil) hsome
  obtain ⟨file, hfile, rfl⟩ := List.mem_map.mp hentry
  exact ⟨file, hfile, hep ▸ hplace file hfile, hnode⟩

/-- A path that was read makes the list that it made. -/
theorem loadFile_old (h : config.Harmless fs c)
    (hplace : ∀ file ∈ c.files, fs.Target (join config.outputDir file.1) (place file.1))
    {path : String} (hpath : path ∈ fs.filesIn config.dataPath) :
    (loadFile (fs.putAll (c.placed place)) path).toOption = (loadFile fs path).toOption := by
  have hfilled := Compilation.filled_placed hplace
  by_cases hwritten : ∃ p node, fs.locate .read path = .ok (p, node) ∧
      ∃ file ∈ c.files, place file.1 = p
  · obtain ⟨p, node, hlocate, hp⟩ := hwritten
    obtain ⟨file, hfile, htarget, hnode⟩ := exists_written hplace hp
    have hread : (fs.putAll (c.placed place)).read path = .ok file.2 := by
      rw [FileSystem.read, hfilled.locate_eq_ok hlocate, hnode]
    rw [toOption_loadFile_of_read hread, h.old path hpath p node hlocate file hfile htarget]
  · refine toOption_loadFile_eq hfilled fun p node hlocate => ?_
    refine FileSystem.node?_putAll_of_not_mem
      (fun entry hentry => (Compilation.takesFile_placed hplace entry hentry).ne_nil)
      fun entry hentry hp => ?_
    obtain ⟨file, hfile, rfl⟩ := List.mem_map.mp hentry
    exact hwritten ⟨p, node, hlocate, file, hfile, hp⟩

/-- **The lists that are read afterwards** are those that were read before. -/
theorem loads_eq (h : config.Harmless fs c) (hfs : fs.WellFormed)
    (hplace : ∀ file ∈ c.files, fs.Target (join config.outputDir file.1) (place file.1))
    (hleads : fs.leads config.dataPath) {after : FileSystem}
    (hafter : after = fs.putAll (c.placed place)) :
    (after.filesIn config.dataPath).filterMap (fun path => (loadFile after path).toOption) =
      (fs.filesIn config.dataPath).filterMap fun path => (loadFile fs path).toOption := by
  subst hafter
  have hfilled := Compilation.filled_placed hplace
  obtain ⟨added, hadded, hnew⟩ :=
    FileSystem.exists_filesIn_eq_append (Compilation.takesFile_placed hplace) hleads
  have hnone : added.filterMap (fun path =>
      (loadFile (fs.putAll (c.placed place)) path).toOption) = [] := by
    refine List.filterMap_eq_nil_iff.mpr fun path hpath => ?_
    obtain ⟨root, names, hread, hne, rfl, hnothing, entry, hentry, hplaced⟩ := hnew path hpath
    obtain ⟨file, hfile, rfl⟩ := List.mem_map.mp hentry
    obtain ⟨written, hwritten, htarget, hnode⟩ := exists_written hplace ⟨file, hfile, hplaced⟩
    -- the path of a new file leads to it, or to nothing at all
    obtain ⟨node, hlocate, -⟩ := id htarget
    obtain rfl : node = none := (FileSystem.locate_eq_ok hlocate).trans hnothing
    have hproper : ∀ name ∈ names, ProperName name := fun name hname =>
      (hfs.locate hlocate).1 name (List.mem_append_right _ hname)
    rcases hfs.locate_below hread hproper hne (hfs.locate_parent hlocate)
      (fun target he => by rw [hnothing] at he; cases he) with ⟨e, he⟩ | hthere
    · rcases hfilled.locate .read (join config.dataPath ("/".intercalate names)) with
        ⟨-, e', -, he'⟩ | ⟨q, hq, -⟩
      · simp [loadFile, FileSystem.read, he', Except.toOption]
      · rw [he] at hq
        cases hq
    · have hfound : (fs.putAll (c.placed place)).read
          (join config.dataPath ("/".intercalate names)) = .ok written.2 := by
        rw [FileSystem.read, hfilled.locate_eq_ok hthere, hnode]
      have hlast := List.getLast?_eq_some_getLast hne
      rw [toOption_loadFile_of_read hfound, fileName_join_intercalate hproper hlast]
      exact h.new root hread names _ hlast hnothing written hwritten htarget
  rw [hadded, List.filterMap_append, hnone, List.append_nil]
  exact List.filterMap_congr fun path hpath => h.loadFile_old hplace hpath

end Config.Harmless

/-! ### Files that are harmless -/

/-- No file of a build comes to lie below its data, and nothing that is read there leads to one. -/
structure Config.Apart (config : Config) (fs : FileSystem) : Prop where
  read : ∀ path ∈ fs.filesIn config.dataPath, ∀ p node, fs.locate .read path = .ok (p, node) →
    ∀ name ∈ Compilation.fileNames, ¬ fs.Target (join config.outputDir name) p
  below : ∀ root, fs.locate .read config.dataPath = .ok (root, some .directory) →
    ∀ name ∈ Compilation.fileNames, ∀ p, fs.Target (join config.outputDir name) p → ¬ root <+: p

/-- **Files apart from the data are harmless**, whatever they hold. -/
theorem Config.Apart.harmless (h : config.Apart fs) (c : Compilation) : config.Harmless fs c where
  old path hpath p node hlocate _ hfile htarget :=
    absurd htarget (h.read path hpath p node hlocate _ (Compilation.mem_fileNames hfile))
  new root hread names _ _ _ _ hfile htarget :=
    absurd (List.prefix_append root names)
      (h.below root hread _ (Compilation.mem_fileNames hfile) _ htarget)

/-- **New files are harmless if their bytes make no lists** under their names: nothing was where
they come to lie, nothing that is read led there, and no link stands for one of them. -/
theorem Config.harmless_of_fresh
    (hlink : ∀ name ∈ Compilation.fileNames, fs.NoLink (join config.outputDir name))
    (hread : ∀ path ∈ fs.filesIn config.dataPath, ∀ p node, fs.locate .read path = .ok (p, node) →
      ∀ name ∈ Compilation.fileNames, ¬ fs.Target (join config.outputDir name) p)
    (hload : ∀ file ∈ c.files, (RuleList.load file.1 file.2).toOption = none) :
    config.Harmless fs c where
  old path hpath p node hlocate _ hfile htarget :=
    absurd htarget (hread path hpath p node hlocate _ (Compilation.mem_fileNames hfile))
  new root _ names last hlast _ file hfile htarget := by
    obtain ⟨hname, hnoLink⟩ := Compilation.plain_fileNames hlink _ (Compilation.mem_fileNames hfile)
    obtain ⟨node, hlocate, -⟩ := htarget
    rw [FileSystem.locate_join_eq_look hname.proper hnoLink] at hlocate
    have hplace := FileSystem.getLast?_of_locate_look hname.proper hlocate
    rw [List.getLast?_append, hlast, Option.some_or] at hplace
    rw [Option.some.inj hplace]
    exact hload file hfile

end GeoRules
