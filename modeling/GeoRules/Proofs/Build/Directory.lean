import GeoRules.Proofs.Build.Harmless

/-! # A directory of files

In the usual case the working directory holds the files of the lists and nothing else, and a build
reads and writes there (`ofFiles`). A name leads to the file of that name (`locate_ofFiles`), all of
the files are read (`loadDirectory_ofFiles`), and the files of the build come to lie beside or over
them (`run_ofFiles`). -/

namespace GeoRules

open File

/-! ### The directory -/

namespace File.FileSystem

variable {files : List (String × List UInt8)} {name : String}

/-- The working directory with these files in it. -/
def ofFiles (files : List (String × List UInt8)) : FileSystem :=
  ⟨(["w"], .directory) :: files.map fun file => (["w", file.1], .file file.2), ["w"]⟩

/-- A name by which a path leads to an entry of a directory, and is not refused. -/
structure SafeName (name : String) : Prop extends EntryName name where
  noZero : '\x00' ∉ name.toList

instance (name : String) : Decidable (SafeName name) :=
  decidable_of_iff (EntryName name ∧ '\x00' ∉ name.toList)
    ⟨fun h => ⟨h.1, h.2⟩, fun h => ⟨h.1, h.2⟩⟩

theorem node?_ofFiles (files : List (String × List UInt8)) (name : String) :
    (ofFiles files).node? ["w", name] = (files.lookup name).map .file := by
  have hlookup : (files.map fun file => (["w", file.1], Node.file file.2)).lookup ["w", name] =
      (files.lookup name).map .file := by
    induction files with
    | nil => rfl
    | cons file files ih =>
      rw [List.map_cons, List.lookup_cons, List.lookup_cons, ih]
      by_cases h : name = file.1
      · simp [h]
      · have hplace : ["w", name] ≠ ["w", file.1] := by simp [h]
        rw [beq_false_of_ne h, beq_false_of_ne hplace]
  exact hlookup

theorem locate_ofFiles_directory (files : List (String × List UInt8)) (purpose : Purpose) :
    (ofFiles files).locate purpose "./" = .ok (["w"], some .directory) := by
  have hleads : (ofFiles files).LeadsWithin purpose 2 "./" (.ok (["w"], some .directory)) :=
    ⟨by decide, by decide, by decide, rfl⟩
  exact hleads.locate

/-- **A name leads to the file of that name.** -/
theorem locate_ofFiles (h : SafeName name) (purpose : Purpose) {dir : String}
    (hdir : dir = "./" ∨ dir = ".") : (ofFiles files).locate purpose (join dir name) =
      .ok (["w", name], (files.lookup name).map .file) := by
  have hjoin : join dir name = "./" ++ name := by
    rcases hdir with rfl | rfl <;> rfl
  have hnames : pathNames (join dir name) = [".", name] := by
    rw [pathNames_join h.proper.ne_empty h.proper.2.2]
    rcases hdir with rfl | rfl <;> rfl
  have hlook : (ofFiles files).locate .look (join dir name) =
      .ok (["w", name], (files.lookup name).map .file) := by
    have hsize : (join dir name).utf8ByteSize ≤ maxPathSize := by
      rw [hjoin, String.utf8ByteSize_append]
      exact (Nat.add_le_add_left h.short 2).trans (by decide)
    have habsolute : isAbsolute (join dir name) = false := by
      rw [isAbsolute_join h.proper.isAbsolute_eq_false]
      rcases hdir with rfl | rfl <;> rfl
    rw [locate, if_neg (by simp [hjoin, h.noZero]), if_neg (by simp [hjoin]),
      if_neg (Nat.not_lt.mpr hsize), hnames, habsolute, walk_cons, ← node?_ofFiles]
    exact walk_look_last h.toEntryName
  have hlink : (ofFiles files).NoLink (join dir name) := by
    intro p target
    rw [hlook]
    cases files.lookup name <;> simp
  rw [locate_join_eq_look h.proper hlink, hlook]

/-- What is written under a safe name comes to lie there. -/
theorem target_ofFiles (h : SafeName name) :
    (ofFiles files).Target (join "." name) ["w", name] := by
  refine ⟨_, locate_ofFiles h .write (Or.inr rfl), ?_⟩
  rcases files.lookup name with _ | bytes
  · exact Or.inl rfl
  · exact Or.inr ⟨bytes, rfl⟩

/-- The walk of the directory finds the files. -/
theorem filesIn_ofFiles (files : List (String × List UInt8)) :
    (ofFiles files).filesIn "./" = files.map fun file => join "./" file.1 := by
  rw [filesIn_of_directory (locate_ofFiles_directory files .read), pathItself,
    locate_ofFiles_directory files .look]
  change List.filterMap (pathBelow "./" ["w"]) ((["w"], .directory) ::
    files.map fun file => (["w", file.1], .file file.2)) = _
  rw [List.filterMap_cons_none (by simp [pathBelow]), List.filterMap_map]
  refine List.filterMap_eq_map_iff_forall_eq_some.mpr fun file _ => ?_
  simp [pathBelow]

theorem barred_ofFiles (files : List (String × List UInt8)) : (ofFiles files).barred "./" = [] := by
  have hdirs : (ofFiles files).directoriesIn "./" = ["./"] := by
    have hbelow : ∀ entry ∈ (ofFiles files).below ["w"], entry.2 ≠ .directory := by
      rintro ⟨names, node⟩ hentry rfl
      simp [below, ofFiles] at hentry
    rw [directoriesIn, locate_ofFiles_directory files .read]
    refine congrArg _ (List.filterMap_eq_nil_iff.mpr fun entry hentry => ?_)
    exact if_neg (hbelow entry hentry)
  refine barred_eq_nil_of_locate (fun _ => rfl) [("./", ["w"])] hdirs ?_
  simpa using locate_ofFiles_directory files .read

end File.FileSystem

open File.FileSystem (ofFiles SafeName)

/-! ### Its lists -/

/-- Every file has a safe name of its own. -/
structure Named (files : List (String × List UInt8)) : Prop where
  safe : ∀ file ∈ files, SafeName file.1
  nodup : (files.map Prod.fst).Nodup

/-- The lists that the files make. -/
def listsOf (files : List (String × List UInt8)) : List RuleList :=
  files.filterMap fun file => (RuleList.load file.1 file.2).toOption

variable {files : List (String × List UInt8)} {c : Compilation}

theorem Named.lookup_eq (h : Named files) {file : String × List UInt8} (hfile : file ∈ files) :
    files.lookup file.1 = some file.2 := by
  obtain ⟨before, after, rfl⟩ := List.append_of_mem hfile
  have hnodup := h.nodup
  rw [List.map_append, List.map_cons] at hnodup
  refine List.lookup_eq_some_iff.mpr ⟨before, after, rfl, fun entry hentry => ?_⟩
  have hne : file.1 ≠ entry.1 := fun he => (List.nodup_append.mp hnodup).2.2 entry.1
    (List.mem_map_of_mem hentry) file.1 List.mem_cons_self he.symm
  exact bne_iff_ne.mpr hne

theorem fileName_join_safe {name : String} (h : SafeName name) (dir : String) :
    fileName (join dir name) = name := by
  have hnames : fileName (join dir ("/".intercalate [name])) = name :=
    fileName_join_intercalate (by simpa using h.proper) rfl
  rwa [String.intercalate_singleton] at hnames

theorem toOption_loadFile_ofFiles (h : Named files) {file : String × List UInt8}
    (hfile : file ∈ files) : (loadFile (ofFiles files) (join "./" file.1)).toOption =
      (RuleList.load file.1 file.2).toOption := by
  have hsafe := h.safe file hfile
  have hread : (ofFiles files).read (join "./" file.1) = .ok file.2 := by
    rw [FileSystem.read, FileSystem.locate_ofFiles hsafe .read (Or.inl rfl), h.lookup_eq hfile]
    rfl
  rw [toOption_loadFile_of_read hread, fileName_join_safe hsafe]

/-- **The files make their lists**, each by itself. -/
theorem loads_ofFiles (h : Named files) : ((ofFiles files).filesIn "./").filterMap
    (fun path => (loadFile (ofFiles files) path).toOption) = listsOf files := by
  rw [FileSystem.filesIn_ofFiles, List.filterMap_map, listsOf]
  exact List.filterMap_congr fun file hfile => toOption_loadFile_ofFiles h hfile

theorem leads_ofFiles (files : List (String × List UInt8)) : (ofFiles files).leads "./" := by
  rw [FileSystem.leads, FileSystem.locate_ofFiles_directory files .read]

theorem loadDirectory_ofFiles (h : Named files) : ∃ report,
    loadDirectory (ofFiles files) "./" = .ok report ∧
      report.registry = .ofList (listsOf files) := by
  refine ⟨_, loadDirectory_asKept (leads_ofFiles files) (FileSystem.barred_ofFiles files), ?_⟩
  rw [registry_loadFiles, loads_ofFiles h]

/-! ### The files of a build -/

theorem safeName_of_mem_files {file : String × List UInt8} (h : file ∈ c.files) :
    SafeName file.1 := by
  have hnames : ∀ name ∈ Compilation.fileNames, SafeName name := by decide
  exact hnames _ (Compilation.mem_fileNames h)

theorem accepts_ofFiles : ∀ file ∈ c.files,
    (ofFiles files).Accepts .none (join "." file.1) ["w", file.1] file.2 :=
  fun _ hfile => ⟨FileSystem.target_ofFiles (safeName_of_mem_files hfile), rfl, rfl⟩

/-- Files of a build lie at the places of their names. -/
theorem eq_of_target_ofFiles {file : String × List UInt8} (hfile : file ∈ c.files) {p : Place}
    (htarget : (ofFiles files).Target (join "." file.1) p) : p = ["w", file.1] :=
  htarget.unique (FileSystem.target_ofFiles (safeName_of_mem_files hfile))

theorem unambiguous_ofFiles (h : Named files)
    (hlists : ∀ l ∈ listsOf files, ∀ l' ∈ listsOf files, l.name = l'.name → l = l') :
    Config.Unambiguous {} (ofFiles files) := by
  have hload : ∀ path ∈ (ofFiles files).filesIn "./", ∀ l,
      loadFile (ofFiles files) path = .ok l → l ∈ listsOf files := by
    intro path hpath l hl
    rw [← loads_ofFiles h]
    exact List.mem_filterMap.mpr ⟨path, hpath, toOption_eq_some_iff.mpr hl⟩
  intro path hpath path' hpath' l l' hl hl'
  exact hlists l (hload path hpath l hl) l' (hload path' hpath' l' hl')

/-- **Files of a build are harmless** where each makes the list that the file of its name made, or
none if there was none. -/
theorem harmless_ofFiles (h : Named files) (hsame : ∀ file ∈ c.files,
      (RuleList.load file.1 file.2).toOption =
        (files.lookup file.1).bind fun bytes => (RuleList.load file.1 bytes).toOption) :
    Config.Harmless {} (ofFiles files) c where
  old path hpath p node hlocate file hfile htarget := by
    obtain rfl := eq_of_target_ofFiles hfile htarget
    change path ∈ (ofFiles files).filesIn "./" at hpath
    rw [FileSystem.filesIn_ofFiles] at hpath
    obtain ⟨before, hbefore, rfl⟩ := List.mem_map.mp hpath
    have hsafe := h.safe before hbefore
    rw [FileSystem.locate_ofFiles hsafe .read (Or.inl rfl)] at hlocate
    have hname : before.1 = file.1 := by simpa using congrArg Prod.fst (Except.ok.inj hlocate)
    rw [toOption_loadFile_ofFiles h hbefore, fileName_join_safe hsafe, hname, hsame file hfile,
      ← hname, h.lookup_eq hbefore, Option.bind_some]
  new root hread names last hlast hnothing file hfile htarget := by
    change (ofFiles files).locate .read "./" = _ at hread
    rw [FileSystem.locate_ofFiles_directory files .read] at hread
    obtain rfl : ["w"] = root := congrArg Prod.fst (Except.ok.inj hread)
    have hnames := eq_of_target_ofFiles hfile htarget
    obtain rfl : names = [file.1] := by simpa using hnames
    obtain rfl : file.1 = last := by simpa using hlast
    rw [List.singleton_append, FileSystem.node?_ofFiles, Option.map_eq_none_iff] at hnothing
    rw [hsame file hfile, hnothing]
    rfl

end GeoRules
