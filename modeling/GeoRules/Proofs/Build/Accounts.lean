import GeoRules.Proofs.Build.Loading
import GeoRules.Proofs.RuleList.FileName

/-! # What loading accounts for

Every file is in the registry, skipped, or replaced by a later one of its name, and the registry
leads from a name to the last list that was loaded under it (`Accounts`). One more file keeps this
(`Accounts.add`), and so it holds for all files, in whatever order they are visited
(`loadFiles_accounts`).

The counts then are numbers of files and of names, which no order changes, and a file that makes no
list is counted and nothing more (`loadDirectory_accounts`). -/

namespace GeoRules

open File

/-- The name of the list that a file makes. -/
def listName (path : String) : String := Text.uppercase (fileName path)

/-- The files that make lists. -/
def loadable (fs : FileSystem) (paths : List String) : List String :=
  paths.filter fun path => (loadFile fs path).isOk

/-- Of the files that make a list of the name, the last one makes `l`. -/
def LastLoaded (fs : FileSystem) (paths : List String) (name : String) (l : RuleList) : Prop :=
  ∃ before path after, paths = before ++ path :: after ∧ listName path = name ∧
    loadFile fs path = .ok l ∧ ∀ later ∈ loadable fs after, listName later ≠ name

/-- **The report tells of every file.** -/
structure LoadReport.Accounts (fs : FileSystem) (paths : List String) (report : LoadReport) :
    Prop where
  total : report.registry.size + report.skipped + report.replaced = paths.length
  skipped : (loadable fs paths).length + report.skipped = paths.length
  get?_iff : ∀ name l, report.registry.get? name = some l ↔ LastLoaded fs paths name l

variable {fs fs' : FileSystem} {path : String} {paths paths' : List String} {name : String}
  {l : RuleList} {report : LoadReport}

/-! ### One more list in a registry -/

theorem Registry.size_insert (reg : Registry) (l : RuleList) :
    (reg.insert l).size = if (reg.get? l.name).isSome then reg.size else reg.size + 1 := by
  have hnames := congrArg List.length (map_name_put l reg.lists)
  have hmem : (reg.get? l.name).isSome ↔ l.name ∈ reg.lists.map RuleList.name :=
    Option.isSome_iff_exists.trans mem_names_iff.symm
  rw [List.length_map] at hnames
  rw [size, insert, hnames]
  simp only [hmem, size]
  split <;> simp

/-! ### One more file -/

theorem listName_of_loadFile (h : loadFile fs path = .ok l) : l.name = listName path := by
  unfold loadFile at h
  split at h
  · cases h
  · split at h
    · cases h
    · next hload =>
      obtain rfl := Except.ok.inj h
      exact (RuleList.load_eq_ok hload).1

theorem loadable_append (fs : FileSystem) (paths paths' : List String) :
    loadable fs (paths ++ paths') = loadable fs paths ++ loadable fs paths' :=
  List.filter_append ..

theorem mem_loadable : path ∈ loadable fs paths ↔ path ∈ paths ∧ ∃ l, loadFile fs path = .ok l := by
  rw [loadable, List.mem_filter]
  rcases loadFile fs path with e | l <;> simp [Except.isOk, Except.toBool]

theorem loadable_singleton_of_ok (h : loadFile fs path = .ok l) : loadable fs [path] = [path] := by
  rw [loadable, List.filter_cons_of_pos (by rw [h]; rfl), List.filter_nil]

theorem loadable_singleton_of_error {e : LoadError} (h : loadFile fs path = .error e) :
    loadable fs [path] = [] := by
  rw [loadable, List.filter_cons_of_neg (by rw [h]; exact Bool.false_ne_true), List.filter_nil]

/-- The last list of a name is that of the last file, or it was the last one before and the last
file makes no list of the name. -/
theorem lastLoaded_concat : LastLoaded fs (paths ++ [path]) name l ↔
    (listName path = name ∧ loadFile fs path = .ok l) ∨
      LastLoaded fs paths name l ∧ ∀ file ∈ loadable fs [path], listName file ≠ name := by
  constructor
  · rintro ⟨before, file, after, he, hname, hload, hafter⟩
    rcases List.eq_nil_or_concat after with rfl | ⟨after, last, rfl⟩
    · obtain ⟨-, hlast⟩ := List.append_inj' he rfl
      obtain rfl := (List.cons.inj hlast).1
      exact Or.inl ⟨hname, hload⟩
    · rw [List.concat_eq_append, ← List.cons_append, ← List.append_assoc] at he
      obtain ⟨rfl, hlast⟩ := List.append_inj' he rfl
      obtain rfl := (List.cons.inj hlast).1
      rw [List.concat_eq_append, loadable_append, List.forall_mem_append] at hafter
      exact Or.inr ⟨⟨before, file, after, rfl, hname, hload, hafter.1⟩, hafter.2⟩
  · rintro (⟨hname, hload⟩ | ⟨⟨before, file, after, rfl, hname, hload, hafter⟩, hlast⟩)
    · exact ⟨paths, path, [], rfl, hname, hload, fun _ h => absurd h List.not_mem_nil⟩
    · refine ⟨before, file, after ++ [path], by simp, hname, hload, ?_⟩
      rw [loadable_append, List.forall_mem_append]
      exact ⟨hafter, hlast⟩

theorem exists_lastLoaded {file : String} (h : file ∈ loadable fs paths) :
    ∃ l, LastLoaded fs paths (listName file) l := by
  induction paths using List.reverseRecOn with
  | nil => exact absurd h List.not_mem_nil
  | append_singleton paths last ih =>
    simp only [lastLoaded_concat]
    by_cases hlast : ∃ later ∈ loadable fs [last], listName later = listName file
    · obtain ⟨later, hlater, hname⟩ := hlast
      obtain ⟨hlater, l, hload⟩ := mem_loadable.mp hlater
      obtain rfl := List.mem_singleton.mp hlater
      exact ⟨l, Or.inl ⟨hname, hload⟩⟩
    · rw [loadable_append] at h
      have hbefore := (List.mem_append.mp h).resolve_right fun hf => hlast ⟨file, hf, rfl⟩
      obtain ⟨l, hl⟩ := ih hbefore
      exact ⟨l, Or.inr ⟨hl, fun later hlater hname => hlast ⟨later, hlater, hname⟩⟩⟩

/-- Where no two files that make lists have one name, any file is the last of its name. -/
theorem lastLoaded_iff_of_nodup (h : ((loadable fs paths).map listName).Nodup) :
    LastLoaded fs paths name l ↔
      ∃ path ∈ paths, listName path = name ∧ loadFile fs path = .ok l := by
  constructor
  · rintro ⟨before, path, after, rfl, hname, hload, -⟩
    exact ⟨path, by simp, hname, hload⟩
  · rintro ⟨path, hpath, rfl, hload⟩
    obtain ⟨before, after, rfl⟩ := List.append_of_mem hpath
    refine ⟨before, path, after, rfl, rfl, hload, fun later hlater he => ?_⟩
    rw [← List.singleton_append, loadable_append, loadable_append, loadable_singleton_of_ok hload,
      List.map_append, List.map_append] at h
    have hafter := (List.nodup_append.mp h).2.1
    exact (List.nodup_cons.mp hafter).1 (he ▸ List.mem_map_of_mem hlater)

namespace LoadReport

theorem Accounts.empty (fs : FileSystem) : Accounts fs [] {} where
  total := rfl
  skipped := rfl
  get?_iff name l := by
    constructor
    · intro h
      cases h
    · rintro ⟨before, path, after, he, -⟩
      exact absurd he.symm (List.append_ne_nil_of_right_ne_nil before (List.cons_ne_nil _ _))

/-- **One more file.** -/
theorem Accounts.add (h : report.Accounts fs paths) (path : String) :
    (report.add path (loadFile fs path)).Accounts fs (paths ++ [path]) := by
  obtain ⟨htotal, hskipped, hget⟩ := h
  rcases hload : loadFile fs path with e | l
  · have hnone := loadable_singleton_of_error hload
    refine ⟨?_, ?_, fun name l => ?_⟩
    · simp only [LoadReport.add, List.length_append, List.length_singleton]
      omega
    · rw [loadable_append, hnone, List.append_nil]
      simp only [LoadReport.add, List.length_append, List.length_singleton]
      omega
    · rw [lastLoaded_concat, hnone, hload]
      simpa [LoadReport.add] using hget name l
  · have hone := loadable_singleton_of_ok hload
    refine ⟨?_, ?_, fun name m => ?_⟩
    · simp only [LoadReport.add, Registry.size_insert, List.length_append, List.length_singleton]
      split <;> omega
    · rw [loadable_append, hone]
      simp only [LoadReport.add, List.length_append, List.length_singleton]
      omega
    · rw [lastLoaded_concat, hone, List.forall_mem_singleton, ← listName_of_loadFile hload, hload]
      simp only [LoadReport.add, Registry.get?_insert]
      by_cases hname : name = l.name
      · simp [hname]
      · simp [hname, Ne.symm hname, hget]

/-- **The registry has the names of the files that make lists.** -/
theorem Accounts.mem_names_iff (h : report.Accounts fs paths) :
    name ∈ report.registry.names ↔ ∃ file ∈ loadable fs paths, listName file = name := by
  constructor
  · intro hname
    obtain ⟨l, hl⟩ := Registry.mem_names_iff.mp hname
    obtain ⟨before, path, after, rfl, hpath, hload, -⟩ := (h.get?_iff name l).mp hl
    exact ⟨path, mem_loadable.mpr ⟨by simp, l, hload⟩, hpath⟩
  · rintro ⟨file, hfile, rfl⟩
    obtain ⟨l, hl⟩ := exists_lastLoaded hfile
    exact Registry.mem_names_iff.mpr ⟨l, (h.get?_iff _ l).mpr hl⟩

end LoadReport

open LoadReport (Accounts)

/-! ### All files -/

theorem loadFiles_concat (fs : FileSystem) (paths : List String) (path : String) :
    loadFiles fs (paths ++ [path]) = (loadFiles fs paths).add path (loadFile fs path) := by
  rw [loadFiles, List.foldl_append]
  rfl

/-- **The files in any number.** -/
theorem loadFiles_accounts (fs : FileSystem) (paths : List String) :
    (loadFiles fs paths).Accounts fs paths := by
  induction paths using List.reverseRecOn with
  | nil => exact .empty fs
  | append_singleton paths path ih =>
    rw [loadFiles_concat]
    exact ih.add path

/-! ### Without the files that make no list -/

theorem loadable_loadable (h : ∀ file ∈ loadable fs paths, loadFile fs' file = loadFile fs file) :
    loadable fs' (loadable fs paths) = loadable fs paths := by
  refine List.filter_eq_self.mpr fun file hfile => ?_
  rw [h file hfile]
  exact (List.mem_filter.mp hfile).2

theorem registry_loadFiles_loadable
    (h : ∀ file ∈ loadable fs paths, loadFile fs' file = loadFile fs file) :
    (loadFiles fs' (loadable fs paths)).registry = (loadFiles fs paths).registry := by
  rw [registry_loadFiles, registry_loadFiles]
  have hsame : (loadable fs paths).filterMap (fun path => (loadFile fs' path).toOption) =
      (loadable fs paths).filterMap fun path => (loadFile fs path).toOption :=
    List.filterMap_congr fun file hfile => by rw [h file hfile]
  rw [hsame, loadable, List.filterMap_filter]
  refine congrArg _ (List.filterMap_congr fun file _ => ?_)
  rcases loadFile fs file with e | l <;> rfl

/-- **A file that makes no list leaves nothing behind** but that it is counted. -/
theorem loadFiles_loadable
    (h : ∀ file ∈ loadable fs paths, loadFile fs' file = loadFile fs file) :
    (loadFiles fs' (loadable fs paths)).registry = (loadFiles fs paths).registry ∧
    (loadFiles fs' (loadable fs paths)).replaced = (loadFiles fs paths).replaced ∧
    (loadFiles fs' (loadable fs paths)).skipped = 0 := by
  have hregistry := registry_loadFiles_loadable h
  obtain ⟨htotal, hskipped, -⟩ := loadFiles_accounts fs paths
  obtain ⟨htotal', hskipped', -⟩ := loadFiles_accounts fs' (loadable fs paths)
  rw [loadable_loadable h] at hskipped'
  rw [hregistry] at htotal'
  exact ⟨hregistry, by omega, by omega⟩

/-! ### In another order -/

namespace LoadReport.Accounts

variable {report' : LoadReport}

theorem names_perm (h : report.Accounts fs paths) (h' : report'.Accounts fs paths')
    (hperm : paths.Perm paths') : report.registry.names.Perm report'.registry.names := by
  refine (List.perm_ext_iff_of_nodup report.registry.nodup report'.registry.nodup).mpr
    fun name => ?_
  have hloadable : (loadable fs paths).Perm (loadable fs paths') := hperm.filter _
  exact h.mem_names_iff.trans
    ((exists_congr fun file => and_congr_left' hloadable.mem_iff).trans h'.mem_names_iff.symm)

/-- **The counts do not depend on the order.** -/
theorem counts_eq (h : report.Accounts fs paths) (h' : report'.Accounts fs paths')
    (hperm : paths.Perm paths') : report.registry.size = report'.registry.size ∧
      report.skipped = report'.skipped ∧ report.replaced = report'.replaced := by
  have hsize : report.registry.size = report'.registry.size := by
    simpa only [Registry.size, Registry.names, List.length_map] using
      (h.names_perm h' hperm).length_eq
  have hlength := hperm.length_eq
  have hloadable : (loadable fs paths).length = (loadable fs paths').length :=
    (hperm.filter _).length_eq
  have htotal := h.total
  have htotal' := h'.total
  have hskipped := h.skipped
  have hskipped' := h'.skipped
  exact ⟨hsize, by omega, by omega⟩

/-- **Nor does the registry** if no two files make lists of one name. -/
theorem get?_eq (h : report.Accounts fs paths) (h' : report'.Accounts fs paths')
    (hperm : paths.Perm paths') (hnodup : ((loadable fs paths).map listName).Nodup)
    (name : String) : report.registry.get? name = report'.registry.get? name := by
  have hnodup' : ((loadable fs paths').map listName).Nodup :=
    ((hperm.filter _).map listName).nodup_iff.mp hnodup
  refine Option.ext fun l => ?_
  rw [h.get?_iff, h'.get?_iff, lastLoaded_iff_of_nodup hnodup, lastLoaded_iff_of_nodup hnodup']
  simp only [hperm.mem_iff]

end LoadReport.Accounts

/-! ### A directory -/

/-- **Loading a directory.** Where all directories can be listed, all files are loaded, in whatever
order the machine gives. In whatever order they are visited, each of them is in the registry,
skipped or replaced; the registry leads from the name of every file that makes a list, and from no
other name, to the last such list, under the list's own name; and without the files that make no
list the registry and the number of replaced lists are the same. The numbers do not depend on the
order, nor does the registry if no two files make lists of one name. -/
theorem loadDirectory_accounts (h : fs.leads path) :
    (∀ faults, fs.barred path faults = [] →
      loadDirectory fs path faults = .ok (loadFiles fs (fs.filesIn path)) ∧
      ∀ orders, ∃ visited, visited.Perm (fs.filesIn path) ∧
        loadDirectory fs path faults orders = .ok (loadFiles fs visited)) ∧
    ∀ visited : List String, visited.Perm (fs.filesIn path) →
      (loadFiles fs visited).Accounts fs visited ∧
      (∀ name, name ∈ (loadFiles fs visited).registry.names ↔
        ∃ file ∈ loadable fs visited, listName file = name) ∧
      (∀ name l, (loadFiles fs visited).registry.get? name = some l → l.name = name) ∧
      (∀ fs' : FileSystem, (∀ file ∈ loadable fs visited, loadFile fs' file = loadFile fs file) →
        (loadFiles fs' (loadable fs visited)).registry = (loadFiles fs visited).registry ∧
        (loadFiles fs' (loadable fs visited)).replaced = (loadFiles fs visited).replaced ∧
        (loadFiles fs' (loadable fs visited)).skipped = 0) ∧
      ∀ visited' : List String, visited'.Perm (fs.filesIn path) →
        ((loadFiles fs visited).registry.size = (loadFiles fs visited').registry.size ∧
          (loadFiles fs visited).skipped = (loadFiles fs visited').skipped ∧
          (loadFiles fs visited).replaced = (loadFiles fs visited').replaced) ∧
        (((loadable fs visited).map listName).Nodup → ∀ name,
          (loadFiles fs visited).registry.get? name =
            (loadFiles fs visited').registry.get? name) := by
  refine ⟨fun faults hbarred => ⟨loadDirectory_asKept h hbarred, fun orders => ?_⟩,
    fun visited hvisited => ?_⟩
  · obtain ⟨visited, hvisited, -, hload⟩ := exists_loadDirectory h hbarred orders
    exact ⟨visited, hvisited, hload⟩
  have haccounts := loadFiles_accounts fs visited
  refine ⟨haccounts, fun name => haccounts.mem_names_iff,
    fun name l => Registry.name_of_get?, fun fs' => loadFiles_loadable,
    fun visited' hvisited' => ?_⟩
  have haccounts' := loadFiles_accounts fs visited'
  have hperm := hvisited.trans hvisited'.symm
  exact ⟨haccounts.counts_eq haccounts' hperm, haccounts.get?_eq haccounts' hperm⟩

/-! ### Two lists of one name and a file that makes none -/

namespace File.FileSystem

/-- Two directories with a list of the same name, and beside them a file that makes no list. -/
def collision : FileSystem :=
  ⟨[(["w"], .directory), (["w", "bad"], .file (Text.utf8 "a:b:c\n")), (["w", "one"], .directory),
    (["w", "one", "dup"], .file (Text.utf8 "a.com\n")), (["w", "two"], .directory),
    (["w", "two", "DUP"], .file (Text.utf8 "b.com\n"))], ["w"]⟩

/-- The same without that file. -/
def collisionOnly : FileSystem :=
  { collision with nodes := collision.nodes.filter fun entry => entry.1 ≠ ["w", "bad"] }

theorem locate_collision :
    (∀ fs ∈ [collision, collisionOnly],
      (∀ purpose ∈ [Purpose.look, .read],
        ∀ entry ∈ [("./", ["w"]), ("./one", ["w", "one"]), ("./two", ["w", "two"])],
          fs.locate purpose entry.1 = .ok (entry.2, some .directory)) ∧
      fs.locate .read "./one/dup" =
        .ok (["w", "one", "dup"], some (.file (Text.utf8 "a.com\n"))) ∧
      fs.locate .read "./two/DUP" =
        .ok (["w", "two", "DUP"], some (.file (Text.utf8 "b.com\n")))) ∧
    collision.locate .read "./bad" = .ok (["w", "bad"], some (.file (Text.utf8 "a:b:c\n"))) := by
  have hleads : (∀ fs ∈ [collision, collisionOnly],
      (∀ purpose ∈ [Purpose.look, .read],
        ∀ entry ∈ [("./", ["w"]), ("./one", ["w", "one"]), ("./two", ["w", "two"])],
          fs.LeadsWithin purpose 3 entry.1 (.ok (entry.2, some .directory))) ∧
      fs.LeadsWithin .read 4 "./one/dup"
        (.ok (["w", "one", "dup"], some (.file (Text.utf8 "a.com\n")))) ∧
      fs.LeadsWithin .read 4 "./two/DUP"
        (.ok (["w", "two", "DUP"], some (.file (Text.utf8 "b.com\n"))))) ∧
    collision.LeadsWithin .read 3 "./bad"
      (.ok (["w", "bad"], some (.file (Text.utf8 "a:b:c\n")))) := by
    decide +kernel
  refine ⟨fun fs hfs => ?_, hleads.2.locate⟩
  obtain ⟨hplace, hone, htwo⟩ := hleads.1 fs hfs
  exact ⟨fun purpose hp entry hentry => (hplace purpose hp entry hentry).locate, hone.locate,
    htwo.locate⟩

theorem filesIn_collision :
    (∀ fs ∈ [collision, collisionOnly], fs.leads "./" ∧ fs.barred "./" = []) ∧
    collision.filesIn "./" = ["./bad", "./one/dup", "./two/DUP"] ∧
    collisionOnly.filesIn "./" = ["./one/dup", "./two/DUP"] := by
  have hplace : ∀ fs ∈ [collision, collisionOnly], ∀ purpose ∈ [Purpose.look, .read],
      fs.locate purpose "./" = .ok (["w"], some .directory) :=
    fun fs hfs purpose hp => (locate_collision.1 fs hfs).1 purpose hp ("./", ["w"]) (by simp)
  have hboth : collision ∈ [collision, collisionOnly] ∧
      collisionOnly ∈ [collision, collisionOnly] := by simp
  refine ⟨fun fs hfs => ⟨by rw [leads, hplace fs hfs .read (by decide)], ?_⟩, ?_, ?_⟩
  · refine barred_eq_nil_of_locate (fun _ => rfl) _ ?_
      ((locate_collision.1 fs hfs).1 .read (by decide))
    rw [directoriesIn, hplace fs hfs .read (by decide)]
    revert fs
    decide +kernel
  · rw [filesIn_eq, pathItself, hplace _ hboth.1 .look (by decide),
      hplace _ hboth.1 .read (by decide)]
    decide +kernel
  · rw [filesIn_eq, pathItself, hplace _ hboth.2 .look (by decide),
      hplace _ hboth.2 .read (by decide)]
    decide +kernel

/-- The list of the name with one domain. -/
def collisionList (domain : String) : RuleList := ⟨"DUP", .site, [⟨.domain, domain, []⟩]⟩

theorem loadFile_collision :
    (∀ fs ∈ [collision, collisionOnly], loadFile fs "./one/dup" = .ok (collisionList "a.com") ∧
      loadFile fs "./two/DUP" = .ok (collisionList "b.com")) ∧
    loadFile collision "./bad" = .error (.list (.line (.badFormat "a:b:c"))) := by
  have hload : RuleList.load (fileName "./one/dup") (Text.utf8 "a.com\n") =
        .ok (collisionList "a.com") ∧
      RuleList.load (fileName "./two/DUP") (Text.utf8 "b.com\n") = .ok (collisionList "b.com") ∧
      RuleList.load (fileName "./bad") (Text.utf8 "a:b:c\n") =
        .error (.line (.badFormat "a:b:c")) := by
    decide +kernel
  constructor
  · intro fs hfs
    obtain ⟨-, hone, htwo⟩ := locate_collision.1 fs hfs
    exact ⟨loadFile_of_read (by rw [FileSystem.read, hone]) hload.1,
      loadFile_of_read (by rw [FileSystem.read, htwo]) hload.2.1⟩
  · have hread : collision.read "./bad" = .ok (Text.utf8 "a:b:c\n") := by
      rw [FileSystem.read, locate_collision.2]
    simp only [loadFile, hread, hload.2.2]

end File.FileSystem

open File.FileSystem (collision collisionOnly collisionList)

/-- One list is left of two, the later one, and in the other order the other one; without the file
that makes no list it is the same. -/
theorem loadDirectory_accounts_collision :
    collision.leads "./" ∧ collision.barred "./" = [] ∧
    loadDirectory collision "./" =
      .ok (loadFiles collision ["./bad", "./one/dup", "./two/DUP"]) ∧
    loadDirectory collisionOnly "./" = .ok (loadFiles collisionOnly ["./one/dup", "./two/DUP"]) ∧
    (loadFiles collision ["./bad", "./one/dup", "./two/DUP"]).registry.get? "DUP" =
      some (collisionList "b.com") ∧
    (loadFiles collision ["./two/DUP", "./one/dup", "./bad"]).registry.get? "DUP" =
      some (collisionList "a.com") ∧
    (loadFiles collision ["./bad", "./one/dup", "./two/DUP"]).replaced =
      (loadFiles collision ["./two/DUP", "./one/dup", "./bad"]).replaced ∧
    (loadFiles collisionOnly ["./one/dup", "./two/DUP"]).registry =
      (loadFiles collision ["./bad", "./one/dup", "./two/DUP"]).registry ∧
    (loadFiles collisionOnly ["./one/dup", "./two/DUP"]).skipped = 0 ∧
    (loadFiles collision ["./bad", "./one/dup", "./two/DUP"]).skipped = 1 := by
  obtain ⟨hdata, hfiles, hfilesOnly⟩ := File.FileSystem.filesIn_collision
  obtain ⟨hload, hbad⟩ := File.FileSystem.loadFile_collision
  obtain ⟨hone, htwo⟩ := hload collision (by simp)
  obtain ⟨honeOnly, htwoOnly⟩ := hload collisionOnly (by simp)
  obtain ⟨hleads, hbarred⟩ := hdata collision (by simp)
  obtain ⟨hleadsOnly, hbarredOnly⟩ := hdata collisionOnly (by simp)
  obtain ⟨hloading, hvisited⟩ := loadDirectory_accounts hleads
  obtain ⟨hreport, -⟩ := hloading .none hbarred
  obtain ⟨hreportOnly, -⟩ := (loadDirectory_accounts hleadsOnly).1 .none hbarredOnly
  rw [hfiles] at hreport hvisited
  rw [hfilesOnly] at hreportOnly
  have hloadable : loadable collision ["./bad", "./one/dup", "./two/DUP"] =
      ["./one/dup", "./two/DUP"] := by
    simp [loadable, hone, htwo, hbad, Except.isOk, Except.toBool]
  have hreverse : ["./two/DUP", "./one/dup", "./bad"].Perm ["./bad", "./one/dup", "./two/DUP"] :=
    List.reverse_perm ["./bad", "./one/dup", "./two/DUP"]
  obtain ⟨haccounts, -, -, hwithout, horder⟩ := hvisited _ (List.Perm.refl _)
  obtain ⟨haccounts', -⟩ := hvisited _ hreverse
  obtain ⟨hregistry, -, hskipped⟩ := hwithout collisionOnly (by
    simp [hloadable, hone, htwo, honeOnly, htwoOnly])
  rw [hloadable] at hregistry hskipped
  refine ⟨hleads, hbarred, hreport, hreportOnly, ?_, ?_, (horder _ hreverse).1.2.2, hregistry,
    hskipped, ?_⟩
  · exact (haccounts.get?_iff _ _).mpr ⟨["./bad", "./one/dup"], "./two/DUP", [], rfl,
      listName_of_loadFile htwo, htwo, fun _ h => absurd h List.not_mem_nil⟩
  · refine (haccounts'.get?_iff _ _).mpr ⟨["./two/DUP"], "./one/dup", ["./bad"], rfl,
      (listName_of_loadFile hone).symm, hone, ?_⟩
    rw [loadable_singleton_of_error hbad]
    exact fun _ h => absurd h List.not_mem_nil
  · have hcount := haccounts.skipped
    rw [hloadable] at hcount
    simp only [List.length_cons, List.length_nil] at hcount
    omega

end GeoRules
