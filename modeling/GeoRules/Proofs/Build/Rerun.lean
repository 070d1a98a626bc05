import GeoRules.Proofs.Build.Directory
import GeoRules.Proofs.Build.Order
import GeoRules.Proofs.RuleList.Rendered

/-! # Building twice

A build reads all files of a directory and writes four. Where the ones that it wrote are among those
that the next build reads, that build may fail: the category index is a text of lines with a colon,
which load as rules of no known kind (`run_twice_fails`).

Where what was written is harmless and the lists of one name are one list, the next build loads the
same lists (`Config.Harmless.loadDirectory_again`). It compiles them to the same up to their order,
and writes that over what was written before (`run_again`). With two lists of one name the order
alone may make it fail (`run_again_withRival`). -/

namespace GeoRules

open File

/-! ### One build -/

variable {config : Config} {fs fs' : FileSystem} {faults : Faults} {orders : Orders}
  {c c' : Compilation}

/-- What is behind a build that succeeds. -/
theorem of_run_eq_ok (h : (run config fs faults orders).result = .ok c) :
    ∃ report, loadDirectory fs config.dataPath faults orders = .ok report ∧
      report.registry.compileLists (orders.lists report.registry) = .ok c ∧
      (c.write fs config.outputDir faults).failure = none ∧
      (run config fs faults orders).fs = (c.write fs config.outputDir faults).fs := by
  unfold run at h ⊢
  rcases hload : loadDirectory fs config.dataPath faults orders with e | report
  · simp [hload] at h
  · rcases hcompile : report.registry.compileLists (orders.lists report.registry) with e | c'
    · simp [hload, hcompile] at h
    · simp only [hload, hcompile] at h ⊢
      rcases hfailure : (c'.write fs config.outputDir faults).failure with _ | e
      · rw [hfailure] at h
        obtain rfl := Except.ok.inj h
        exact ⟨report, rfl, hcompile, hfailure, rfl⟩
      · rw [hfailure] at h
        cases h

/-- A build that loads and compiles tries to write, and succeeds or fails as that does. -/
theorem run_of_compiled (config : Config) {report : LoadReport}
    (hload : loadDirectory fs config.dataPath faults orders = .ok report)
    (hcompile : report.registry.compileLists (orders.lists report.registry) = .ok c) :
    (run config fs faults orders).fs = (c.write fs config.outputDir faults).fs ∧
      (run config fs faults orders).events = report.events ++
        .allLoaded report.registry.size config.dataPath report.skipped ::
          report.registry.compileEvents (orders.lists report.registry) ++
        (c.write fs config.outputDir faults).events ∧
      ((c.write fs config.outputDir faults).failure = none →
        (run config fs faults orders).result = .ok c) ∧
      ∀ e, (c.write fs config.outputDir faults).failure = some e →
        (run config fs faults orders).result = .error (.write e) := by
  unfold run
  simp only [hload, hcompile, true_and]
  refine ⟨fun h => ?_, fun e h => ?_⟩
  · rw [h]
  · rw [h]

theorem run_eq_ok (config : Config) {report : LoadReport}
    (hload : loadDirectory fs config.dataPath faults orders = .ok report)
    (hcompile : report.registry.compileLists (orders.lists report.registry) = .ok c)
    (hwrite : (c.write fs config.outputDir faults).failure = none) :
    (run config fs faults orders).result = .ok c ∧
      (run config fs faults orders).fs = (c.write fs config.outputDir faults).fs := by
  obtain ⟨hfs, -, hok, -⟩ := run_of_compiled config hload hcompile
  exact ⟨hok hwrite, hfs⟩

/-- A build fails where one of the lists that it loads does not compile. -/
theorem run_ne_ok {report : LoadReport} {l : RuleList}
    (hload : loadDirectory fs config.dataPath faults orders = .ok report)
    (hl : l ∈ orders.lists report.registry) (hfails : ∀ part, l.compile report.registry ≠ .ok part)
    (c : Compilation) : (run config fs faults orders).result ≠ .ok c := by
  intro h
  obtain ⟨report', hload', hcompile, -, -⟩ := of_run_eq_ok h
  obtain rfl : report = report' := Except.ok.inj (hload.symm.trans hload')
  obtain ⟨part, hpart⟩ := (Registry.compileLists_isOk_iff _).mp ⟨c, hcompile⟩ _ hl
  exact hfails part hpart

/-! ### The same lists in another order -/

theorem Geo.encodeSites_perm {sites sites' : List GeoSite} (h : sites.Perm sites') :
    (encodeSites sites).Perm (encodeSites sites') :=
  ((h.map _).map _).flatten

theorem Geo.encodeIps_perm {ips ips' : List GeoIp} (h : ips.Perm ips') :
    (encodeIps ips).Perm (encodeIps ips') :=
  ((h.map _).map _).flatten

theorem Text.utf8_ofLines_perm {lines lines' : List String} (h : lines.Perm lines') :
    (utf8 (ofLines lines)).Perm (utf8 (ofLines lines')) := by
  rw [utf8_ofLines, utf8_ofLines]
  exact h.flatMap_right _

namespace Compilation

/-- **In another order of the lists the files have the same sizes.** -/
theorem Reordered.length_eq (h : c.Reordered c') :
    ∀ pair ∈ c.files.zip c'.files, pair.2.2.length = pair.1.2.length := by
  have hindex : c.index.lines.Perm c'.index.lines :=
    ((h.siteNames.map _).cons _).append ((h.ipNames.map _).cons _)
  have hproxy : c.proxy.lines.Perm c'.proxy.lines := by
    obtain ⟨ls, ls', hls, hlines, hlines'⟩ := h.proxy
    rw [hlines, hlines']
    exact hls.flatMap_right _
  have hsites := (Geo.encodeSites_perm h.sites).length_eq
  have hips := (Geo.encodeIps_perm h.ips).length_eq
  have hindexSize := (Text.utf8_ofLines_perm hindex).length_eq
  have hproxySize := (Text.utf8_ofLines_perm hproxy).length_eq
  simp only [files, List.zip_cons_cons, List.zip_nil_right, List.forall_mem_cons]
  exact ⟨hsites.symm, hips.symm, hindexSize.symm, hproxySize.symm, by simp⟩

/-- What is written in one order of the lists can be written in another. -/
theorem Reordered.accepts (h : c.Reordered c') {dir : String} {place : String → Place}
    (haccepts : ∀ file ∈ c.files, fs.Accepts faults (join dir file.1) (place file.1) file.2) :
    ∀ file ∈ c'.files, fs.Accepts faults (join dir file.1) (place file.1) file.2 := by
  have hsame : ∀ pair ∈ c.files.zip c'.files, pair.2.1 = pair.1.1 := by
    simp [files]
  have hsecond : (c.files.zip c'.files).map Prod.snd = c'.files := rfl
  intro file hfile
  rw [← hsecond] at hfile
  obtain ⟨pair, hpair, rfl⟩ := List.mem_map.mp hfile
  have hfirst := haccepts pair.1 (List.of_mem_zip hpair).1
  rw [hsame pair hpair]
  exact ⟨hfirst.target, hfirst.opening,
    (Faults.stop?_congr (h.length_eq pair hpair) faults _).trans hfirst.stop⟩

/-- **What is written in another order over what was written**: every place is as it was, or it is
that of a file and holds that file of the one compilation where it held that of the other. -/
theorem Reordered.write_again (h : c.Reordered c') {dir : String} {place : String → Place}
    (haccepts : ∀ file ∈ c.files, fs.Accepts faults (join dir file.1) (place file.1) file.2)
    (hwritten : fs' = fs.putAll (c.placed place)) :
    (c'.write fs' dir faults).failure = none ∧
      ∀ p, (c'.write fs' dir faults).fs.node? p = fs'.node? p ∨
        (∃ name ∈ fileNames, fs.Target (join dir name) p) ∧
        ∃ before after, fs'.node? p = some (.file before) ∧
          (c'.write fs' dir faults).fs.node? p = some (.file after) ∧
          (before, after) ∈ [(Geo.encodeSites c.sites, Geo.encodeSites c'.sites),
            (Geo.encodeIps c.ips, Geo.encodeIps c'.ips),
            (Text.utf8 c.index.render, Text.utf8 c'.index.render),
            (Text.utf8 c.proxy.render, Text.utf8 c'.proxy.render)] := by
  have htakes := takesFile_placed fun file hfile => (haccepts file hfile).target
  have hfilled : fs.Filled fs' := hwritten ▸ .putAll htakes
  obtain ⟨hagain, hnone⟩ := write_of_accepts place fun file hfile =>
    hfilled.accepts_iff.mpr (h.accepts haccepts file hfile)
  have hplaces : (c'.placed place).map Prod.fst = (c.placed place).map Prod.fst := rfl
  refine ⟨hnone, fun p => ?_⟩
  rw [hagain]
  by_cases hp : ∃ entry ∈ c.placed place, entry.1 = p
  · obtain ⟨pair, hpair, -, hbefore, hafter⟩ := FileSystem.node?_putAll_zip fs fs'
      (fun entry hentry => (htakes entry hentry).ne_nil) hplaces hp
    refine Or.inr ⟨?_, pair.1.2, pair.2.2, hwritten ▸ hbefore, hafter, ?_⟩
    · obtain ⟨entry, hentry, rfl⟩ := hp
      obtain ⟨file, hfile, rfl⟩ := List.mem_map.mp hentry
      exact ⟨file.1, mem_fileNames hfile, (haccepts file hfile).target⟩
    · revert hpair
      simp only [placed, files, List.map_cons, List.map_nil, List.zip_cons_cons,
        List.zip_nil_right, List.mem_cons, List.not_mem_nil, or_false]
      rintro (rfl | rfl | rfl | rfl) <;> simp
  · have helsewhere : ∀ q ∈ (c'.placed place).map Prod.fst, q ≠ [] ∧ q ≠ p := by
      rw [hplaces]
      intro q hq
      obtain ⟨entry, hentry, rfl⟩ := List.mem_map.mp hq
      exact ⟨(htakes entry hentry).ne_nil, fun he => hp ⟨entry, hentry, he⟩⟩
    rw [List.forall_mem_map] at helsewhere
    exact Or.inl (FileSystem.node?_putAll_of_not_mem
      (fun entry hentry => (helsewhere entry hentry).1)
      fun entry hentry => (helsewhere entry hentry).2)

end Compilation

/-! ### The next build -/

/-- **What is loaded after a build is what was loaded before it**, in whatever orders, if what it
wrote is harmless and one name has one list. -/
theorem Config.Harmless.loadDirectory_again (h : config.Harmless fs c) (hfs : fs.WellFormed)
    (hnames : config.Unambiguous fs) {place : String → Place}
    (hplace : ∀ file ∈ c.files, fs.Target (join config.outputDir file.1) (place file.1))
    (hwritten : fs' = fs.putAll (c.placed place)) {report : LoadReport}
    (hload : loadDirectory fs config.dataPath faults orders = .ok report) (orders' : Orders) :
    ∃ report', loadDirectory fs' config.dataPath faults orders' = .ok report' ∧
      ∀ name, report'.registry.get? name = report.registry.get? name := by
  have htakes := Compilation.takesFile_placed hplace
  obtain ⟨hleads, hbarred, visited, hvisited, rfl⟩ := loadDirectory_eq_ok hload
  have hleads' : fs'.leads config.dataPath :=
    FileSystem.Filled.leads (hwritten ▸ .putAll htakes) hleads
  have hbarred' : fs'.barred config.dataPath faults = [] :=
    hwritten ▸ FileSystem.barred_putAll htakes hleads hbarred
  obtain ⟨visited', hvisited', -, hload'⟩ := exists_loadDirectory hleads' hbarred' orders'
  refine ⟨_, hload', fun name => ?_⟩
  have hlists : (visited.filterMap fun path => (loadFile fs path).toOption).Perm
      (visited'.filterMap fun path => (loadFile fs' path).toOption) := by
    refine (hvisited.filterMap _).trans ?_
    rw [← h.loads_eq hfs hplace hleads hwritten]
    exact (hvisited'.filterMap _).symm
  rw [registry_loadFiles, registry_loadFiles]
  exact Registry.get?_ofList_perm hlists (hnames.eq_of_name hvisited) name

/-- **A build after a build** on the same machine, each with its own orders, does the same again,
provided that what the first one wrote makes no difference to the lists that are read and that these
do not depend on the order: it succeeds with the same compilation up to the order of the lists, and
every place is as it was or holds that file of the one compilation where it held that of the
other. -/
theorem run_again (config : Config) (fs : FileSystem) (hfs : fs.WellFormed) (faults : Faults)
    (first second : Orders) (c : Compilation)
    (h : (run config fs faults first).result = .ok c) (hnames : config.Unambiguous fs)
    (hharmless : config.Harmless fs c) :
    ∃ c', (run config (run config fs faults first).fs faults second).result = .ok c' ∧
      c.Reordered c' ∧
      ∀ p, (run config (run config fs faults first).fs faults second).fs.node? p =
          (run config fs faults first).fs.node? p ∨
        (∃ name ∈ Compilation.fileNames, fs.Target (join config.outputDir name) p) ∧
        ∃ before after, (run config fs faults first).fs.node? p = some (.file before) ∧
          (run config (run config fs faults first).fs faults second).fs.node? p =
            some (.file after) ∧
          (before, after) ∈ [(Geo.encodeSites c.sites, Geo.encodeSites c'.sites),
            (Geo.encodeIps c.ips, Geo.encodeIps c'.ips),
            (Text.utf8 c.index.render, Text.utf8 c'.index.render),
            (Text.utf8 c.proxy.render, Text.utf8 c'.proxy.render)] := by
  obtain ⟨report, hload, hcompile, hwrite, hafter⟩ := of_run_eq_ok h
  obtain ⟨place, haccepts, hwritten⟩ := Compilation.write_eq_putAll hwrite fun name _ =>
    hfs.locate_ne_link (by decide) (join config.outputDir name)
  rw [← hafter] at hwritten
  obtain ⟨report', hload', hget⟩ := hharmless.loadDirectory_again hfs hnames
    (fun file hfile => (haccepts file hfile).target) hwritten hload second
  -- the lists are the same, so that they compile to the same, up to the order
  have horder : (first.lists report.registry).Perm (second.lists report'.registry) :=
    (first.lists_perm _).trans
      ((Registry.lists_perm_of_get? hget).trans (second.lists_perm _).symm)
  obtain ⟨c', hc', hreordered⟩ := Registry.compileLists_perm horder hcompile
  rw [← Registry.compileLists_congr hget] at hc'
  obtain ⟨hnone, hplaces⟩ := hreordered.write_again haccepts hwritten
  obtain ⟨hresult, hdisk⟩ := run_eq_ok config hload' hc' hnone
  exact ⟨c', hresult, hreordered, hdisk ▸ hplaces⟩

/-! ### In a directory of files -/

open File.FileSystem (ofFiles)

/-- A build in a directory of files puts its own files there. -/
theorem run_ofFiles {files : List (String × List UInt8)} (h : Named files)
    (hcompile : (Registry.ofList (listsOf files)).compile = .ok c) :
    (run {} (ofFiles files)).result = .ok c ∧
      (run {} (ofFiles files)).fs =
        (ofFiles files).putAll (c.placed fun name => ["w", name]) := by
  obtain ⟨report, hload, hregistry⟩ := loadDirectory_ofFiles h
  obtain ⟨hwritten, hnone⟩ :=
    Compilation.write_of_accepts (fun name => ["w", name]) (accepts_ofFiles (c := c))
  obtain ⟨hresult, hafter⟩ := run_eq_ok {} hload (hregistry ▸ hcompile) hnone
  exact ⟨hresult, hafter.trans hwritten⟩

/-- The orders in which everything is met last to first. -/
def Orders.backwards : Orders :=
  ⟨List.reverse, List.reverse_perm, fun reg => reg.lists.reverse, fun reg => reg.lists.reverse_perm⟩

theorem loadDirectory_ofFiles_backwards {files : List (String × List UInt8)} (h : Named files) :
    ∃ report, loadDirectory (ofFiles files) "./" .none .backwards = .ok report ∧
      report.registry = .ofList (listsOf files).reverse := by
  obtain ⟨visited, -, hvisited, hload⟩ := exists_loadDirectory (leads_ofFiles files)
    (FileSystem.barred_ofFiles files) .backwards
  refine ⟨_, hload, ?_⟩
  change (List.map Except.ok ((ofFiles files).filesIn "./")).reverse = _ at hvisited
  rw [← List.map_reverse] at hvisited
  obtain rfl := (List.map_inj_right fun _ _ => Except.ok.inj).mp hvisited
  rw [registry_loadFiles, List.filterMap_reverse, loads_ofFiles h]

/-- The file of a list whose name has a blank, and an empty address database. -/
def withDatabase : List (String × List UInt8) :=
  [("my list", Text.utf8 "a.com\n"), ("v2ip.dat", [])]

/-- The list, and the one that the database makes. -/
def RuleList.blankName : RuleList := ⟨"MY LIST", .site, [⟨.domain, "a.com", []⟩]⟩

def RuleList.database : RuleList := ⟨"V2IP.DAT", .site, []⟩

/-- What they compile to. -/
def Compilation.withDatabase : Compilation where
  sites := [⟨"MY LIST", [⟨2, "a.com", []⟩]⟩, ⟨"V2IP.DAT", []⟩]
  index := ⟨["my list", "v2ip.dat"], []⟩
  proxy := ⟨["# Domain:my list", "- DOMAIN-SUFFIX,a.com,Proxy", "# Domain:v2ip.dat"]⟩

/-- The files in the directory after the build. -/
def withDatabaseBuilt : List (String × List UInt8) :=
  [("my list", Text.utf8 "a.com\n"),
    ("v2ip.dat", []),
    ("v2site.dat", Geo.encodeSites Compilation.withDatabase.sites),
    ("v2map.txt", Text.utf8 Compilation.withDatabase.index.render),
    ("v2yaml.yaml", Text.utf8 Compilation.withDatabase.proxy.render)]

/-- What they make, checked. -/
-- a definition, as the proofs after it are not begun before this long check is done
def checkedLoads : { loads : List (Option RuleList) //
    withDatabaseBuilt.map (fun file => (RuleList.load file.1 file.2).toOption) = loads } :=
  ⟨[some .blankName, some .database, none, none, none], by decide +kernel⟩

theorem load_withDatabase :
    (RuleList.load "my list" (Text.utf8 "a.com\n")).toOption = some .blankName ∧
    (RuleList.load "v2ip.dat" []).toOption = some .database ∧
    (RuleList.load "v2site.dat" (Geo.encodeSites Compilation.withDatabase.sites)).toOption = none ∧
    (RuleList.load "v2map.txt" (Text.utf8 Compilation.withDatabase.index.render)).toOption = none ∧
    (RuleList.load "v2yaml.yaml" (Text.utf8 Compilation.withDatabase.proxy.render)).toOption =
      none := by
  have hloads := checkedLoads.property
  simp only [withDatabaseBuilt, checkedLoads, List.map_cons, List.map_nil, List.cons.injEq,
    and_true] at hloads
  exact hloads

theorem listsOf_withDatabase : listsOf withDatabase = [.blankName, .database] := by
  obtain ⟨hlist, hdatabase, -⟩ := load_withDatabase
  simp only [listsOf, withDatabase, List.filterMap_cons, hlist, hdatabase, List.filterMap_nil]

theorem listsOf_withDatabaseBuilt : listsOf withDatabaseBuilt = [.blankName, .database] := by
  obtain ⟨hlist, hdatabase, hsites, hindex, hproxy⟩ := load_withDatabase
  simp only [listsOf, withDatabaseBuilt, List.filterMap_cons, hlist, hdatabase, hsites, hindex,
    hproxy, List.filterMap_nil]

theorem compile_withDatabase :
    (Registry.ofList [.blankName, .database]).compile = .ok .withDatabase := by
  have hfirst : RuleList.blankName.compile (.ofList [.blankName, .database]) =
      .ok { RuleList.blankName.reports with sites := [⟨"MY LIST", [⟨2, "a.com", []⟩]⟩] } := by
    rw [RuleList.compile, RuleList.resolve_eq_self (by decide)]
    decide +kernel
  have hsecond : RuleList.database.compile (.ofList [.blankName, .database]) =
      .ok { RuleList.database.reports with sites := [⟨"V2IP.DAT", []⟩] } := by
    rw [RuleList.compile, RuleList.resolve_eq_self (by decide)]
    decide +kernel
  change Registry.compileLists _ [.blankName, .database] = _
  simp only [Registry.compileLists, hfirst, hsecond]
  decide +kernel

/-- What was written is harmless wherever the address database was empty before and the other files
were missing. -/
theorem harmless_withDatabase {files : List (String × List UInt8)} (h : Named files)
    (hlookup : ∀ name ∈ Compilation.fileNames,
      files.lookup name = if name = "v2ip.dat" then some [] else none) :
    Config.Harmless {} (ofFiles files) .withDatabase := by
  obtain ⟨-, hdatabase, hsites, hindex, hproxy⟩ := load_withDatabase
  refine harmless_ofFiles h fun file hfile => ?_
  rw [hlookup _ (Compilation.mem_fileNames hfile)]
  simp only [Compilation.files, List.mem_cons, List.not_mem_nil, or_false] at hfile
  rcases hfile with rfl | rfl | rfl | rfl
  · exact hsites
  · exact hdatabase.trans hdatabase.symm
  · exact hindex
  · exact hproxy

/-- The default configuration reads what it writes. Here the address database makes the list that it
made before and none of the other files makes one, so that the next build does the same again,
although it meets all files and lists in the opposite order. -/
theorem run_again_withDatabase :
    (ofFiles withDatabase).WellFormed ∧
    (run {} (ofFiles withDatabase)).result = .ok .withDatabase ∧
    Config.Unambiguous {} (ofFiles withDatabase) ∧
    Config.Harmless {} (ofFiles withDatabase) .withDatabase ∧
    (run {} (ofFiles withDatabase)).fs.filesIn "./" =
      ["./my list", "./v2ip.dat", "./v2site.dat", "./v2map.txt", "./v2yaml.yaml"] ∧
    ∃ c', (run {} (run {} (ofFiles withDatabase)).fs .none .backwards).result = .ok c' ∧
      Compilation.withDatabase.Reordered c' := by
  have hnamed : Named withDatabase := ⟨by decide, by decide⟩
  obtain ⟨hresult, hafter⟩ := run_ofFiles hnamed (listsOf_withDatabase ▸ compile_withDatabase)
  have hnames : Config.Unambiguous {} (ofFiles withDatabase) :=
    unambiguous_ofFiles hnamed (listsOf_withDatabase ▸ by decide)
  have hharmless : Config.Harmless {} (ofFiles withDatabase) .withDatabase :=
    harmless_withDatabase hnamed (by decide)
  have hfs : (ofFiles withDatabase).WellFormed := ⟨by decide, by decide +kernel, by decide +kernel⟩
  refine ⟨hfs, hresult, hnames, hharmless, ?_, ?_⟩
  · rw [hafter]
    exact FileSystem.filesIn_ofFiles withDatabaseBuilt
  · obtain ⟨c', hagain, hreordered, -⟩ := run_again {} (ofFiles withDatabase) hfs .none .asKept
      .backwards .withDatabase hresult hnames hharmless
    exact ⟨c', hagain, hreordered⟩

/-- A list that has the name of another one and includes a missing one. -/
def RuleList.rival : RuleList := ⟨"MY LIST", .site, [⟨.inclusion, "b", []⟩]⟩

/-- The files, and before them that of the rival. -/
def withRival (files : List (String × List UInt8)) : List (String × List UInt8) :=
  ("MY LIST", Text.utf8 "include:b\n") :: files

theorem listsOf_withRival (files : List (String × List UInt8)) :
    listsOf (withRival files) = .rival :: listsOf files := by
  have hload : (RuleList.load "MY LIST" (Text.utf8 "include:b\n")).toOption = some .rival := by
    decide +kernel
  simp only [listsOf, withRival, List.filterMap_cons, hload]

/-- Where two lists have one name, the next build may fail although the first one did not and what
was written is harmless: it meets the lists in the opposite order, and the other one counts. -/
theorem run_again_withRival :
    (run {} (ofFiles (withRival withDatabase))).result = .ok .withDatabase ∧
    Config.Harmless {} (ofFiles (withRival withDatabase)) .withDatabase ∧
    ∀ c, (run {} (run {} (ofFiles (withRival withDatabase))).fs .none .backwards).result ≠
      .ok c := by
  have hnamed : Named (withRival withDatabase) := ⟨by decide, by decide⟩
  -- the rival counts for nothing in the order of the first build
  have hcompile : (Registry.ofList (listsOf (withRival withDatabase))).compile =
      .ok .withDatabase := by
    rw [listsOf_withRival, listsOf_withDatabase]
    exact compile_withDatabase
  obtain ⟨hresult, hafter⟩ := run_ofFiles hnamed hcompile
  have hbuilt : (run {} (ofFiles (withRival withDatabase))).fs =
      ofFiles (withRival withDatabaseBuilt) := hafter
  refine ⟨hresult, harmless_withDatabase hnamed (by decide), ?_⟩
  rw [hbuilt]
  obtain ⟨report, hload, hregistry⟩ :=
    loadDirectory_ofFiles_backwards (⟨by decide, by decide⟩ : Named (withRival withDatabaseBuilt))
  rw [listsOf_withRival, listsOf_withDatabaseBuilt] at hregistry
  have hmem : RuleList.rival ∈ Orders.backwards.lists report.registry := by
    rw [hregistry]
    decide
  refine run_ne_ok hload hmem fun part hpart => ?_
  have hfound := (RuleList.compile_isOk_iff.mp ⟨part, hpart⟩).1 "B" (.own (by decide +kernel))
  rw [hregistry] at hfound
  exact absurd hfound (by decide)

/-! ### A build that breaks the next one -/

/-- The file of a list. -/
def single : List (String × List UInt8) := [("a", Text.utf8 "a.com\n")]

/-- The list. -/
def RuleList.single : RuleList := ⟨"A", .site, [⟨.domain, "a.com", []⟩]⟩

/-- The site database of the list, taken for a list. -/
def RuleList.sitesOfSingle : RuleList :=
  ⟨"V2SITE.DAT", .site,
    [⟨.domain, "\x0e", []⟩, ⟨.domain, "\x01a\x12\t\x08\x02\x12\x05a.com", []⟩]⟩

/-- The category index of the list, taken for a list. -/
def RuleList.indexOfSingle : RuleList :=
  ⟨"V2MAP.TXT", .site, [⟨.unknown, "", []⟩, ⟨.domain, "a", []⟩, ⟨.unknown, "", []⟩]⟩

/-- What the list compiles to. -/
def Compilation.single : Compilation where
  sites := [⟨"A", [⟨2, "a.com", []⟩]⟩]
  index := ⟨["a"], []⟩
  proxy := ⟨["# Domain:a", "- DOMAIN-SUFFIX,a.com,Proxy"]⟩

theorem compile_single : (Registry.ofList [.single]).compile = .ok .single := by
  have hsingle : RuleList.single.compile (.ofList [.single]) = .ok .single := by
    rw [RuleList.compile, RuleList.resolve_eq_self (by decide)]
    decide +kernel
  change Registry.compileLists _ [.single] = _
  rw [Registry.compileLists, hsingle]
  rfl

/-- The lists in the directory after the build: all of its files but the proxy rules make one. -/
-- a definition, for the reason that `checkedLoads` is one
def listsOfBuilt : { lists : List RuleList //
    listsOf (single ++ Compilation.single.files) = lists } :=
  ⟨[.single, .sitesOfSingle, .database, .indexOfSingle], by decide +kernel⟩

/-- A build with the default configuration fails where it succeeded just before: it reads its own
category index. -/
theorem run_twice_fails :
    (ofFiles single).WellFormed ∧ (run {} (ofFiles single)).result = .ok .single ∧
    ∀ c, (run {} (run {} (ofFiles single)).fs).result ≠ .ok c := by
  have hlists : listsOf single = [.single] := by decide +kernel
  obtain ⟨hresult, hafter⟩ := run_ofFiles ⟨by decide, by decide⟩ (hlists ▸ compile_single)
  have hbuilt : (run {} (ofFiles single)).fs =
      ofFiles (single ++ Compilation.single.files) := hafter
  refine ⟨⟨by decide, by decide +kernel, by decide +kernel⟩, hresult, ?_⟩
  rw [hbuilt]
  have hnamed : Named (single ++ Compilation.single.files) := ⟨by decide, by decide⟩
  obtain ⟨report, hload, hregistry⟩ := loadDirectory_ofFiles hnamed
  have hmem : RuleList.indexOfSingle ∈ Orders.asKept.lists report.registry := by
    rw [hregistry, listsOfBuilt.property]
    decide
  refine run_ne_ok hload hmem fun part hpart => ?_
  have hdomains := (RuleList.compile_isOk_iff.mp ⟨part, hpart⟩).2 rfl
  exact hdomains.1 ⟨.unknown, "", []⟩ List.mem_cons_self (by decide)

end GeoRules
