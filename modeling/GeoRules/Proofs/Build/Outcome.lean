import GeoRules.Proofs.Build.Rerun

/-! # What a build leaves on disk

A build that fails before it writes leaves the file system as it was. Otherwise all four files are
tried: the disk holds those that can be written, the first bytes of those that are opened but do not
take all, and nothing else has changed; the build fails with the first failure (`run_leaves`).

What has not changed are places. A link elsewhere may lead to the place of an output, and then there
is something new under its path (`run_leaves_aliased`). -/

namespace GeoRules

open File

/-! ### The whole build -/

/-- **What a build leaves on disk**, whatever the machine refuses and in whatever orders it gives
what has none. If the build cannot load or compile, it fails with that error and leaves everything
as it was. Otherwise, where no output is a link, the encoded databases and the two reports are all
tried: the disk holds those that can be written and is as it was in all else but the files that are
opened and do not take all bytes. The result is the compilation or the failure of the first file
that cannot be written. -/
theorem run_leaves (config : Config) (fs : FileSystem) (faults : Faults) (orders : Orders) :
    (∀ e, loadDirectory fs config.dataPath faults orders = .error e →
      run config fs faults orders =
        ⟨.error (.data e), fs, loadEvents fs config.dataPath faults orders⟩) ∧
    ∀ report, loadDirectory fs config.dataPath faults orders = .ok report →
      (∀ e, report.registry.compileLists (orders.lists report.registry) = .error e →
        run config fs faults orders = ⟨.error (.compile e), fs, report.events ++
          .allLoaded report.registry.size config.dataPath report.skipped ::
            report.registry.compileEvents (orders.lists report.registry)⟩) ∧
      ∀ c, report.registry.compileLists (orders.lists report.registry) = .ok c →
        (∀ name ∈ ["v2site.dat", "v2ip.dat", "v2map.txt", "v2yaml.yaml"],
          fs.NoLink (join config.outputDir name)) →
        c.files = [("v2site.dat", Geo.encodeSites c.sites), ("v2ip.dat", Geo.encodeIps c.ips),
          ("v2map.txt", Text.utf8 c.index.render), ("v2yaml.yaml", Text.utf8 c.proxy.render)] ∧
        c.Leaves fs faults config.outputDir (run config fs faults orders).fs ∧
        (run config fs faults orders).events = report.events ++
          .allLoaded report.registry.size config.dataPath report.skipped ::
            report.registry.compileEvents (orders.lists report.registry) ++
          c.files.map (Writing.attempt faults fs config.outputDir) ∧
        ((run config fs faults orders).result = .ok c ∧ (∀ file ∈ c.files, ∃ fs₁,
            fs.write (join config.outputDir file.1) file.2 faults = .ok fs₁) ∨
          ∃ before file after e fs₁, c.files = before ++ file :: after ∧
            (∀ f ∈ before, ∃ fs₁,
              fs.write (join config.outputDir f.1) f.2 faults = .ok fs₁) ∧
            fs.write (join config.outputDir file.1) file.2 faults = .error (e, fs₁) ∧
            (run config fs faults orders).result = .error (.write e)) := by
  refine ⟨fun e he => ?_, fun report hload => ⟨fun e he => ?_, fun c hc hlink => ?_⟩⟩
  · simp only [run, he]
  · simp only [run, hload, he]
  · obtain ⟨hleaves, hfailure, hevents⟩ :
        c.Leaves fs faults config.outputDir (c.write fs config.outputDir faults).fs ∧ _ ∧ _ :=
      Compilation.write_outcome hlink
    obtain ⟨hfs, hrunEvents, hok, herror⟩ := run_of_compiled config hload hc
    refine ⟨rfl, hfs ▸ hleaves, hevents ▸ hrunEvents, ?_⟩
    rcases hfirst : c.files.findSome? (Writing.fault? faults fs config.outputDir) with _ | e
    · exact Or.inl ⟨hok (hfailure.trans hfirst), fun file hfile =>
        Writing.fault?_eq_none_iff.mp (List.findSome?_eq_none_iff.mp hfirst file hfile)⟩
    · obtain ⟨before, file, after, hfiles, hfile, hbefore⟩ := List.findSome?_eq_some_iff.mp hfirst
      obtain ⟨fs₁, hwrite⟩ := Writing.fault?_eq_some_iff.mp hfile
      exact Or.inr ⟨before, file, after, e, fs₁, hfiles,
        fun f hf => Writing.fault?_eq_none_iff.mp (hbefore f hf), hwrite,
        herror e (hfailure.trans hfirst)⟩

/-! ### A machine that refuses -/

/-- The site database may not be written, and there is room for three bytes of the category
index. -/
def File.Faults.refusing : Faults where
  opening p := if p = ["w", "out", "v2site.dat"] then some .permissionDenied else .none
  writing p := if p = ["w", "out", "v2map.txt"] then some (3, .noSpace) else .none

namespace File.FileSystem

/-- A directory with the file of a list and a link to the address database, which is still missing,
beside a directory for the output, where an older file lies. -/
def aliased : FileSystem :=
  ⟨[(["w"], .directory), (["w", "d"], .directory), (["w", "d", "a"], .file (Text.utf8 "a.com\n")),
    (["w", "d", "x"], .link "../out/v2ip.dat"), (["w", "out"], .directory),
    (["w", "out", "v2map.txt"], .file (Text.utf8 "old\n"))], ["w"]⟩

/-- Where the paths lead to the data and to the output. -/
theorem locate_aliased :
    (∀ purpose ∈ [Purpose.look, .read],
      aliased.locate purpose "d" = .ok (["w", "d"], some .directory)) ∧
    aliased.locate .read "d/a" = .ok (["w", "d", "a"], some (.file (Text.utf8 "a.com\n"))) ∧
    aliased.locate .read "d/x" = .ok (["w", "out", "v2ip.dat"], none) ∧
    ∀ purpose ∈ [Purpose.look, .write], ∀ name ∈ Compilation.fileNames,
      aliased.locate purpose (join "out" name) = .ok (["w", "out", name],
        if name = "v2map.txt" then some (.file (Text.utf8 "old\n")) else none) := by
  have hleads :
      (∀ purpose ∈ [Purpose.look, .read],
        aliased.LeadsWithin purpose 1 "d" (.ok (["w", "d"], some .directory))) ∧
      aliased.LeadsWithin .read 2 "d/a"
        (.ok (["w", "d", "a"], some (.file (Text.utf8 "a.com\n")))) ∧
      aliased.LeadsWithin .read 5 "d/x" (.ok (["w", "out", "v2ip.dat"], none)) ∧
      ∀ purpose ∈ [Purpose.look, .write], ∀ name ∈ Compilation.fileNames,
        aliased.LeadsWithin purpose 2 (join "out" name) (.ok (["w", "out", name],
          if name = "v2map.txt" then some (.file (Text.utf8 "old\n")) else none)) := by
    decide +kernel
  exact ⟨fun purpose hp => (hleads.1 purpose hp).locate, hleads.2.1.locate, hleads.2.2.1.locate,
    fun purpose hp name hname => (hleads.2.2.2 purpose hp name hname).locate⟩

theorem noLink_aliased : ∀ name ∈ Compilation.fileNames, aliased.NoLink (join "out" name) := by
  intro name hname p target
  rw [locate_aliased.2.2.2 .look (by decide) name hname]
  split <;> simp

theorem target_aliased : ∀ name ∈ Compilation.fileNames,
    aliased.Target (join "out" name) ["w", "out", name] := by
  intro name hname
  refine ⟨_, locate_aliased.2.2.2 .write (by decide) name hname, ?_⟩
  split
  · exact Or.inr ⟨_, rfl⟩
  · exact Or.inl rfl

theorem openFile_refusing :
    aliased.openFile (join "out" "v2site.dat") .refusing = .error .permissionDenied ∧
    ∀ name ∈ ["v2ip.dat", "v2map.txt", "v2yaml.yaml"],
      aliased.openFile (join "out" name) .refusing = .ok ["w", "out", name] := by
  constructor
  · rw [openFile, locate_aliased.2.2.2 .write (by decide) _ (by decide)]
    rfl
  · intro name hname
    refine (target_aliased name (List.mem_cons_of_mem _ hname)).openFile ?_
    revert name
    decide

/-- The site database is refused as a whole, the address database and the proxy rules are not. -/
theorem write_refusing :
    (∀ bytes, aliased.write (join "out" "v2site.dat") bytes .refusing =
      .error (.permissionDenied, aliased)) ∧
    ∀ name ∈ ["v2ip.dat", "v2yaml.yaml"], ∀ bytes,
      ∃ fs₁, aliased.write (join "out" name) bytes .refusing = .ok fs₁ := by
  obtain ⟨hrefused, hopen⟩ := openFile_refusing
  refine ⟨fun bytes => by rw [FileSystem.write, hrefused], fun name hname bytes => ?_⟩
  have hopened : aliased.openFile (join "out" name) .refusing = .ok ["w", "out", name] := by
    refine hopen name ?_
    revert name
    decide
  have hroom : Faults.refusing.stop? ["w", "out", name] bytes = none := by
    rcases List.mem_pair.mp hname with rfl | rfl <;> rfl
  rw [FileSystem.write, hopened]
  simp only [hroom]
  exact ⟨_, rfl⟩

theorem load_aliased (faults : Faults) (hlisting : ∀ p, faults.listing p = none) :
    ∃ report, loadDirectory aliased "d" faults = .ok report ∧
      report.registry = .ofList [.single] := by
  obtain ⟨hdir, ha, hx, -⟩ := locate_aliased
  have hlook := hdir .look (by decide)
  have hread := hdir .read (by decide)
  have hleads : aliased.leads "d" := by rw [leads, hread]
  have hbarred : aliased.barred "d" faults = [] := by
    refine barred_eq_nil_of_locate hlisting [("d", ["w", "d"])] ?_ (by simpa using hread)
    rw [directoriesIn, hread]
    decide +kernel
  have hfiles : aliased.filesIn "d" = ["d/a", "d/x"] := by
    rw [filesIn_eq, pathItself, hlook, hread]
    decide +kernel
  have hload : RuleList.load "a" (Text.utf8 "a.com\n") = .ok .single := by decide +kernel
  have hfirst : loadFile aliased "d/a" = .ok .single := by
    have hbytes : aliased.read "d/a" = .ok (Text.utf8 "a.com\n") := by rw [FileSystem.read, ha]
    exact loadFile_of_read hbytes hload
  have hsecond : loadFile aliased "d/x" = .error (.file .notFound) := by
    rw [loadFile, FileSystem.read, hx]
  refine ⟨_, loadDirectory_asKept hleads hbarred, ?_⟩
  rw [hfiles, registry_loadFiles]
  simp only [List.filterMap_cons, hfirst, hsecond]
  rfl

end File.FileSystem

open File.FileSystem (aliased)

/-- The site database is not opened and is left as it was, of the category index there are the first
bytes, and the other files are written. -/
theorem run_leaves_refusing :
    (run ⟨"d", "out"⟩ aliased .refusing).result = .error (.write .permissionDenied) ∧
    (run ⟨"d", "out"⟩ aliased .refusing).fs.locate .look "out/v2site.dat" =
      .ok (["w", "out", "v2site.dat"], none) ∧
    (run ⟨"d", "out"⟩ aliased .refusing).fs.read "out/v2ip.dat" = .ok (Geo.encodeIps []) ∧
    (run ⟨"d", "out"⟩ aliased .refusing).fs.read "out/v2map.txt" = .ok (Text.utf8 "v2s") ∧
    (run ⟨"d", "out"⟩ aliased .refusing).fs.read "out/v2yaml.yaml" =
      .ok (Text.utf8 "# Domain:a\n- DOMAIN-SUFFIX,a.com,Proxy\n") := by
  obtain ⟨hrefused, hopen⟩ := File.FileSystem.openFile_refusing
  obtain ⟨hsite, hwrite⟩ := File.FileSystem.write_refusing
  obtain ⟨report, hload, hregistry⟩ := File.FileSystem.load_aliased .refusing fun _ => rfl
  obtain ⟨hfiles, hleaves, -, hresult⟩ :=
    ((run_leaves ⟨"d", "out"⟩ aliased .refusing .asKept).2 report hload).2 .single
      (hregistry ▸ compile_single) File.FileSystem.noLink_aliased
  refine ⟨?_, ?_, ?_, ?_, ?_⟩
  · rcases hresult with ⟨-, hwritten⟩ | ⟨before, file, after, e, fs₁, hsplit, hbefore, he, hresult⟩
    · obtain ⟨fs₁, hwritten⟩ := hwritten _ (hfiles ▸ List.mem_cons_self)
      rw [hsite] at hwritten
      cases hwritten
    · rw [hfiles] at hsplit
      rcases before with _ | ⟨first, before⟩
      · obtain ⟨rfl, -⟩ := List.cons.inj hsplit
        rw [hsite] at he
        rw [hresult, (Prod.mk.inj (Except.error.inj he)).1]
      · obtain ⟨rfl, -⟩ := List.cons.inj hsplit
        obtain ⟨fs₁, hwritten⟩ := hbefore _ List.mem_cons_self
        rw [hsite] at hwritten
        cases hwritten
  · refine (hleaves.site.left _ hrefused .look).trans ?_
    exact File.FileSystem.locate_aliased.2.2.2 .look (by decide) _ (by decide)
  · obtain ⟨fs₁, hwritten⟩ := hwrite "v2ip.dat" (by decide) (Geo.encodeIps Compilation.single.ips)
    exact hleaves.ip.written fs₁ hwritten
  · refine (hleaves.index.stopped _ 3 .noSpace (hopen "v2map.txt" (by decide)) ?_).2.trans ?_
    · decide +kernel
    · decide +kernel
  · obtain ⟨fs₁, hwritten⟩ :=
      hwrite "v2yaml.yaml" (by decide) (Text.utf8 Compilation.single.proxy.render)
    refine (hleaves.proxy.written fs₁ hwritten).trans ?_
    decide +kernel

/-- Although no output is a link, there is something new under the path of a link elsewhere, which
led to nothing before a build that succeeds. And a file that cannot be written is not left as it was
if it is opened: it has lost what it held. -/
theorem run_leaves_aliased :
    aliased.WellFormed ∧ (∀ name ∈ Compilation.fileNames, aliased.NoLink (join "out" name)) ∧
    ((run ⟨"d", "out"⟩ aliased).result = .ok .single ∧
      aliased.read "d/x" = .error .notFound ∧
      (run ⟨"d", "out"⟩ aliased).fs.read "d/x" = .ok []) ∧
    (∃ fs₁, aliased.write "out/v2map.txt" (Text.utf8 Compilation.single.index.render) .refusing =
      .error (.noSpace, fs₁)) ∧
    aliased.read "out/v2map.txt" = .ok (Text.utf8 "old\n") ∧
    (run ⟨"d", "out"⟩ aliased .refusing).fs.read "out/v2map.txt" = .ok (Text.utf8 "v2s") := by
  obtain ⟨-, -, hx, houtput⟩ := File.FileSystem.locate_aliased
  have hindex : aliased.openFile (join "out" "v2map.txt") .refusing =
      .ok ["w", "out", "v2map.txt"] :=
    File.FileSystem.openFile_refusing.2 _ (by decide)
  have hlink := File.FileSystem.noLink_aliased
  refine ⟨⟨by decide, by decide +kernel, by decide +kernel⟩, hlink, ?_, ?_, ?_, ?_⟩
  · have haccepts : ∀ file ∈ Compilation.single.files,
        aliased.Accepts .none (join "out" file.1) ["w", "out", file.1] file.2 := fun file hfile =>
      ⟨File.FileSystem.target_aliased _ (Compilation.mem_fileNames hfile), rfl, rfl⟩
    obtain ⟨hwritten, hnone⟩ :=
      Compilation.write_of_accepts (fun name => ["w", "out", name]) haccepts
    obtain ⟨report, hload, hregistry⟩ := File.FileSystem.load_aliased .none fun _ => rfl
    obtain ⟨hresult, hafter⟩ := run_eq_ok ⟨"d", "out"⟩ hload (hregistry ▸ compile_single) hnone
    refine ⟨hresult, by rw [FileSystem.read, hx], ?_⟩
    have hfilled : aliased.Filled (run ⟨"d", "out"⟩ aliased).fs := by
      rw [hafter, hwritten]
      exact Compilation.filled_placed fun file hfile => (haccepts file hfile).target
    rw [FileSystem.read, hfilled.locate_eq_ok hx, hafter, hwritten]
    rfl
  · change ∃ fs₁, aliased.write (join "out" "v2map.txt") _ .refusing = .error (.noSpace, fs₁)
    rw [FileSystem.write, hindex]
    exact ⟨_, rfl⟩
  · have hlocate : aliased.locate .read "out/v2map.txt" =
        .ok (["w", "out", "v2map.txt"], some (.file (Text.utf8 "old\n"))) := by
      have hsame := FileSystem.locate_join_eq_look (by decide) (hlink "v2map.txt" (by decide)) .read
      exact hsame.trans (houtput .look (by decide) _ (by decide))
    rw [FileSystem.read, hlocate]
  · obtain ⟨report, hload, hregistry⟩ := File.FileSystem.load_aliased .refusing fun _ => rfl
    rw [(run_of_compiled ⟨"d", "out"⟩ hload (hregistry ▸ compile_single)).1]
    have hfile : (indexFile, Text.utf8 Compilation.single.index.render) ∈
        Compilation.single.files := by simp [Compilation.files]
    exact (Compilation.read_write_of_openFile hlink hfile hindex).trans (by decide +kernel)

end GeoRules
