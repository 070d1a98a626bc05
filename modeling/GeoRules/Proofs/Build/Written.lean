import GeoRules.Proofs.Build.Writing
import GeoRules.Proofs.Geo.RoundTrip

/-! # What a build leaves in its files

The four files of a compilation are written one after the other. If all of them are written, each
lies at the place to which its path led before the first one was written (`write_eq_putAll`). Where
no path is that of a link these are four places, so that each file holds what was written into it
(`read_write`), and the two databases are read back from it. -/

namespace GeoRules

open File

/-! ### Writing -/

namespace Writing

variable {fs : FileSystem} {faults : Faults} {w : Writing} {dir : String}
  {files : List (String × List UInt8)}

theorem failure_of_add {path : String} {bytes : List UInt8}
    (h : (w.add faults path bytes).failure = none) :
    w.failure = none ∧ w.fs.write path bytes faults = .ok (w.add faults path bytes).fs := by
  unfold add at *
  rcases hwrite : w.fs.write path bytes faults with ⟨e, fs'⟩ | fs'
  · rw [hwrite] at h
    simp at h
  · rw [hwrite] at h
    exact ⟨h, rfl⟩

theorem failure_of_addAll (h : (w.addAll faults dir files).failure = none) : w.failure = none := by
  induction files generalizing w with
  | nil => exact h
  | cons file files ih => exact (failure_of_add (ih h)).1

theorem add_of_accepts {path : String} {p : Place} {bytes : List UInt8}
    (h : w.fs.Accepts faults path p bytes) :
    (w.add faults path bytes).fs = w.fs.put p (.file bytes) ∧
      (w.add faults path bytes).failure = w.failure := by
  rw [add, h.write]
  exact ⟨rfl, rfl⟩

/-- Files that can be written are written at the places to which their paths led at first. -/
theorem addAll_of_accepts (place : String → Place)
    (h : ∀ file ∈ files, fs.Accepts faults (join dir file.1) (place file.1) file.2)
    (hw : fs.Filled w.fs) :
    (w.addAll faults dir files).fs = w.fs.putAll (files.map fun file => (place file.1, file.2)) ∧
      (w.addAll faults dir files).failure = w.failure := by
  induction files generalizing w with
  | nil => exact ⟨rfl, rfl⟩
  | cons file files ih =>
    rw [List.forall_mem_cons] at h
    have ha := hw.accepts_iff.mpr h.1
    obtain ⟨hfs, hfailure⟩ := add_of_accepts ha
    have hfilled : fs.Filled (w.add faults (join dir file.1) file.2).fs := by
      rw [hfs]
      exact hw.trans (.put ha.target.takesFile _)
    obtain ⟨hall, hnone⟩ := ih h.2 hfilled
    rw [addAll_cons, hall, hnone, hfs, hfailure]
    exact ⟨rfl, rfl⟩

/-- Where all files were written and no path leads to a link, all could be written at first. -/
theorem accepts_of_addAll (hlink : ∀ file ∈ files, ∀ p target,
      fs.locate .write (join dir file.1) ≠ .ok (p, some (.link target)))
    (hw : fs.Filled w.fs) (h : (w.addAll faults dir files).failure = none) :
    ∀ file ∈ files, ∃ p, fs.Accepts faults (join dir file.1) p file.2 := by
  induction files generalizing w with
  | nil => simp
  | cons file files ih =>
    rw [List.forall_mem_cons] at hlink ⊢
    rw [addAll_cons] at h
    obtain ⟨-, hwrite⟩ := failure_of_add (failure_of_addAll h)
    obtain ⟨p, ha⟩ := FileSystem.exists_accepts hwrite (hw.locate_ne_link hlink.1)
    have hfilled : fs.Filled (w.add faults (join dir file.1) file.2).fs := by
      rw [(add_of_accepts ha).1]
      exact hw.trans (.put ha.target.takesFile _)
    exact ⟨⟨p, hw.accepts_iff.mp ha⟩, ih hlink.2 hfilled h⟩

end Writing

namespace Compilation

variable {c : Compilation} {fs : FileSystem} {faults : Faults} {dir : String}
  {place : String → Place}

/-- The files, each at the place for its name. -/
def placed (c : Compilation) (place : String → Place) : List (Place × List UInt8) :=
  c.files.map fun file => (place file.1, file.2)

theorem takesFile_placed
    (h : ∀ file ∈ c.files, fs.Target (join dir file.1) (place file.1)) :
    ∀ entry ∈ c.placed place, FileSystem.TakesFile (fs.node? entry.1) := by
  intro entry hentry
  obtain ⟨file, hfile, rfl⟩ := List.mem_map.mp hentry
  exact (h file hfile).takesFile

theorem filled_placed (h : ∀ file ∈ c.files, fs.Target (join dir file.1) (place file.1)) :
    fs.Filled (fs.putAll (c.placed place)) :=
  .putAll (takesFile_placed h)

theorem write_of_accepts (place : String → Place)
    (h : ∀ file ∈ c.files, fs.Accepts faults (join dir file.1) (place file.1) file.2) :
    (c.write fs dir faults).fs = fs.putAll (c.placed place) ∧
      (c.write fs dir faults).failure = none :=
  Writing.addAll_of_accepts place h (.refl fs)

/-- **The files lie at the places to which their paths led**, if all were written and none of the
paths leads to a link that cannot be followed. -/
theorem write_eq_putAll (h : (c.write fs dir faults).failure = none)
    (hlink : ∀ name ∈ fileNames, ∀ p target,
      fs.locate .write (join dir name) ≠ .ok (p, some (.link target))) :
    ∃ place : String → Place,
      (∀ file ∈ c.files, fs.Accepts faults (join dir file.1) (place file.1) file.2) ∧
      (c.write fs dir faults).fs = fs.putAll (c.placed place) := by
  have haccepts : ∀ file ∈ c.files, ∃ p, fs.Accepts faults (join dir file.1) p file.2 :=
    Writing.accepts_of_addAll (fun file hfile => hlink file.1 (mem_fileNames hfile)) (.refl fs) h
  -- the files have different names, so that the places are given by the names
  obtain ⟨place, hplace⟩ : ∃ place : String → Place,
      ∀ file ∈ c.files, fs.Accepts faults (join dir file.1) (place file.1) file.2 := by
    refine ⟨fun name => Classical.epsilon (fs.Target (join dir name)), fun file hfile => ?_⟩
    obtain ⟨p, hp⟩ := haccepts file hfile
    have hplace : Classical.epsilon (fs.Target (join dir file.1)) = p :=
      (Classical.epsilon_spec ⟨p, hp.target⟩ : fs.Target (join dir file.1) _).unique hp.target
    change fs.Accepts faults (join dir file.1) (Classical.epsilon (fs.Target _)) file.2
    rwa [hplace]
  exact ⟨place, hplace, (write_of_accepts place hplace).1⟩

/-- **Every file holds what was written into it**, if all were written and none of their paths is
that of a link. -/
theorem read_write (h : (c.write fs dir faults).failure = none)
    (hlink : ∀ name ∈ fileNames, ∀ p target,
      fs.locate .look (join dir name) ≠ .ok (p, some (.link target))) :
    ∀ file ∈ c.files, (c.write fs dir faults).fs.read (join dir file.1) = .ok file.2 := by
  intro file hfile
  obtain ⟨hleaves, hfailure, -⟩ := write_outcome hlink
  have hnone := List.findSome?_eq_none_iff.mp (hfailure.symm.trans h) file hfile
  obtain ⟨fs₁, hwrite⟩ := Writing.fault?_eq_none_iff.mp hnone
  obtain ⟨hn, hln⟩ := plain_fileNames hlink file.1 (mem_fileNames hfile)
  obtain ⟨p, ha⟩ := FileSystem.exists_accepts hwrite (hln.locate_write_ne hn)
  rw [read_write_of_openFile hlink hfile (ha.target.openFile ha.opening), Faults.taken, ha.stop]

end Compilation

/-- **Databases are read back as they were written**, from their bytes and from the files of a
compilation that were all written, none of them by the path of a link. -/
theorem databases_round_trip :
    (∀ sites, (∀ s ∈ sites, Geo.SiteFits s) → Geo.decodeSites (Geo.encodeSites sites) = .ok sites) ∧
    (∀ ips, (∀ g ∈ ips, Geo.IpFits g) → Geo.decodeIps (Geo.encodeIps ips) = .ok ips) ∧
    ∀ (c : Compilation) (fs : FileSystem) (dir : String) (faults : Faults),
      (∀ s ∈ c.sites, Geo.SiteFits s) → (∀ g ∈ c.ips, Geo.IpFits g) →
      (c.write fs dir faults).failure = none →
      (∀ name ∈ Compilation.fileNames, ∀ p target,
        fs.locate .look (join dir name) ≠ .ok (p, some (.link target))) →
      readSites (c.write fs dir faults).fs (join dir siteFile) = .ok c.sites ∧
        readIps (c.write fs dir faults).fs (join dir ipFile) = .ok c.ips := by
  refine ⟨fun sites => Geo.decodeSites_encodeSites, fun ips => Geo.decodeIps_encodeIps, ?_⟩
  intro c fs dir faults hsites hips h hlink
  have hread := Compilation.read_write h hlink
  have hsite : (c.write fs dir faults).fs.read (join dir siteFile) =
      .ok (Geo.encodeSites c.sites) :=
    hread (siteFile, Geo.encodeSites c.sites) (by simp [Compilation.files])
  have hip : (c.write fs dir faults).fs.read (join dir ipFile) = .ok (Geo.encodeIps c.ips) :=
    hread (ipFile, Geo.encodeIps c.ips) (by simp [Compilation.files])
  constructor
  · rw [readSites, hsite]
    simp only [Geo.decodeSites_encodeSites hsites]
    rfl
  · rw [readIps, hip]
    simp only [Geo.decodeIps_encodeIps hips]
    rfl

/-- A site and an address list with fields at their defaults and beyond all named types. -/
def Compilation.oddities : Compilation where
  sites := [⟨"A", [⟨-1, "b", [⟨"k", none⟩, ⟨"", some (.flag false)⟩, ⟨"n", some (.number (-1))⟩]⟩,
    ⟨0, "", []⟩]⟩]
  ips := [⟨"", [⟨[1, 2, 3], 4294967295⟩, ⟨[], 0⟩]⟩]

/-- A directory with an older file in it. -/
def File.FileSystem.withOlderFile : FileSystem :=
  ⟨[(["w"], .directory), (["w", "out"], .directory), (["w", "out", "v2ip.dat"], .file [0])], ["w"]⟩

/-- The oddities are read back from the directory, the older file overwritten. -/
theorem databases_round_trip_oddities :
    readSites (Compilation.oddities.write .withOlderFile "out").fs "out/v2site.dat" =
        .ok Compilation.oddities.sites ∧
      readIps (Compilation.oddities.write .withOlderFile "out").fs "out/v2ip.dat" =
        .ok Compilation.oddities.ips := by
  have hlocate : ∀ purpose ∈ [FileSystem.Purpose.look, .write], ∀ name ∈ Compilation.fileNames,
      FileSystem.withOlderFile.LeadsWithin purpose 2 (join "out" name) (.ok (["w", "out", name],
        if name = ipFile then some (.file [0]) else none)) := by
    decide +kernel
  have hlink : ∀ name ∈ Compilation.fileNames, ∀ p target,
      FileSystem.withOlderFile.locate .look (join "out" name) ≠ .ok (p, some (.link target)) := by
    intro name hname p target
    rw [(hlocate .look (by decide) name hname).locate]
    split <;> simp
  have haccepts : ∀ file ∈ Compilation.oddities.files,
      FileSystem.withOlderFile.Accepts .none (join "out" file.1) ["w", "out", file.1] file.2 := by
    intro file hfile
    have hname : file.1 ∈ Compilation.fileNames := List.mem_map_of_mem hfile
    refine ⟨⟨_, (hlocate .write (by decide) _ hname).locate, ?_⟩, rfl, rfl⟩
    split
    · exact Or.inr ⟨[0], rfl⟩
    · exact Or.inl rfl
  have hfailure : (Compilation.oddities.write .withOlderFile "out").failure = none :=
    (Compilation.write_of_accepts (fun name => ["w", "out", name]) haccepts).2
  exact databases_round_trip.2.2 .oddities .withOlderFile "out" .none (by decide +kernel)
    (by decide +kernel) hfailure hlink

end GeoRules
