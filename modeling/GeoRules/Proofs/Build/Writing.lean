import GeoRules.Build.Run
import GeoRules.Proofs.File.Beside
import Mathlib.Data.List.Nodup

/-! # Trying to write the files of a compilation

Every file is tried, whatever came of those before it, and what comes of it can be told from the
file system before the first one: the files tried beside it are opened or not as they were at first
(`Tried.openFile_eq`). Files of different names come to lie at different places (`nodup_landed`). So
each file that is opened holds afterwards what it takes, each that is not is left as it was, and the
failure is that of the first one (`Compilation.write_outcome`). -/

namespace GeoRules

open File

/-! ### One file -/

namespace File.FileSystem

variable {fs fs' : FileSystem} {faults : Faults} {path dir name : String} {p : Place}
  {bytes : List UInt8}

theorem putAll_append (fs : FileSystem) (files files' : List (Place × List UInt8)) :
    fs.putAll (files ++ files') = (fs.putAll files).putAll files' := List.foldl_append

/-- Whether a file is opened depends on where its path leads only. -/
theorem openFile_congr (h : fs'.locate .write path = fs.locate .write path) :
    fs'.openFile path faults = fs.openFile path faults := by
  rw [openFile, openFile, h]

/-- The path of a file that is no link leads to no link for those who write either. -/
theorem NoLink.locate_write_ne (h : fs.NoLink (join dir name)) (hname : EntryName name) (p : Place)
    (target : String) : fs.locate .write (join dir name) ≠ .ok (p, some (.link target)) := by
  rw [locate_join_eq_look hname.proper h]
  exact h p target

/-- What is left under the path of a file that was to hold the bytes. -/
structure Attempted (fs : FileSystem) (faults : Faults) (fs' : FileSystem) (path : String)
    (bytes : List UInt8) : Prop where
  /-- A file that can be written holds what was written. -/
  written : ∀ fs₁, fs.write path bytes faults = .ok fs₁ → fs'.read path = .ok bytes
  /-- A file that is opened but does not take all bytes holds those that it takes. -/
  stopped : ∀ p size e, fs.openFile path faults = .ok p →
    faults.stop? p bytes = some (size, e) →
    size < bytes.length ∧ fs'.read path = .ok (bytes.take size)
  /-- A path under which no file is opened leads where it led before, to what was there. -/
  left : ∀ e, fs.openFile path faults = .error e →
    ∀ purpose, fs'.locate purpose path = fs.locate purpose path

end File.FileSystem

theorem toOption_eq_some_iff {ε α : Type} {x : Except ε α} {a : α} :
    x.toOption = some a ↔ x = .ok a := by
  cases x <;> simp [Except.toOption]

theorem File.Faults.lt_of_stop? {faults : Faults} {p : Place} {bytes : List UInt8} {size : ℕ}
    {e : FileError} (h : faults.stop? p bytes = some (size, e)) : size < bytes.length := by
  have hsize := (Option.filter_eq_some_iff.mp h).2
  simpa using hsize

/-- How many bytes a file takes does not depend on what they are. -/
theorem File.Faults.stop?_congr {bytes bytes' : List UInt8} (h : bytes'.length = bytes.length)
    (faults : Faults) (p : Place) : faults.stop? p bytes' = faults.stop? p bytes := by
  rw [stop?, stop?, h]

/-! ### All files -/

namespace Writing

variable {fs fs' : FileSystem} {faults : Faults} {w : Writing} {dir : String}
  {names : List String} {file : String × List UInt8} {files : List (String × List UInt8)}

/-- The state after the files were tried in the directory. -/
def addAll (faults : Faults) (w : Writing) (dir : String) (files : List (String × List UInt8)) :
    Writing :=
  files.foldl (fun w (name, bytes) => w.add faults (join dir name) bytes) w

/-- The names are those of files, none of which is a link. -/
def Plain (fs : FileSystem) (dir : String) (names : List String) : Prop :=
  ∀ name ∈ names, FileSystem.EntryName name ∧ fs.NoLink (join dir name)

/-- The error with which the file cannot be written. -/
def fault? (faults : Faults) (fs : FileSystem) (dir : String) (file : String × List UInt8) :
    Option FileError :=
  match fs.write (join dir file.1) file.2 faults with
  | .ok _ => none
  | .error (e, _) => some e

theorem fault?_eq_none_iff : fault? faults fs dir file = none ↔
    ∃ fs₁, fs.write (join dir file.1) file.2 faults = .ok fs₁ := by
  unfold fault?
  cases fs.write (join dir file.1) file.2 faults <;> simp

theorem fault?_eq_some_iff {e : FileError} : fault? faults fs dir file = some e ↔
    ∃ fs₁, fs.write (join dir file.1) file.2 faults = .error (e, fs₁) := by
  unfold fault?
  rcases fs.write (join dir file.1) file.2 faults with ⟨e', fs'⟩ | fs' <;> simp

/-- What is reported of the file when it is tried. -/
def attempt (faults : Faults) (fs : FileSystem) (dir : String) (file : String × List UInt8) :
    Event :=
  match fault? faults fs dir file with
  | none => .wrote (join dir file.1) file.2.length
  | some e => .notWritten (join dir file.1) e

/-- The files that are opened, each at its place and with the bytes that it takes. -/
def landed (faults : Faults) (fs : FileSystem) (dir : String)
    (files : List (String × List UInt8)) : List (Place × List UInt8) :=
  files.filterMap fun file =>
    (fs.openFile (join dir file.1) faults).toOption.map fun p => (p, faults.taken p file.2)

theorem landed_cons (faults : Faults) (fs : FileSystem) (dir : String)
    (file : String × List UInt8) (files : List (String × List UInt8)) :
    landed faults fs dir (file :: files) =
      landed faults fs dir [file] ++ landed faults fs dir files :=
  List.filterMap_append (l := [file])

theorem mem_landed_iff {p : Place} {bytes : List UInt8} : (p, bytes) ∈ landed faults fs dir files ↔
    ∃ file ∈ files, fs.openFile (join dir file.1) faults = .ok p ∧
      faults.taken p file.2 = bytes := by
  rw [landed, List.mem_filterMap]
  refine exists_congr fun file => and_congr_right fun _ => ?_
  rw [← toOption_eq_some_iff, Option.map_eq_some_iff]
  constructor
  · rintro ⟨q, hq, heq⟩
    obtain ⟨rfl, rfl⟩ := Prod.mk.inj heq
    exact ⟨hq, rfl⟩
  · rintro ⟨hq, rfl⟩
    exact ⟨p, hq, rfl⟩

theorem Plain.openFile_eq_ok_iff (h : Plain fs dir names) {name : String} (hname : name ∈ names)
    {p : Place} : fs.openFile (join dir name) faults = .ok p ↔
      fs.Target (join dir name) p ∧ faults.opening p = none :=
  FileSystem.openFile_eq_ok_iff ((h name hname).2.locate_write_ne (h name hname).1)

/-- A file is opened at a place of its name. -/
theorem Plain.getLast?_eq (h : Plain fs dir names) {name : String} (hname : name ∈ names)
    {p : Place} (hopen : fs.openFile (join dir name) faults = .ok p) : p.getLast? = some name := by
  obtain ⟨⟨node, hlocate, -⟩, -⟩ := (h.openFile_eq_ok_iff hname).mp hopen
  obtain ⟨hn, hln⟩ := h name hname
  rw [FileSystem.locate_join_eq_look hn.proper hln] at hlocate
  exact FileSystem.getLast?_of_locate_look hn.proper hlocate

/-- Files of different names land in different places. -/
theorem nodup_landed (hplain : Plain fs dir names) (hnames : ∀ file ∈ files, file.1 ∈ names)
    (hnodup : (files.map Prod.fst).Nodup) :
    ((landed faults fs dir files).map Prod.fst).Nodup := by
  rw [List.Nodup, List.pairwise_map, landed, List.pairwise_filterMap]
  rw [List.Nodup, List.pairwise_map] at hnodup
  refine hnodup.imp_of_mem fun {file file'} hmem hmem' hne => ?_
  rintro ⟨p, bytes⟩ hentry ⟨p', bytes'⟩ hentry' heq
  obtain rfl : p = p' := heq
  have hopens : ∀ {file : String × List UInt8} {bytes : List UInt8},
      ((fs.openFile (join dir file.1) faults).toOption.map fun p => (p, faults.taken p file.2)) =
        some (p, bytes) → fs.openFile (join dir file.1) faults = .ok p := by
    intro file bytes h
    have hland : (p, bytes) ∈ landed faults fs dir [file] :=
      List.mem_filterMap.mpr ⟨file, List.mem_singleton_self file, h⟩
    obtain ⟨_, hf, hopen, -⟩ := mem_landed_iff.mp hland
    rwa [List.mem_singleton.mp hf] at hopen
  have hname := hplain.getLast?_eq (hnames file hmem) (hopens hentry)
  rw [hplain.getLast?_eq (hnames file' hmem') (hopens hentry')] at hname
  exact hne (Option.some.inj hname).symm

/-- `fs'` is `fs` after files of these names were tried in the directory: nothing has changed but
where they are opened, and it is still the same or there is a place for one of the files. -/
structure Tried (faults : Faults) (fs : FileSystem) (dir : String) (names : List String)
    (fs' : FileSystem) : Prop where
  filled : fs.Filled fs'
  others : ∀ p, (∀ name ∈ names, fs.openFile (join dir name) faults ≠ .ok p) →
    fs'.node? p = fs.node? p
  start : fs' = fs ∨ ∃ name ∈ names, ∃ p, fs.Target (join dir name) p

theorem Tried.refl (faults : Faults) (fs : FileSystem) (dir : String) (names : List String) :
    Tried faults fs dir names fs :=
  ⟨.refl fs, fun _ _ => rfl, Or.inl rfl⟩

/-- **A path under which no file is opened is left as it was.** -/
theorem Tried.locate_eq (h : Tried faults fs dir names fs') (hplain : Plain fs dir names)
    {name : String} (hname : name ∈ names) {e : FileError}
    (he : fs.openFile (join dir name) faults = .error e) (purpose : FileSystem.Purpose) :
    fs'.locate purpose (join dir name) = fs.locate purpose (join dir name) := by
  obtain ⟨hn, hln⟩ := hplain name hname
  by_cases htarget : ∃ q, fs.Target (join dir name) q
  · -- the machine refuses to open the file, under whatever path
    obtain ⟨q, ht⟩ := htarget
    have hrefused : faults.opening q ≠ none := by
      intro hopen
      rw [ht.openFile hopen] at he
      cases he
    have hnode : fs'.node? q = fs.node? q :=
      h.others q fun other hother hopen =>
        hrefused ((hplain.openFile_eq_ok_iff hother).mp hopen).2
    obtain ⟨node, hlocate, -⟩ := ht
    obtain rfl := FileSystem.locate_eq_ok hlocate
    have hall := FileSystem.locate_join_eq_look hn.proper hln
    rw [hall, ← hall purpose] at hlocate
    rw [h.filled.locate_eq_ok hlocate, hlocate, hnode]
  · rcases h.start with rfl | ⟨other, hother, p, ht⟩
    · rfl
    · obtain ⟨ho, hlo⟩ := hplain other hother
      exact h.filled.locate_eq_of_not_target ho hn hlo hln ht (not_exists.mp htarget) purpose

/-- **A file is opened as it would have been at first**, or refused for the same reason. -/
theorem Tried.openFile_eq (h : Tried faults fs dir names fs') (hplain : Plain fs dir names)
    {name : String} (hname : name ∈ names) :
    fs'.openFile (join dir name) faults = fs.openFile (join dir name) faults := by
  rcases hopen : fs.openFile (join dir name) faults with e | p
  · rw [FileSystem.openFile_congr (h.locate_eq hplain hname hopen .write), hopen]
  · obtain ⟨ht, hp⟩ := (hplain.openFile_eq_ok_iff hname).mp hopen
    exact (h.filled.target_iff.mpr ht).openFile hp

/-- What comes of a file is what would have come of it at first. -/
theorem Tried.add_outcome (h : Tried faults fs dir names w.fs) (hplain : Plain fs dir names)
    (hname : file.1 ∈ names) :
    Tried faults fs dir names (w.add faults (join dir file.1) file.2).fs ∧
      (w.add faults (join dir file.1) file.2).fs =
        w.fs.putAll (landed faults fs dir [file]) ∧
      (w.add faults (join dir file.1) file.2).failure = w.failure.or (fault? faults fs dir file) ∧
      (w.add faults (join dir file.1) file.2).events =
        w.events ++ [attempt faults fs dir file] := by
  have hsame := h.openFile_eq hplain hname
  rcases hopen : fs.openFile (join dir file.1) faults with e | p
  · rw [hopen] at hsame
    simp only [add, FileSystem.write, attempt, fault?, landed, hsame, hopen, Except.toOption,
      List.filterMap_cons, Option.map_none, List.filterMap_nil]
    exact ⟨h, rfl, trivial, trivial⟩
  · obtain ⟨ht, hp⟩ := (hplain.openFile_eq_ok_iff hname).mp hopen
    have ht' := h.filled.target_iff.mpr ht
    have htried : Tried faults fs dir names
        (w.fs.put p (.file (faults.taken p file.2))) := by
      refine ⟨h.filled.trans (.put ht'.takesFile _), fun q hq => ?_,
        Or.inr ⟨file.1, hname, p, ht⟩⟩
      have hne : q ≠ p := by
        rintro rfl
        exact hq file.1 hname hopen
      rw [FileSystem.node?_put ht'.takesFile.ne_nil, if_neg hne, h.others q hq]
    rw [hopen] at hsame
    rcases hstop : faults.stop? p file.2 with _ | ⟨size, e⟩
    · simp only [add, FileSystem.write, attempt, fault?, landed, hsame, hopen, hstop,
        Except.toOption, List.filterMap_cons, Option.map_some, List.filterMap_nil, Option.or_none]
      exact ⟨htried, rfl, trivial, trivial⟩
    · simp only [add, FileSystem.write, attempt, fault?, landed, hsame, hopen, hstop,
        Except.toOption, List.filterMap_cons, Option.map_some, List.filterMap_nil]
      exact ⟨htried, rfl, trivial, trivial⟩

theorem addAll_cons (faults : Faults) (w : Writing) (dir : String) (file : String × List UInt8)
    (files : List (String × List UInt8)) : w.addAll faults dir (file :: files) =
      (w.add faults (join dir file.1) file.2).addAll faults dir files := rfl

/-- **All files are tried**, and what comes of them together is what would have come of each at
first. -/
theorem Tried.addAll_outcome (h : Tried faults fs dir names w.fs) (hplain : Plain fs dir names)
    (hnames : ∀ file ∈ files, file.1 ∈ names) :
    Tried faults fs dir names (w.addAll faults dir files).fs ∧
      (w.addAll faults dir files).fs = w.fs.putAll (landed faults fs dir files) ∧
      (w.addAll faults dir files).failure =
        w.failure.or (files.findSome? (fault? faults fs dir)) ∧
      (w.addAll faults dir files).events = w.events ++ files.map (attempt faults fs dir) := by
  induction files generalizing w with
  | nil => exact ⟨h, rfl, by simp [addAll], by simp [addAll]⟩
  | cons file files ih =>
    rw [List.forall_mem_cons] at hnames
    obtain ⟨htried, hfs, hfailure, hevents⟩ := h.add_outcome hplain hnames.1
    obtain ⟨htried', hfs', hfailure', hevents'⟩ := ih htried hnames.2
    rw [addAll_cons]
    refine ⟨htried', ?_, ?_, ?_⟩
    · rw [hfs', hfs, landed_cons faults fs dir file files, FileSystem.putAll_append]
    · rw [hfailure', hfailure, Option.or_assoc, List.findSome?_cons]
      cases fault? faults fs dir file <;> rfl
    · rw [hevents', hevents, List.append_assoc]
      rfl

end Writing

/-! ### The files of a compilation -/

namespace Compilation

/-- The names of the files. -/
def fileNames : List String := [siteFile, ipFile, indexFile, proxyFile]

theorem map_fst_files (c : Compilation) : c.files.map Prod.fst = fileNames := rfl

/-- What the files of a compilation come to, of which each is tried in the directory and none is a
link: the encoded databases and the two reports. -/
structure Leaves (c : Compilation) (fs : FileSystem) (faults : Faults) (dir : String)
    (fs' : FileSystem) : Prop where
  site : fs.Attempted faults fs' (join dir "v2site.dat") (Geo.encodeSites c.sites)
  ip : fs.Attempted faults fs' (join dir "v2ip.dat") (Geo.encodeIps c.ips)
  index : fs.Attempted faults fs' (join dir "v2map.txt") (Text.utf8 c.index.render)
  proxy : fs.Attempted faults fs' (join dir "v2yaml.yaml") (Text.utf8 c.proxy.render)
  /-- Where none of the files is opened lies what was there. -/
  others : ∀ p, (∀ name ∈ ["v2site.dat", "v2ip.dat", "v2map.txt", "v2yaml.yaml"],
    fs.openFile (join dir name) faults ≠ .ok p) → fs'.node? p = fs.node? p
  /-- All paths lead where they led before. -/
  ways : ∀ purpose path, fs.SameWay fs' (fs.locate purpose path) (fs'.locate purpose path)

variable {c : Compilation} {fs : FileSystem} {faults : Faults} {dir : String}

theorem plain_fileNames (hlink : ∀ name ∈ fileNames, fs.NoLink (join dir name)) :
    Writing.Plain fs dir fileNames := by
  have hnames : ∀ name ∈ fileNames, FileSystem.EntryName name := by decide
  exact fun name hname => ⟨hnames name hname, hlink name hname⟩

theorem mem_fileNames {file : String × List UInt8} (h : file ∈ c.files) : file.1 ∈ fileNames :=
  map_fst_files c ▸ List.mem_map_of_mem h

/-- Every file is tried: what comes of them is what would have come of each at first. -/
theorem write_tried (hlink : ∀ name ∈ fileNames, fs.NoLink (join dir name)) :
    Writing.Tried faults fs dir fileNames (c.write fs dir faults).fs ∧
      (c.write fs dir faults).fs = fs.putAll (Writing.landed faults fs dir c.files) ∧
      (c.write fs dir faults).failure = c.files.findSome? (Writing.fault? faults fs dir) ∧
      (c.write fs dir faults).events = c.files.map (Writing.attempt faults fs dir) := by
  have hstart : Writing.Tried faults fs dir fileNames ({ fs } : Writing).fs := .refl ..
  exact hstart.addAll_outcome (plain_fileNames hlink) fun file => mem_fileNames

/-- A file that is opened holds what it takes. -/
theorem read_write_of_openFile (hlink : ∀ name ∈ fileNames, fs.NoLink (join dir name))
    {file : String × List UInt8} (hfile : file ∈ c.files) {p : Place}
    (hopen : fs.openFile (join dir file.1) faults = .ok p) :
    (c.write fs dir faults).fs.read (join dir file.1) = .ok (faults.taken p file.2) := by
  have hplain := plain_fileNames hlink
  obtain ⟨htried, hfs, -⟩ := write_tried hlink
  have hroot : ∀ entry ∈ Writing.landed faults fs dir c.files, entry.1 ≠ [] := by
    intro entry hentry
    obtain ⟨file, hfile, hopen, -⟩ := Writing.mem_landed_iff.mp hentry
    have ht := ((hplain.openFile_eq_ok_iff (mem_fileNames hfile)).mp hopen).1
    exact ht.takesFile.ne_nil
  have hnodup : ((Writing.landed faults fs dir c.files).map Prod.fst).Nodup := by
    refine Writing.nodup_landed hplain (fun file => mem_fileNames) ?_
    rw [map_fst_files]
    decide
  have hnode : (c.write fs dir faults).fs.node? p =
      some (.file (faults.taken p file.2)) := by
    rw [hfs]
    exact FileSystem.node?_putAll_of_mem hroot hnodup
      (Writing.mem_landed_iff.mpr ⟨file, hfile, hopen, rfl⟩)
  obtain ⟨hn, hln⟩ := hplain file.1 (mem_fileNames hfile)
  obtain ⟨⟨node, hlocate, -⟩, -⟩ :=
    (hplain.openFile_eq_ok_iff (mem_fileNames hfile)).mp hopen
  have hlook := FileSystem.locate_join_eq_look hn.proper hln
  rw [hlook, ← hlook .read] at hlocate
  rw [FileSystem.read, htried.filled.locate_eq_ok hlocate, hnode]

/-- **Every file of a compilation is tried.** Those that are opened hold what they take, and nothing
else changes. -/
theorem write_outcome (hlink : ∀ name ∈ fileNames, fs.NoLink (join dir name)) :
    c.Leaves fs faults dir (c.write fs dir faults).fs ∧
      (c.write fs dir faults).failure = c.files.findSome? (Writing.fault? faults fs dir) ∧
      (c.write fs dir faults).events = c.files.map (Writing.attempt faults fs dir) := by
  have hplain := plain_fileNames hlink
  obtain ⟨htried, -, hfailure, hevents⟩ := write_tried hlink
  have hattempted : ∀ file ∈ c.files,
      fs.Attempted faults (c.write fs dir faults).fs (join dir file.1) file.2 := by
    intro file hfile
    refine ⟨fun fs₁ hwrite => ?_, fun p size e hopen hstop => ⟨Faults.lt_of_stop? hstop, ?_⟩,
      fun e he => htried.locate_eq hplain (mem_fileNames hfile) he⟩
    · obtain ⟨hn, hln⟩ := hplain file.1 (mem_fileNames hfile)
      obtain ⟨p, haccepts⟩ := FileSystem.exists_accepts hwrite (hln.locate_write_ne hn)
      rw [read_write_of_openFile hlink hfile (haccepts.target.openFile haccepts.opening),
        Faults.taken, haccepts.stop]
    · rw [read_write_of_openFile hlink hfile hopen, Faults.taken, hstop]
  have hfiles : ∀ {name bytes}, (name, bytes) ∈ c.files →
      fs.Attempted faults (c.write fs dir faults).fs (join dir name) bytes :=
    fun h => hattempted _ h
  refine ⟨⟨hfiles ?_, hfiles ?_, hfiles ?_, hfiles ?_, htried.others, htried.filled.locate⟩,
    hfailure, hevents⟩
  all_goals simp [files, siteFile, ipFile, indexFile, proxyFile]

end Compilation

end GeoRules
