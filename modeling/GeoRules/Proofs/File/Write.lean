import GeoRules.Proofs.File.Walk

/-! # Files written one after the other

`Target fs path p` says that a file written under the path comes to lie at `p`. What was written
elsewhere before does not change this (`Filled.target_iff`), so a series of files comes to lie at
places that can be read off the file system before the first one (`putAll`). -/

namespace GeoRules.File.FileSystem

variable {fs fs' : FileSystem} {faults : Faults} {path : String} {p q : Place}
  {bytes : List UInt8} {files : List (Place × List UInt8)}

/-- A file written under the path comes to lie at the place. -/
def Target (fs : FileSystem) (path : String) (p : Place) : Prop :=
  ∃ node, fs.locate .write path = .ok (p, node) ∧ TakesFile node

theorem locate_eq_ok {purpose : Purpose} {node : Option Node}
    (h : fs.locate purpose path = .ok (p, node)) : node = fs.node? p := by
  rcases (Filled.refl fs).locate purpose path with ⟨e, -, he, -⟩ | ⟨q, hq, -⟩
  · rw [he] at h; cases h
  · rw [hq] at h; cases h; rfl

theorem Filled.locate_eq_ok (h : Filled fs fs') {purpose : Purpose} {node : Option Node}
    (hlocate : fs.locate purpose path = .ok (p, node)) :
    fs'.locate purpose path = .ok (p, fs'.node? p) := by
  rcases h.locate purpose path with ⟨e, -, he, -⟩ | ⟨q, hq, hq'⟩
  · rw [he] at hlocate; cases hlocate
  · rw [hq] at hlocate; cases hlocate; exact hq'

theorem Target.takesFile (h : fs.Target path p) : TakesFile (fs.node? p) := by
  obtain ⟨node, hlocate, hnode⟩ := h
  exact FileSystem.locate_eq_ok hlocate ▸ hnode

/-- A file comes to lie at one place. -/
theorem Target.unique (h : fs.Target path p) (h' : fs.Target path q) : p = q := by
  obtain ⟨node, hlocate, -⟩ := h
  obtain ⟨node', hlocate', -⟩ := h'
  exact congrArg Prod.fst (Except.ok.inj (hlocate.symm.trans hlocate'))

/-- A path that leads to something still does after files were written. -/
theorem Filled.leads (h : Filled fs fs') (hleads : fs.leads path) : fs'.leads path := by
  rw [FileSystem.leads] at hleads
  rcases hlocate : fs.locate .read path with e | ⟨p, node⟩
  · rw [hlocate] at hleads
    cases hleads
  · rw [FileSystem.leads, h.locate_eq_ok hlocate]
    rw [hlocate, FileSystem.locate_eq_ok hlocate] at hleads
    rcases h.node? p with hsame | ⟨-, bytes, hb⟩
    · rwa [hsame]
    · rw [hb]

/-- Files that were written in other places do not change where the next one comes to lie. -/
theorem Filled.target_iff (h : Filled fs fs') : fs'.Target path p ↔ fs.Target path p := by
  constructor
  · rintro ⟨node, hlocate, hnode⟩
    rcases h.locate .write path with ⟨-, e, -, he⟩ | ⟨q, hq, hq'⟩
    · rw [he] at hlocate; cases hlocate
    · rw [hq'] at hlocate
      obtain ⟨rfl, rfl⟩ := Prod.mk.inj (Except.ok.inj hlocate)
      refine ⟨_, hq, ?_⟩
      rcases h.node? q with hsame | ⟨ht, -⟩
      · exact hsame ▸ hnode
      · exact ht
  · intro ht
    have hnode := ht.takesFile
    obtain ⟨node, hlocate, -⟩ := ht
    exact ⟨_, h.locate_eq_ok hlocate, h.takesFile hnode⟩

/-! ### What a write comes to -/

theorem Target.openFile (h : fs.Target path p) (hopen : faults.opening p = none) :
    fs.openFile path faults = .ok p := by
  obtain ⟨node, hlocate, hnode⟩ := h
  rw [FileSystem.openFile, hlocate]
  rcases hnode with rfl | ⟨bytes', rfl⟩ <;> simp only [hopen]

/-- **A file is opened where it comes to lie**, if the machine allows it; where no link is in the
way, no other path is opened. -/
theorem openFile_eq_ok_iff
    (hlink : ∀ p target, fs.locate .write path ≠ .ok (p, some (.link target))) :
    fs.openFile path faults = .ok p ↔ fs.Target path p ∧ faults.opening p = none := by
  refine ⟨fun h => ?_, fun h => h.1.openFile h.2⟩
  rw [FileSystem.openFile] at h
  rcases hlocate : fs.locate .write path with e | ⟨q, node⟩
  · rw [hlocate] at h
    cases h
  · have hnode : TakesFile node := by
      rcases node with _ | ⟨bytes⟩ | _ | target
      · exact Or.inl rfl
      · exact Or.inr ⟨bytes, rfl⟩
      · rw [hlocate] at h
        cases h
      · exact absurd hlocate (hlink q target)
    rcases hopen : faults.opening q with _ | e
    · have htarget : fs.Target path q := ⟨node, hlocate, hnode⟩
      rw [← FileSystem.openFile, htarget.openFile hopen] at h
      obtain rfl := Except.ok.inj h
      exact ⟨htarget, hopen⟩
    · rcases hnode with rfl | ⟨bytes, rfl⟩
      · simp only [hlocate, hopen] at h
        cases h
      · simp only [hlocate, hopen] at h
        cases h

/-- The bytes can be written under the path, and come to lie at the place. -/
structure Accepts (fs : FileSystem) (faults : Faults) (path : String) (p : Place)
    (bytes : List UInt8) : Prop where
  target : fs.Target path p
  opening : faults.opening p = none
  stop : faults.stop? p bytes = none

theorem Accepts.write (h : fs.Accepts faults path p bytes) :
    fs.write path bytes faults = .ok (fs.put p (.file bytes)) := by
  rw [FileSystem.write, h.target.openFile h.opening]
  simp only [Faults.taken, h.stop]

/-- A file that was written was not written over a directory; nor over a link, where none is. -/
theorem exists_accepts (h : fs.write path bytes faults = .ok fs')
    (hlink : ∀ p target, fs.locate .write path ≠ .ok (p, some (.link target))) :
    ∃ p, fs.Accepts faults path p bytes := by
  rw [write] at h
  rcases hopen : fs.openFile path faults with e | p
  · rw [hopen] at h
    cases h
  · rcases hstop : faults.stop? p bytes with _ | ⟨size, e⟩
    · obtain ⟨htarget, hp⟩ := (openFile_eq_ok_iff hlink).mp hopen
      exact ⟨p, htarget, hp, hstop⟩
    · simp only [hopen, hstop] at h
      cases h

theorem Filled.accepts_iff (h : Filled fs fs') :
    fs'.Accepts faults path p bytes ↔ fs.Accepts faults path p bytes :=
  ⟨fun ha => ⟨h.target_iff.mp ha.target, ha.opening, ha.stop⟩,
    fun ha => ⟨h.target_iff.mpr ha.target, ha.opening, ha.stop⟩⟩

/-- A path that leads to a link does so before files were written. -/
theorem Filled.locate_ne_link (h : Filled fs fs') {purpose : Purpose}
    (hlink : ∀ p target, fs.locate purpose path ≠ .ok (p, some (.link target))) (p : Place)
    (target : String) : fs'.locate purpose path ≠ .ok (p, some (.link target)) := by
  intro he
  rcases h.locate purpose path with ⟨-, e, -, he'⟩ | ⟨q, hq, hq'⟩
  · rw [he'] at he; cases he
  · rw [hq'] at he
    obtain ⟨rfl, hnode⟩ := Prod.mk.inj (Except.ok.inj he)
    rcases h.node? q with hsame | ⟨-, bytes, hfile⟩
    · exact hlink q target (by rw [hq, ← hsame, hnode])
    · rw [hfile] at hnode; cases hnode

/-! ### Series of files -/

/-- The file system with files at the places, put there one after the other. -/
def putAll (fs : FileSystem) (files : List (Place × List UInt8)) : FileSystem :=
  files.foldl (fun fs file => fs.put file.1 (.file file.2)) fs

theorem putAll_cons (fs : FileSystem) (file : Place × List UInt8)
    (files : List (Place × List UInt8)) :
    fs.putAll (file :: files) = (fs.put file.1 (.file file.2)).putAll files := rfl

theorem Filled.putAll (h : ∀ file ∈ files, TakesFile (fs.node? file.1)) :
    Filled fs (fs.putAll files) := by
  induction files generalizing fs with
  | nil => exact .refl fs
  | cons file files ih =>
    have hput : Filled fs (fs.put file.1 (.file file.2)) := .put (h file List.mem_cons_self) _
    exact hput.trans (ih fun f hf => hput.takesFile (h f (List.mem_cons_of_mem _ hf)))

theorem node?_putAll_of_not_mem (hroot : ∀ file ∈ files, file.1 ≠ [])
    (h : ∀ file ∈ files, file.1 ≠ q) : (fs.putAll files).node? q = fs.node? q := by
  induction files generalizing fs with
  | nil => rfl
  | cons file files ih =>
    rw [List.forall_mem_cons] at h hroot
    rw [putAll_cons, ih hroot.2 h.2, node?_put hroot.1, if_neg fun he => h.1 he.symm]

theorem node?_putAll_of_mem (hroot : ∀ file ∈ files, file.1 ≠ [])
    (hnodup : (files.map Prod.fst).Nodup) {bytes : List UInt8} (h : (q, bytes) ∈ files) :
    (fs.putAll files).node? q = some (.file bytes) := by
  induction files generalizing fs with
  | nil => cases h
  | cons file files ih =>
    rw [List.forall_mem_cons] at hroot
    rw [List.map_cons, List.nodup_cons] at hnodup
    rw [putAll_cons]
    rcases List.mem_cons.mp h with rfl | h
    · have hne : ∀ file ∈ files, file.1 ≠ q := fun file hfile he =>
        hnodup.1 (List.mem_map.mpr ⟨file, hfile, he⟩)
      rw [node?_putAll_of_not_mem hroot.2 hne, node?_put hroot.1, if_pos rfl]
    · exact ih hroot.2 hnodup.2 h

/-- **Two series of files for the same places** leave at each of them the bytes of files that belong
together, whatever was there. -/
theorem node?_putAll_zip (fs fs' : FileSystem) {files' : List (Place × List UInt8)}
    (hroot : ∀ file ∈ files, file.1 ≠ [])
    (h : files'.map Prod.fst = files.map Prod.fst) (hq : ∃ file ∈ files, file.1 = q) :
    ∃ pair ∈ files.zip files', pair.1.1 = q ∧
      (fs.putAll files).node? q = some (.file pair.1.2) ∧
      (fs'.putAll files').node? q = some (.file pair.2.2) := by
  induction files generalizing fs fs' files' with
  | nil => simp at hq
  | cons file files ih =>
    have hne : files' ≠ [] := by
      rintro rfl
      simp at h
    obtain ⟨file', files', rfl⟩ := List.exists_cons_of_ne_nil hne
    obtain ⟨hfirst, hrest⟩ := List.cons.inj h
    rw [List.forall_mem_cons] at hroot
    rw [putAll_cons, putAll_cons]
    by_cases hlater : ∃ file ∈ files, file.1 = q
    · obtain ⟨pair, hpair, hnodes⟩ := ih _ _ hroot.2 hrest hlater
      exact ⟨pair, List.mem_cons_of_mem _ hpair, hnodes⟩
    · have hne : ∀ file ∈ files, file.1 ≠ q := fun file hfile he => hlater ⟨file, hfile, he⟩
      have hplaces : ∀ file ∈ files', file.1 ∈ files.map Prod.fst :=
        fun file hfile => hrest ▸ List.mem_map_of_mem hfile
      have hne' : ∀ file ∈ files', file.1 ≠ q := by
        intro file hfile he
        obtain ⟨f, hf, hfe⟩ := List.mem_map.mp (hplaces file hfile)
        exact hne f hf (hfe.trans he)
      have hroot' : ∀ file ∈ files', file.1 ≠ [] := by
        intro file hfile
        obtain ⟨f, hf, hfe⟩ := List.mem_map.mp (hplaces file hfile)
        exact hfe ▸ hroot.2 f hf
      obtain rfl : file.1 = q := by
        obtain ⟨f, hf, hfq⟩ := hq
        rcases List.mem_cons.mp hf with rfl | hf
        · exact hfq
        · exact absurd hfq (hne f hf)
      refine ⟨(file, file'), by simp, rfl, ?_, ?_⟩
      · rw [node?_putAll_of_not_mem hroot.2 hne, node?_put hroot.1, if_pos rfl]
      · rw [node?_putAll_of_not_mem hroot' hne', node?_put (hfirst ▸ hroot.1), if_pos hfirst.symm]

/-- Each place of a series of files holds one of the files for it. -/
theorem exists_node?_putAll (fs : FileSystem) (hroot : ∀ file ∈ files, file.1 ≠ [])
    (hq : ∃ file ∈ files, file.1 = q) :
    ∃ file ∈ files, file.1 = q ∧ (fs.putAll files).node? q = some (.file file.2) := by
  obtain ⟨pair, hpair, hplace, hnode, -⟩ := node?_putAll_zip fs fs hroot rfl hq
  exact ⟨pair.1, (List.of_mem_zip hpair).1, hplace, hnode⟩

end GeoRules.File.FileSystem
