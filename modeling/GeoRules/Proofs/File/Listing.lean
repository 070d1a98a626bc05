import GeoRules.Proofs.File.Write
import Mathlib.Data.Finset.Max

/-! # The files in a directory after files were written

A series of files leaves the nodes of a file system in their order, with the new ones behind them
(`exists_new_nodes`). The files that are found in a directory are therefore those that were found
before, followed by new ones (`exists_filesIn_eq_append`), and the directories are the same, so that
they can be listed if they could (`barred_putAll`).

A walk meets a directory that cannot be listed exactly if there is one (`exists_error_iff`). -/

namespace GeoRules.File.FileSystem

variable {fs fs' : FileSystem} {faults : Faults} {path : String} {place : Place}
  {files : List (Place × List UInt8)}

/-! ### Nodes -/

theorem putNode_of_lookup_eq_none {p : Place} {nodes : List (Place × Node)}
    (h : nodes.lookup p = none) (node : Node) : putNode p node nodes = nodes ++ [(p, node)] := by
  induction nodes with
  | nil => rfl
  | cons entry nodes ih =>
    obtain ⟨q, n⟩ := entry
    rw [List.lookup_cons] at h
    by_cases hq : p = q
    · simp [hq] at h
    · have hne : q ≠ p := fun he => hq he.symm
      rw [beq_false_of_ne hq] at h
      rw [putNode, if_neg hne, ih h, List.cons_append]

/-- A scan that does not tell files apart does not see a file replaced by another one. -/
theorem filterMap_putNode {p : Place} {old new : List UInt8} {nodes : List (Place × Node)}
    (h : nodes.lookup p = some (.file old)) {α : Type} {f : Place × Node → Option α}
    (hf : ∀ bytes bytes', f (p, .file bytes) = f (p, .file bytes')) :
    (putNode p (.file new) nodes).filterMap f = nodes.filterMap f := by
  induction nodes with
  | nil => cases h
  | cons entry nodes ih =>
    obtain ⟨q, n⟩ := entry
    rw [List.lookup_cons] at h
    by_cases hq : p = q
    · subst hq
      obtain rfl : n = .file old := by simpa using h
      rw [putNode, if_pos rfl, List.filterMap_cons, List.filterMap_cons, hf new old]
    · have hne : q ≠ p := fun he => hq he.symm
      rw [beq_false_of_ne hq] at h
      rw [putNode, if_neg hne, List.filterMap_cons, List.filterMap_cons, ih h]

/-- **A series of files adds nodes behind the others**, files where nothing was before. -/
theorem exists_new_nodes (h : ∀ file ∈ files, TakesFile (fs.node? file.1)) :
    ∃ added : List (Place × Node),
      (∀ entry ∈ added, fs.node? entry.1 = none ∧
        ∃ file ∈ files, entry = (file.1, .file file.2)) ∧
      ∀ f : Place × Node → Option String,
        (∀ p bytes bytes', f (p, .file bytes) = f (p, .file bytes')) →
        (fs.putAll files).nodes.filterMap f = fs.nodes.filterMap f ++ added.filterMap f := by
  induction files generalizing fs with
  | nil => exact ⟨[], by simp, fun f _ => by simp [putAll]⟩
  | cons file files ih =>
    rw [List.forall_mem_cons] at h
    have hput : fs.Filled (fs.put file.1 (.file file.2)) := .put h.1 _
    obtain ⟨added, hadded, hnodes⟩ := ih fun f hf => hput.takesFile (h.2 f hf)
    have hnone : ∀ entry ∈ added, fs.node? entry.1 = none ∧
        ∃ f ∈ file :: files, entry = (f.1, .file f.2) := by
      intro entry hentry
      obtain ⟨hn, f, hf, hfe⟩ := hadded entry hentry
      refine ⟨?_, f, List.mem_cons_of_mem _ hf, hfe⟩
      rcases hput.node? entry.1 with hsame | ⟨-, bytes, hb⟩
      · rw [← hsame, hn]
      · rw [hn] at hb; cases hb
    have hlookup : fs.node? file.1 = fs.nodes.lookup file.1 := if_neg h.1.ne_nil
    rcases h.1 with hnew | ⟨old, hold⟩
    · refine ⟨(file.1, .file file.2) :: added, ?_, fun f hf => ?_⟩
      · rw [List.forall_mem_cons]
        exact ⟨⟨hnew, file, List.mem_cons_self, rfl⟩, hnone⟩
      · rw [putAll_cons, hnodes f hf, put, putNode_of_lookup_eq_none (hlookup ▸ hnew)]
        rw [List.filterMap_append, List.append_assoc, ← List.filterMap_append,
          List.singleton_append]
    · refine ⟨added, hnone, fun f hf => ?_⟩
      rw [putAll_cons, hnodes f hf, put, filterMap_putNode (hlookup ▸ hold) (hf file.1)]

/-! ### Paths -/

/-- The path of what lies below the directory `place`, unless it is a directory. -/
def pathBelow (path : String) (place : Place) : Place × Node → Option String := fun (p, n) =>
  if place.isPrefixOf p ∧ p ≠ place ∧ n ≠ .directory then
    some (join path ("/".intercalate (p.drop place.length)))
  else none

/-- The path itself, if it is that of a file or a link. -/
def pathItself (fs : FileSystem) (path : String) : List String :=
  match fs.locate .look path with
  | .ok (_, some (.file _)) | .ok (_, some (.link _)) => [path]
  | _ => []

/-- The paths of what lies below a place, as far as it is kept, are found among all nodes. -/
theorem filterMap_below (fs : FileSystem) (path : String) (place : Place) (keep : Node → Prop)
    [DecidablePred keep] :
    (fs.below place).filterMap (fun (names, n) =>
      if keep n then some (join path ("/".intercalate names)) else none) =
    fs.nodes.filterMap fun (p, n) => if place.isPrefixOf p ∧ p ≠ place ∧ keep n then
      some (join path ("/".intercalate (p.drop place.length))) else none := by
  rw [below, List.filterMap_filterMap]
  refine List.filterMap_congr fun ⟨p, n⟩ _ => ?_
  by_cases hbelow : place.isPrefixOf p ∧ p ≠ place
  · by_cases hn : keep n <;> simp [hbelow, hn]
  · have hnone : ¬ (place.isPrefixOf p ∧ p ≠ place ∧ keep n) :=
      fun h => hbelow ⟨h.1, h.2.1⟩
    simp only [if_neg hbelow, if_neg hnone]
    rfl

theorem filterMap_pathBelow (fs : FileSystem) (path : String) (place : Place) :
    (fs.below place).filterMap (fun (names, n) =>
      if n = .directory then none else some (join path ("/".intercalate names))) =
    fs.nodes.filterMap (pathBelow path place) := by
  have hkept := filterMap_below fs path place (· ≠ .directory)
  simp only [ne_eq, ite_not] at hkept
  exact hkept

theorem filesIn_eq (fs : FileSystem) (path : String) : fs.filesIn path = fs.pathItself path ++
    match fs.locate .read path with
    | .ok (place, some .directory) => fs.nodes.filterMap (pathBelow path place)
    | _ => [] := by
  unfold filesIn pathItself
  rcases fs.locate .look path with e | ⟨q, _ | ⟨bytes⟩ | _ | target⟩ <;>
    rcases fs.locate .read path with e | ⟨p, _ | ⟨bytes⟩ | _ | target⟩ <;>
    simp [filterMap_pathBelow]

/-- Who reads finds what who looks finds, unless that is a link. -/
theorem locate_read_eq_look (fs : FileSystem) (path : String) :
    fs.locate .read path = fs.locate .look path ∨
      ∃ p target, fs.locate .look path = .ok (p, some (.link target)) := by
  rcases locate_cases path with ⟨e, he⟩ | hwalk
  · exact Or.inl (by rw [he, he])
  · rw [hwalk, hwalk]
    exact walk_eq_look fs .read _ _ _ fun h => by cases h

/-- A path that leads to something is itself that of a file or a link as before. -/
theorem Filled.pathItself_eq (h : Filled fs fs') (hleads : fs.leads path) :
    fs'.pathItself path = fs.pathItself path := by
  unfold pathItself
  rcases h.locate .look path with ⟨e, e', he, he'⟩ | ⟨p, hp, hp'⟩
  · rw [he, he']
  · rw [hp, hp']
    rcases h.node? p with hsame | ⟨hnone | ⟨old, hold⟩, bytes, hb⟩
    · rw [hsame]
    · -- where nothing was, the path led to nothing
      rw [hnone] at hp
      rcases locate_read_eq_look fs path with hread | ⟨q, target, hlook⟩
      · rw [FileSystem.leads, hread, hp] at hleads
        cases hleads
      · rw [hlook] at hp
        cases hp
    · rw [hold, hb]

theorem pathBelow_eq_some {entry : Place × Node} {q : String}
    (h : pathBelow path place entry = some q) :
    ∃ names, entry.1 = place ++ names ∧ names ≠ [] ∧ q = join path ("/".intercalate names) := by
  obtain ⟨p, n⟩ := entry
  rw [pathBelow] at h
  split at h
  · next hbelow =>
    obtain ⟨names, hnames⟩ := List.isPrefixOf_iff_prefix.mp hbelow.1
    refine ⟨names, hnames.symm, ?_, ?_⟩
    · rintro rfl
      exact hbelow.2.1 (by rw [← hnames, List.append_nil])
    · rw [← Option.some.inj h, ← hnames, List.drop_left]
  · cases h

/-- A path leads to a directory after files were written exactly if it led there before. -/
theorem Filled.locate_directory (h : Filled fs fs') (hleads : fs.leads path) :
    (∃ root, fs.locate .read path = .ok (root, some .directory) ∧
      fs'.locate .read path = .ok (root, some .directory)) ∨
    (∀ root, fs.locate .read path ≠ .ok (root, some .directory)) ∧
      ∀ root, fs'.locate .read path ≠ .ok (root, some .directory) := by
  rcases hread : fs.locate .read path with e | ⟨p, node⟩
  · rw [FileSystem.leads, hread] at hleads
    cases hleads
  · have hnode := FileSystem.locate_eq_ok hread
    have hread' := h.locate_eq_ok hread
    by_cases hdirectory : node = some .directory
    · subst hdirectory
      have hkeeps : ¬ TakesFile (fs.node? p) := by
        rw [← hnode]
        rintro (h | ⟨bytes, h⟩) <;> cases h
      rw [h.node?_eq hkeeps, ← hnode] at hread'
      exact Or.inl ⟨p, rfl, hread'⟩
    · refine Or.inr ⟨by simp [hdirectory], fun root he => ?_⟩
      rw [hread'] at he
      obtain ⟨-, he⟩ := Prod.mk.inj (Except.ok.inj he)
      rcases h.node? p with hsame | ⟨-, bytes, hb⟩
      · exact hdirectory (hnode.trans (hsame.symm.trans he))
      · rw [hb] at he
        cases he

theorem filesIn_of_directory {root : Place}
    (h : fs.locate .read path = .ok (root, some .directory)) :
    fs.filesIn path = fs.pathItself path ++ fs.nodes.filterMap (pathBelow path root) := by
  rw [filesIn_eq, h]

theorem filesIn_of_no_directory (h : ∀ root, fs.locate .read path ≠ .ok (root, some .directory)) :
    fs.filesIn path = fs.pathItself path := by
  rw [filesIn_eq]
  split
  · next root hroot => exact absurd hroot (h root)
  · exact List.append_nil _

/-- **The files that are found after a series of files was written** are those found before and
behind them those that were written where nothing was. -/
theorem exists_filesIn_eq_append (h : ∀ file ∈ files, TakesFile (fs.node? file.1))
    (hleads : fs.leads path) :
    ∃ added, (fs.putAll files).filesIn path = fs.filesIn path ++ added ∧
      ∀ q ∈ added, ∃ root names, fs.locate .read path = .ok (root, some .directory) ∧
        names ≠ [] ∧ q = join path ("/".intercalate names) ∧
        fs.node? (root ++ names) = none ∧ ∃ file ∈ files, file.1 = root ++ names := by
  have hfilled : fs.Filled (fs.putAll files) := .putAll h
  obtain ⟨added, hadded, hnodes⟩ := exists_new_nodes h
  have hitself := hfilled.pathItself_eq hleads
  rcases hfilled.locate_directory hleads with ⟨root, hread, hread'⟩ | ⟨hread, hread'⟩
  · refine ⟨added.filterMap (pathBelow path root), ?_, fun q hq => ?_⟩
    · have hscan : ∀ q bytes bytes', pathBelow path root (q, .file bytes) =
          pathBelow path root (q, .file bytes') := fun q bytes bytes' => by simp [pathBelow]
      rw [filesIn_of_directory hread, filesIn_of_directory hread', hitself, hnodes _ hscan,
        List.append_assoc]
    · obtain ⟨entry, hentry, hq⟩ := List.mem_filterMap.mp hq
      obtain ⟨hnew, file, hfile, rfl⟩ := hadded entry hentry
      obtain ⟨names, hplace, hne, rfl⟩ := pathBelow_eq_some hq
      exact ⟨root, names, hread, hne, rfl, hplace ▸ hnew, file, hfile, hplace⟩
  · refine ⟨[], ?_, by simp⟩
    rw [filesIn_of_no_directory hread, filesIn_of_no_directory hread', hitself, List.append_nil]

/-! ### Directories that cannot be listed -/

theorem barred_eq_nil_iff : fs.barred path faults = [] ↔
    ∀ dir ∈ fs.directoriesIn path, fs.unlisted? dir faults = none := by
  simp [barred, List.filterMap_eq_nil_iff]

/-- Where the machine refuses no listing, directories to which their paths lead can be listed. -/
theorem barred_eq_nil_of_locate (hlisting : ∀ p, faults.listing p = none)
    (entries : List (String × Place)) (hdirs : fs.directoriesIn path = entries.map Prod.fst)
    (h : ∀ entry ∈ entries, fs.locate .read entry.1 = .ok (entry.2, some .directory)) :
    fs.barred path faults = [] := by
  rw [barred_eq_nil_iff, hdirs]
  intro dir hdir
  obtain ⟨entry, hentry, rfl⟩ := List.mem_map.mp hdir
  rw [unlisted?, h entry hentry]
  exact hlisting entry.2

/-- A directory that can be listed still can after files were written. -/
theorem Filled.unlisted?_eq_none (h : Filled fs fs') {dir : String}
    (hlisted : fs.unlisted? dir faults = none) : fs'.unlisted? dir faults = none := by
  unfold unlisted? at hlisted ⊢
  rcases h.locate .read dir with ⟨e, e', he, -⟩ | ⟨p, hp, hp'⟩
  · rw [he] at hlisted
    cases hlisted
  · rw [hp] at hlisted
    rw [hp']
    exact hlisted

/-- A series of files adds no directories. -/
theorem directoriesIn_putAll (h : ∀ file ∈ files, TakesFile (fs.node? file.1))
    (hleads : fs.leads path) :
    (fs.putAll files).directoriesIn path = fs.directoriesIn path := by
  have hfilled : fs.Filled (fs.putAll files) := .putAll h
  obtain ⟨added, hadded, hnodes⟩ := exists_new_nodes h
  rcases hfilled.locate_directory hleads with ⟨root, hread, hread'⟩ | ⟨hread, hread'⟩
  · simp only [directoriesIn, hread, hread', filterMap_below _ _ _ (· = Node.directory)]
    rw [hnodes _ fun p bytes bytes' => by simp]
    have hnone : added.filterMap (fun (q, n) =>
        if root.isPrefixOf q ∧ q ≠ root ∧ n = .directory then
          some (join path ("/".intercalate (q.drop root.length))) else none) = [] := by
      refine List.filterMap_eq_nil_iff.mpr fun entry hentry => ?_
      obtain ⟨-, file, -, rfl⟩ := hadded entry hentry
      simp
    rw [hnone, List.append_nil]
  · have hnone : ∀ {fs : FileSystem},
        (∀ root, fs.locate .read path ≠ .ok (root, some .directory)) →
        fs.directoriesIn path = [] := by
      intro fs h
      unfold directoriesIn
      split
      · next root hroot => exact absurd hroot (h root)
      · rfl
    rw [hnone hread, hnone hread']

/-- **Where all directories can be listed**, they still can after a series of files was written. -/
theorem barred_putAll (h : ∀ file ∈ files, TakesFile (fs.node? file.1)) (hleads : fs.leads path)
    (hbarred : fs.barred path faults = []) : (fs.putAll files).barred path faults = [] := by
  rw [barred_eq_nil_iff, directoriesIn_putAll h hleads]
  exact fun dir hdir =>
    (Filled.putAll h).unlisted?_eq_none (barred_eq_nil_iff.mp hbarred dir hdir)

/-! ### What a walk comes upon -/

theorem length_lt_of_isBelow {dir : String} (h : isBelow path dir) :
    dir.toList.length < path.toList.length := by
  rw [isBelow, Bool.and_eq_true, decide_eq_true_eq, List.isPrefixOf_iff_prefix] at h
  obtain ⟨hne, hprefix⟩ := h
  refine lt_of_le_of_ne ?_ fun hlength => hne ?_
  · refine le_trans ?_ hprefix.length_le
    rw [toList_join]
    split <;> simp
  · have hdir : dir.toList <+: (join dir "").toList := by
      rw [toList_join]
      split
      · exact List.prefix_append _ _
      · exact List.prefix_append _ _
    exact (String.toList_inj.mp ((hdir.trans hprefix).eq_of_length hlength)).symm

theorem visits_of_barred_eq_nil (h : fs.barred path faults = []) :
    fs.visits path faults = (fs.filesIn path).map .ok := by
  simp [visits, h]

/-- **A walk comes upon a directory that cannot be listed exactly if there is one.** -/
theorem exists_error_iff :
    (∃ e, .error e ∈ fs.visits path faults) ↔ fs.barred path faults ≠ [] := by
  constructor
  · rintro ⟨e, he⟩ hnil
    simp [visits_of_barred_eq_nil hnil] at he
  · intro hne
    -- one of the shortest paths among these directories is below none of the others
    obtain ⟨e, he, hleast⟩ := (fs.barred path faults).toFinset.exists_min_image
      (fun e => e.path.toList.length) (by simpa using hne)
    refine ⟨e, List.mem_append_right _ (List.mem_map_of_mem (List.mem_filter.mpr
      ⟨List.mem_toFinset.mp he, ?_⟩))⟩
    rw [Bool.not_eq_true', List.any_eq_false]
    intro other hother hbelow
    exact absurd (hleast other (List.mem_toFinset.mpr hother))
      (Nat.not_le.mpr (length_lt_of_isBelow hbelow))

theorem mem_barred_of_visits {e : WalkError} (h : .error e ∈ fs.visits path faults) :
    e ∈ fs.barred path faults := by
  rcases List.mem_append.mp h with h | h
  · obtain ⟨p, -, hp⟩ := List.mem_map.mp h
    cases hp
  · obtain ⟨e', he', heq⟩ := List.mem_map.mp h
    obtain rfl := Except.error.inj heq
    exact (List.mem_filter.mp he').1

end GeoRules.File.FileSystem
