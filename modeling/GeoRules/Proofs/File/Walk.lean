import GeoRules.File.FileSystem
import GeoRules.Proofs.File.Path
import Mathlib.Data.List.Basic

/-! # Where paths lead

A path is refused for its text or its names are walked (`locate_cases`). A walk takes one step for
each name (`walk_cons`), and what a step can do is said once (`step_cases`, `enter_cases`). From
this and by induction along the walk (`walk_rec`):

* `Filled.walk`: writing files changes neither where paths lead nor which paths lead nowhere;
* `walk_eq_look`: a walk goes the same way for all purposes, unless there is a link at its end;
* `walk_look_eq_ok`: who looks for a name ends at a place of that name;
* `WellFormed.walk`: where everything lies in a directory, a walk ends at a directory or at a place
  for a file. -/

namespace GeoRules.File.FileSystem

variable {fs fs' : FileSystem} {purpose : Purpose} {links : ℕ} {place : Place} {name : String}
  {names : List String}

/-! ### What lies at a place -/

theorem lookup_putNode (p q : Place) (node : Node) (nodes : List (Place × Node)) :
    (putNode p node nodes).lookup q = if q = p then some node else nodes.lookup q := by
  induction nodes with
  | nil =>
    by_cases hq : q = p
    · simp [putNode, hq]
    · simp [putNode, List.lookup_cons, hq, beq_false_of_ne hq]
  | cons entry nodes ih =>
    obtain ⟨r, n⟩ := entry
    rw [putNode]
    by_cases hr : r = p
    · by_cases hq : q = p
      · simp [hr, hq]
      · simp [List.lookup_cons, hr, hq, beq_false_of_ne hq]
    · rw [if_neg hr, List.lookup_cons, List.lookup_cons, ih]
      by_cases hq : q = r
      · simp [hq, hr]
      · simp [beq_false_of_ne hq]

theorem node?_put {p : Place} (hp : p ≠ []) (node : Node) (q : Place) :
    (fs.put p node).node? q = if q = p then some node else fs.node? q := by
  unfold node? put
  rw [lookup_putNode]
  by_cases hq : q = []
  · have hne : [] ≠ p := fun he => hp he.symm
    simp [hq, hne]
  · simp [hq]

/-- A file may be written where there is none or a file. -/
def TakesFile (node : Option Node) : Prop := node = none ∨ ∃ bytes, node = some (.file bytes)

/-! ### One name -/

/-- What comes of the first name of a path: an error, the end of the path, or the way left. -/
inductive Step
  | fail (e : FileError)
  | stop (place : Place)
  | go (links : ℕ) (place : Place) (names : List String)

/-- What comes of a name that is looked up in the directory `place`. -/
def enter (fs : FileSystem) (purpose : Purpose) (links : ℕ) (place : Place) (name : String)
    (names : List String) : Step :=
  match fs.node? (place ++ [name]) with
  | none => if names = [] then .stop (place ++ [name]) else .fail .notFound
  | some .directory => .go links (place ++ [name]) names
  | some (.file _) => if names = [] then .stop (place ++ [name]) else .fail .notDirectory
  | some (.link target) =>
    if names = [] ∧ purpose = .look then .stop (place ++ [name])
    else if target = "" then .fail .notFound
    else match links with
      | 0 => .fail .tooManyLinks
      | links + 1 => .go links (if isAbsolute target then [] else place) (pathNames target ++ names)

/-- What comes of `name` when `names` are behind it. -/
def step (fs : FileSystem) (purpose : Purpose) (links : ℕ) (place : Place) (name : String)
    (names : List String) : Step :=
  if staysPut name then .go links place names
  else if name = ".." then .go links place.dropLast names
  else if purpose = .write ∧ names = [""] then .fail .isDirectory
  else if maxNameSize < name.utf8ByteSize then .fail .nameTooLong
  else fs.enter purpose links place name names

theorem walk_nil (fs : FileSystem) (purpose : Purpose) (links : ℕ) (place : Place) :
    fs.walk purpose links place [] = .ok (place, fs.node? place) := by
  rw [walk]

/-- A walk takes the steps of its names. -/
theorem walk_cons (fs : FileSystem) (purpose : Purpose) (links : ℕ) (place : Place) (name : String)
    (names : List String) : fs.walk purpose links place (name :: names) =
      match fs.step purpose links place name names with
      | .fail e => .error e
      | .stop p => .ok (p, fs.node? p)
      | .go links p names => fs.walk purpose links p names := by
  rw [walk, step]
  by_cases hstay : staysPut name
  · rw [if_pos hstay, if_pos hstay]
  rw [if_neg hstay, if_neg hstay]
  by_cases hup : name = ".."
  · rw [if_pos hup, if_pos hup]
  rw [if_neg hup, if_neg hup]
  by_cases hslash : purpose = .write ∧ names = [""]
  · rw [if_pos hslash, if_pos hslash]
  rw [if_neg hslash, if_neg hslash]
  by_cases hsize : maxNameSize < name.utf8ByteSize
  · rw [if_pos hsize, if_pos hsize]
  rw [if_neg hsize, if_neg hsize, enter]
  rcases hnode : fs.node? (place ++ [name]) with _ | ⟨bytes⟩ | _ | target
  · by_cases hend : names = []
    · simp [hend, hnode]
    · simp [hend]
  · by_cases hend : names = []
    · simp [hend, hnode]
    · simp [hend]
  · rfl
  · by_cases hlook : names = [] ∧ purpose = .look
    · simp [hlook, hnode]
    · by_cases htarget : target = ""
      · simp [hlook, htarget]
      · cases links <;> simp [hlook, htarget]

/-- Only a name that leads on is looked up; what comes of any other name is the same in all file
systems. -/
theorem step_cases (purpose : Purpose) (links : ℕ) (place : Place) (name : String)
    (names : List String) :
    (∃ e, ∀ fs : FileSystem, fs.step purpose links place name names = .fail e) ∨
    (∃ p, (staysPut name ∧ p = place ∨ name = ".." ∧ p = place.dropLast) ∧
      ∀ fs : FileSystem, fs.step purpose links place name names = .go links p names) ∨
    (staysPut name = false ∧ name ≠ ".." ∧ ∀ fs : FileSystem,
      fs.step purpose links place name names = fs.enter purpose links place name names) := by
  unfold step
  by_cases hstay : staysPut name
  · exact Or.inr (Or.inl ⟨place, Or.inl ⟨hstay, rfl⟩, fun fs => if_pos hstay⟩)
  by_cases hup : name = ".."
  · exact Or.inr (Or.inl ⟨place.dropLast, Or.inr ⟨hup, rfl⟩, fun fs => by
      rw [if_neg hstay, if_pos hup]⟩)
  by_cases hslash : purpose = .write ∧ names = [""]
  · exact Or.inl ⟨_, fun fs => by rw [if_neg hstay, if_neg hup, if_pos hslash]⟩
  by_cases hsize : maxNameSize < name.utf8ByteSize
  · exact Or.inl ⟨_, fun fs => by rw [if_neg hstay, if_neg hup, if_neg hslash, if_pos hsize]⟩
  · refine Or.inr (Or.inr ⟨by simpa using hstay, hup, fun fs => ?_⟩)
    rw [if_neg hstay, if_neg hup, if_neg hslash, if_neg hsize]

/-- What comes of a name that is looked up: an error, the end of the path, a directory to go on in,
or a link to follow. A link is the end for those who look for it. -/
theorem enter_cases (fs : FileSystem) (purpose : Purpose) (links : ℕ) (place : Place)
    (name : String) (names : List String) :
    (∃ e, fs.enter purpose links place name names = .fail e) ∨
    (fs.enter purpose links place name names = .stop (place ++ [name]) ∧ names = [] ∧
      (TakesFile (fs.node? (place ++ [name])) ∨ purpose = .look)) ∨
    (fs.enter purpose links place name names = .go links (place ++ [name]) names ∧
      fs.node? (place ++ [name]) = some .directory) ∨
    ∃ links' place' target, links = links' + 1 ∧ (place' = [] ∨ place' = place) ∧
      fs.enter purpose links place name names = .go links' place' (pathNames target ++ names) ∧
      (purpose = .look → names ≠ []) := by
  unfold enter
  rcases hnode : fs.node? (place ++ [name]) with _ | ⟨bytes⟩ | _ | target
  · by_cases hend : names = []
    · exact Or.inr (Or.inl ⟨if_pos hend, hend, Or.inl (Or.inl rfl)⟩)
    · exact Or.inl ⟨_, if_neg hend⟩
  · by_cases hend : names = []
    · exact Or.inr (Or.inl ⟨if_pos hend, hend, Or.inl (Or.inr ⟨bytes, rfl⟩)⟩)
    · exact Or.inl ⟨_, if_neg hend⟩
  · exact Or.inr (Or.inr (Or.inl ⟨rfl, rfl⟩))
  · by_cases hlook : names = [] ∧ purpose = .look
    · exact Or.inr (Or.inl ⟨if_pos hlook, hlook.1, Or.inr hlook.2⟩)
    by_cases htarget : target = ""
    · exact Or.inl ⟨.notFound, by simp [hlook, htarget]⟩
    rcases links with _ | links
    · exact Or.inl ⟨.tooManyLinks, by simp [hlook, htarget]⟩
    · refine Or.inr (Or.inr (Or.inr ⟨links, if isAbsolute target then [] else place, target, rfl,
        ?_, by simp [hlook, htarget], fun hp hn => hlook ⟨hn, hp⟩⟩))
      split <;> simp

/-- A walk goes on at the same place, at its parent, inside it, or along a link. -/
theorem step_eq_go {links' : ℕ} {place' : Place} {names' : List String}
    (h : fs.step purpose links place name names = .go links' place' names') :
    (links' = links ∧ names' = names ∧ (staysPut name ∧ place' = place ∨
      name = ".." ∧ place' = place.dropLast ∨ (staysPut name = false ∧ name ≠ ".." ∧
        place' = place ++ [name] ∧ fs.node? place' = some .directory))) ∨
    ∃ target, links = links' + 1 ∧ names' = pathNames target ++ names ∧
      (place' = [] ∨ place' = place) ∧ (purpose = .look → names ≠ []) := by
  rcases step_cases purpose links place name names with ⟨e, hstep⟩ | ⟨p, hp, hstep⟩ |
    ⟨hstay, hup, hstep⟩
  · rw [hstep] at h
    cases h
  · rw [hstep] at h
    cases h
    exact Or.inl ⟨rfl, rfl, or_assoc.mp (Or.inl hp)⟩
  · rw [hstep] at h
    rcases enter_cases fs purpose links place name names with ⟨e, he⟩ | ⟨he, -, -⟩ | ⟨he, hnode⟩ |
      ⟨k, p, target, hk, hp, he, hlook⟩
    · rw [he] at h
      cases h
    · rw [he] at h
      cases h
    · rw [he] at h
      cases h
      exact Or.inl ⟨rfl, rfl, Or.inr (Or.inr ⟨hstay, hup, rfl, hnode⟩)⟩
    · rw [he] at h
      cases h
      exact Or.inr ⟨target, hk, rfl, hp, hlook⟩

/-- A walk ends before its names do only at a last name that is looked up and finds no directory. -/
theorem step_eq_stop {p : Place} (h : fs.step purpose links place name names = .stop p) :
    names = [] ∧ staysPut name = false ∧ name ≠ ".." ∧ p = place ++ [name] ∧
      (TakesFile (fs.node? p) ∨ purpose = .look) := by
  rcases step_cases purpose links place name names with ⟨e, hstep⟩ | ⟨p, hp, hstep⟩ |
    ⟨hstay, hup, hstep⟩
  · rw [hstep] at h
    cases h
  · rw [hstep] at h
    cases h
  · rw [hstep] at h
    rcases enter_cases fs purpose links place name names with ⟨e, he⟩ | ⟨he, hend, hnode⟩ |
      ⟨he, -⟩ | ⟨k, p, target, -, -, he, -⟩
    · rw [he] at h
      cases h
    · rw [he] at h
      cases h
      exact ⟨hend, hstay, hup, rfl, hnode⟩
    · rw [he] at h
      cases h
    · rw [he] at h
      cases h

/-- Induction along a walk. -/
theorem walk_rec (fs : FileSystem) (purpose : Purpose) {motive : ℕ → Place → List String → Prop}
    (nil : ∀ links place, motive links place [])
    (cons : ∀ links place name names,
      (∀ links' place' names', fs.step purpose links place name names = .go links' place' names' →
        motive links' place' names') → motive links place (name :: names))
    (links : ℕ) (place : Place) (names : List String) : motive links place names := by
  match names with
  | [] => exact nil links place
  | name :: names =>
    exact cons links place name names fun links' place' names' h =>
      walk_rec fs purpose nil cons links' place' names'
termination_by (links, names.length)
decreasing_by
  rcases step_eq_go h with ⟨rfl, rfl, -⟩ | ⟨target, rfl, -⟩
  · exact Prod.Lex.right _ (Nat.lt_succ_self _)
  · exact Prod.Lex.left _ _ (Nat.lt_succ_self _)

/-- The end of the walk, if it is reached within so many steps. -/
def walkWithin (fs : FileSystem) (purpose : Purpose) :
    (fuel links : ℕ) → Place → List String → Option (Except FileError (Place × Option Node))
  | _, _, place, [] => some (.ok (place, fs.node? place))
  | 0, _, _, _ :: _ => none
  | fuel + 1, links, place, name :: names => match fs.step purpose links place name names with
    | .fail e => some (.error e)
    | .stop p => some (.ok (p, fs.node? p))
    | .go links p names => fs.walkWithin purpose fuel links p names

theorem walk_of_walkWithin {fuel : ℕ} {x : Except FileError (Place × Option Node)}
    (h : fs.walkWithin purpose fuel links place names = some x) :
    fs.walk purpose links place names = x := by
  induction fuel generalizing links place names with
  | zero =>
    rcases names with _ | ⟨name, names⟩
    · rw [walk_nil]
      exact Option.some.inj h
    · cases h
  | succ fuel ih =>
    rcases names with _ | ⟨name, names⟩
    · rw [walk_nil]
      exact Option.some.inj h
    · rw [walkWithin] at h
      rw [walk_cons]
      rcases hstep : fs.step purpose links place name names with e | p | ⟨links', p, names'⟩
      · rw [hstep] at h
        exact Option.some.inj h
      · rw [hstep] at h
        exact Option.some.inj h
      · rw [hstep] at h
        exact ih h

/-- The path is followed to its end within so many steps. -/
def LeadsWithin (fs : FileSystem) (purpose : Purpose) (fuel : ℕ) (path : String)
    (x : Except FileError (Place × Option Node)) : Prop :=
  '\x00' ∉ path.toList ∧ path ≠ "" ∧ path.utf8ByteSize ≤ maxPathSize ∧
    fs.walkWithin purpose fuel maxLinks (if isAbsolute path then [] else fs.workingDirectory)
      (pathNames path) = some x

instance (fs : FileSystem) (purpose : Purpose) (fuel : ℕ) (path : String)
    (x : Except FileError (Place × Option Node)) :
    Decidable (fs.LeadsWithin purpose fuel path x) :=
  inferInstanceAs (Decidable (_ ∧ _ ∧ _ ∧ _))

theorem LeadsWithin.locate {fuel : ℕ} {path : String} {x : Except FileError (Place × Option Node)}
    (h : fs.LeadsWithin purpose fuel path x) : fs.locate purpose path = x := by
  obtain ⟨hzero, hempty, hsize, hwalk⟩ := h
  rw [FileSystem.locate, if_neg hzero, if_neg hempty, if_neg (Nat.not_lt.mpr hsize)]
  exact walk_of_walkWithin hwalk

/-- A path is refused for its text by all file systems, or its names are walked. -/
theorem locate_cases (path : String) :
    (∃ e, ∀ (fs : FileSystem) (purpose : Purpose), fs.locate purpose path = .error e) ∨
    ∀ (fs : FileSystem) (purpose : Purpose), fs.locate purpose path =
      fs.walk purpose maxLinks (if isAbsolute path then [] else fs.workingDirectory)
        (pathNames path) := by
  unfold FileSystem.locate
  by_cases hzero : '\x00' ∈ path.toList
  · exact Or.inl ⟨_, fun fs purpose => if_pos hzero⟩
  by_cases hempty : path = ""
  · exact Or.inl ⟨_, fun fs purpose => by rw [if_neg hzero, if_pos hempty]⟩
  by_cases hsize : maxPathSize < path.utf8ByteSize
  · exact Or.inl ⟨_, fun fs purpose => by rw [if_neg hzero, if_neg hempty, if_pos hsize]⟩
  · exact Or.inr fun fs purpose => by rw [if_neg hzero, if_neg hempty, if_neg hsize]

/-! ### Files in some places -/

/-- `fs'` is `fs` with files in some of the places that take them. -/
structure Filled (fs fs' : FileSystem) : Prop where
  workingDirectory : fs'.workingDirectory = fs.workingDirectory
  node? : ∀ p, fs'.node? p = fs.node? p ∨
    TakesFile (fs.node? p) ∧ ∃ bytes, fs'.node? p = some (.file bytes)

theorem Filled.refl (fs : FileSystem) : Filled fs fs := ⟨rfl, fun _ => Or.inl rfl⟩

theorem Filled.trans {fs'' : FileSystem} (h : Filled fs fs') (h' : Filled fs' fs'') :
    Filled fs fs'' := by
  refine ⟨h'.workingDirectory.trans h.workingDirectory, fun p => ?_⟩
  rcases h'.node? p with he' | ⟨ht', hb'⟩
  · rw [he']
    exact h.node? p
  · rcases h.node? p with he | ⟨ht, -⟩
    · exact Or.inr ⟨he ▸ ht', hb'⟩
    · exact Or.inr ⟨ht, hb'⟩

theorem TakesFile.ne_nil {p : Place} (h : TakesFile (fs.node? p)) : p ≠ [] := by
  rintro rfl
  rcases h with h | ⟨bytes, h⟩ <;> cases h

theorem Filled.put {p : Place} (h : TakesFile (fs.node? p)) (bytes : List UInt8) :
    Filled fs (fs.put p (.file bytes)) := by
  refine ⟨rfl, fun q => ?_⟩
  rw [node?_put h.ne_nil]
  split
  · next hq => exact Or.inr ⟨hq ▸ h, bytes, rfl⟩
  · exact Or.inl rfl

theorem Filled.takesFile (h : Filled fs fs') {p : Place} (ht : TakesFile (fs.node? p)) :
    TakesFile (fs'.node? p) := by
  rcases h.node? p with he | ⟨-, bytes, hb⟩
  · rwa [he]
  · exact Or.inr ⟨bytes, hb⟩

/-- What lies at a place is the same unless the place takes files. -/
theorem Filled.node?_eq (h : Filled fs fs') {p : Place} (ht : ¬ TakesFile (fs.node? p)) :
    fs'.node? p = fs.node? p := (h.node? p).resolve_right fun hn => ht hn.1

/-- A walk in `fs` and one in `fs'` that fail both or lead to the same place. -/
def SameWay (fs fs' : FileSystem) (x x' : Except FileError (Place × Option Node)) : Prop :=
  (∃ e e', x = .error e ∧ x' = .error e') ∨
    ∃ p, x = .ok (p, fs.node? p) ∧ x' = .ok (p, fs'.node? p)

/-- Both steps fail, or they are the same. -/
theorem Filled.step (h : Filled fs fs') (purpose : Purpose) (links : ℕ) (place : Place)
    (name : String) (names : List String) :
    (∃ e e', fs.step purpose links place name names = .fail e ∧
      fs'.step purpose links place name names = .fail e') ∨
    fs'.step purpose links place name names = fs.step purpose links place name names := by
  rcases step_cases purpose links place name names with ⟨e, hstep⟩ | ⟨p, hp, hstep⟩ |
    ⟨hstay, hup, hstep⟩
  · exact Or.inl ⟨e, e, hstep fs, hstep fs'⟩
  · exact Or.inr (by rw [hstep, hstep])
  · rw [hstep, hstep, enter, enter]
    rcases h.node? (place ++ [name]) with he | ⟨ht, bytes, hb⟩
    · rw [he]
      exact Or.inr rfl
    · by_cases hend : names = []
      · rcases ht with ht | ⟨bytes', ht⟩ <;> simp [ht, hb, hend]
      · rcases ht with ht | ⟨bytes', ht⟩ <;> simp [ht, hb, hend]

/-- **Files in places that take them do not change where paths lead**, nor which paths lead
nowhere. -/
theorem Filled.walk (h : Filled fs fs') (purpose : Purpose) (links : ℕ) (place : Place)
    (names : List String) :
    SameWay fs fs' (fs.walk purpose links place names) (fs'.walk purpose links place names) := by
  induction links, place, names using walk_rec fs purpose with
  | nil links place => exact Or.inr ⟨place, walk_nil .., walk_nil ..⟩
  | cons links place name names ih =>
    rw [walk_cons, walk_cons]
    rcases h.step purpose links place name names with ⟨e, e', he, he'⟩ | he
    · rw [he, he']
      exact Or.inl ⟨e, e', rfl, rfl⟩
    · rw [he]
      rcases hstep : fs.step purpose links place name names with e | p | ⟨links', p, names'⟩
      · exact Or.inl ⟨e, e, rfl, rfl⟩
      · exact Or.inr ⟨p, rfl, rfl⟩
      · exact ih links' p names' hstep

theorem Filled.locate (h : Filled fs fs') (purpose : Purpose) (path : String) :
    SameWay fs fs' (fs.locate purpose path) (fs'.locate purpose path) := by
  rcases locate_cases path with ⟨e, he⟩ | hwalk
  · exact Or.inl ⟨e, e, he .., he ..⟩
  · rw [hwalk, hwalk, h.workingDirectory]
    exact h.walk ..

/-! ### The purposes of a walk -/

/-- A step is the same for all purposes, unless it is the end of those who look for a link. -/
theorem step_eq_look (hslash : purpose = .write → names ≠ [""]) :
    fs.step purpose links place name names = fs.step .look links place name names ∨
      ∃ p target, fs.step .look links place name names = .stop p ∧
        fs.node? p = some (.link target) := by
  have hwrite : ¬ (purpose = .write ∧ names = [""]) := fun h => hslash h.1 h.2
  have hlook : ¬ (Purpose.look = .write ∧ names = [""]) := by simp
  unfold step
  by_cases hstay : staysPut name
  · exact Or.inl (by rw [if_pos hstay, if_pos hstay])
  rw [if_neg hstay, if_neg hstay]
  by_cases hup : name = ".."
  · exact Or.inl (by rw [if_pos hup, if_pos hup])
  rw [if_neg hup, if_neg hup, if_neg hwrite, if_neg hlook]
  by_cases hsize : maxNameSize < name.utf8ByteSize
  · exact Or.inl (by rw [if_pos hsize, if_pos hsize])
  rw [if_neg hsize, if_neg hsize]
  unfold enter
  rcases hnode : fs.node? (place ++ [name]) with _ | ⟨bytes⟩ | _ | target
  · exact Or.inl rfl
  · exact Or.inl rfl
  · exact Or.inl rfl
  · by_cases hend : names = []
    · exact Or.inr ⟨place ++ [name], target, by simp [hend], hnode⟩
    · exact Or.inl (by simp [hend])

/-- The last name stays the last one for those who look, as they follow no link there. -/
theorem getLast?_of_step_look {links' : ℕ} {place' : Place} {names' : List String}
    (h : fs.step .look links place name names = .go links' place' names') :
    names' = [] ∨ names'.getLast? = (name :: names).getLast? := by
  have hcons : names ≠ [] → (name :: names).getLast? = names.getLast? := by
    intro hn
    rw [List.getLast?_cons, List.getLast?_eq_some_getLast hn]
    rfl
  rcases step_eq_go h with ⟨-, rfl, -⟩ | ⟨target, -, rfl, -, hn⟩
  · by_cases hnames : names' = []
    · exact Or.inl hnames
    · exact Or.inr (hcons hnames).symm
  · rw [hcons (hn rfl), List.getLast?_append, List.getLast?_eq_some_getLast (hn rfl)]
    exact Or.inr rfl

/-- A walk goes the same way for all purposes, unless a link is at its end. -/
theorem walk_eq_look (fs : FileSystem) (purpose : Purpose) (links : ℕ) (place : Place)
    (names : List String) (hslash : purpose = .write → names.getLast? ≠ some "") :
    fs.walk purpose links place names = fs.walk .look links place names ∨
      ∃ p target, fs.walk .look links place names = .ok (p, some (.link target)) := by
  induction links, place, names using walk_rec fs .look with
  | nil links place => exact Or.inl (by rw [walk_nil, walk_nil])
  | cons links place name names ih =>
    have hnames : purpose = .write → names ≠ [""] := by
      rintro hp rfl
      exact hslash hp rfl
    rw [walk_cons, walk_cons]
    rcases step_eq_look hnames with he | ⟨p, target, he, hnode⟩
    · rw [he]
      rcases hstep : fs.step .look links place name names with e | p | ⟨links', p, names'⟩
      · exact Or.inl rfl
      · exact Or.inl rfl
      · refine ih links' p names' hstep fun hp hlast => hslash hp ?_
        rcases getLast?_of_step_look hstep with rfl | hnames'
        · cases hlast
        · exact hnames' ▸ hlast
    · refine Or.inr ⟨p, target, ?_⟩
      rw [he, ← hnode]

/-- Who looks for a name that leads on finds it in some directory, whether or not something lies
there. -/
theorem walk_look_eq_ok (hname : ProperName name) {p : Place} {node : Option Node}
    (h : fs.walk .look links place names = .ok (p, node)) (hlast : names.getLast? = some name) :
    p.getLast? = some name := by
  induction links, place, names using walk_rec fs .look with
  | nil links place => cases hlast
  | cons links place first names ih =>
    rw [walk_cons] at h
    rcases hstep : fs.step .look links place first names with e | q | ⟨links', q, names'⟩
    · rw [hstep] at h
      cases h
    · rw [hstep] at h
      obtain ⟨rfl, -, -, rfl, -⟩ := step_eq_stop hstep
      cases h
      simpa using hlast
    · rw [hstep] at h
      rcases getLast?_of_step_look hstep with rfl | hnames'
      · simp only [walk_nil] at h
        cases h
        rcases step_eq_go hstep with ⟨-, rfl, hplace⟩ | ⟨target, -, hnil, -, hn⟩
        · obtain rfl : first = name := by simpa using hlast
          rcases hplace with ⟨hstay, -⟩ | ⟨hup, -⟩ | ⟨-, -, rfl, -⟩
          · rw [hname.1] at hstay; cases hstay
          · exact absurd hup hname.2.1
          · simp
        · exact absurd (List.append_eq_nil_iff.mp hnil.symm).2 (hn rfl)
      · exact ih links' q names' hstep h (hnames'.trans hlast)

/-! ### Paths of files in a directory -/

/-- The path of a file is followed in the same way for all purposes, unless it is that of a link. -/
theorem locate_join_eq_look (hname : ProperName name) {dir : String}
    (hlink : ∀ p target, fs.locate .look (join dir name) ≠ .ok (p, some (.link target)))
    (purpose : Purpose) :
    fs.locate purpose (join dir name) = fs.locate .look (join dir name) := by
  rcases locate_cases (join dir name) with ⟨e, he⟩ | hwalk
  · rw [he, he]
  · have hlast : (pathNames (join dir name)).getLast? ≠ some "" := by
      rw [pathNames_join hname.ne_empty hname.2.2]
      simpa using hname.ne_empty
    rw [hwalk] at hlink ⊢
    rw [hwalk]
    rcases walk_eq_look fs purpose _ _ _ fun _ => hlast with he | ⟨p, target, he⟩
    · exact he
    · exact absurd he (hlink p target)

/-- The path of a file leads to a place of its name. -/
theorem getLast?_of_locate_look (hname : ProperName name) {dir : String} {p : Place}
    {node : Option Node} (h : fs.locate .look (join dir name) = .ok (p, node)) :
    p.getLast? = some name := by
  rcases locate_cases (join dir name) with ⟨e, he⟩ | hwalk
  · rw [he] at h
    cases h
  · rw [hwalk, pathNames_join hname.ne_empty hname.2.2] at h
    exact walk_look_eq_ok hname h List.getLast?_concat

/-! ### Well-formed file systems -/

/-- Everything lies in a directory, by a name that leads on; the working directory is one. -/
structure WellFormed (fs : FileSystem) : Prop where
  workingDirectory : fs.node? fs.workingDirectory = some .directory
  parent : ∀ entry ∈ fs.nodes, fs.node? entry.1.dropLast = some .directory
  proper : ∀ entry ∈ fs.nodes, ∀ name ∈ entry.1, ProperName name

theorem exists_mem_nodes {p : Place} {node : Node} (h : fs.node? p = some node) :
    p = [] ∨ ∃ entry ∈ fs.nodes, entry.1 = p := by
  unfold node? at h
  split at h
  · exact Or.inl (by assumption)
  · obtain ⟨before, after, hnodes, -⟩ := List.lookup_eq_some_iff.mp h
    exact Or.inr ⟨(p, node), by simp [hnodes], rfl⟩

namespace WellFormed

theorem parent_directory (h : fs.WellFormed) {p : Place} {node : Node}
    (hp : fs.node? p = some node) : fs.node? p.dropLast = some .directory := by
  rcases exists_mem_nodes hp with rfl | ⟨entry, hentry, rfl⟩
  · rfl
  · exact h.parent entry hentry

theorem proper_of_node? (h : fs.WellFormed) {p : Place} {node : Node}
    (hp : fs.node? p = some node) : ∀ name ∈ p, ProperName name := by
  rcases exists_mem_nodes hp with rfl | ⟨entry, hentry, rfl⟩
  · simp
  · exact h.proper entry hentry

/-- A walk from a directory ends at a place with names that lead on. A directory lies there or a
file may be written there, unless it is a link that was looked for. -/
theorem walk (h : fs.WellFormed) (hplace : fs.node? place = some .directory)
    (hnames : ∀ name ∈ names, '/' ∉ name.toList) {p : Place} {node : Option Node}
    (hwalk : fs.walk purpose links place names = .ok (p, node)) :
    (∀ name ∈ p, ProperName name) ∧ node = fs.node? p ∧
      (node = some .directory ∨ TakesFile node ∨ purpose = .look) := by
  induction links, place, names using walk_rec fs purpose with
  | nil links place =>
    rw [walk_nil] at hwalk
    cases hwalk
    exact ⟨h.proper_of_node? hplace, rfl, Or.inl hplace⟩
  | cons links place first names ih =>
    rw [walk_cons] at hwalk
    have hfirst := hnames first List.mem_cons_self
    have hrest : ∀ name ∈ names, '/' ∉ name.toList :=
      fun name hname => hnames name (List.mem_cons_of_mem _ hname)
    rcases hstep : fs.step purpose links place first names with e | q | ⟨links', q, names'⟩
    · rw [hstep] at hwalk
      cases hwalk
    · rw [hstep] at hwalk
      obtain ⟨-, hstay, hup, rfl, hnode⟩ := step_eq_stop hstep
      cases hwalk
      refine ⟨?_, rfl, Or.inr hnode⟩
      simp only [List.forall_mem_append, List.forall_mem_singleton]
      exact ⟨h.proper_of_node? hplace, hstay, hup, hfirst⟩
    · rw [hstep] at hwalk
      rcases step_eq_go hstep with ⟨-, rfl, hq⟩ | ⟨target, -, rfl, hq, -⟩
      · refine ih links' q names' hstep ?_ hrest hwalk
        rcases hq with ⟨-, rfl⟩ | ⟨-, rfl⟩ | ⟨-, -, -, hq⟩
        · exact hplace
        · exact h.parent_directory hplace
        · exact hq
      · refine ih links' q _ hstep ?_ ?_ hwalk
        · rcases hq with rfl | rfl
          · rfl
          · exact hplace
        · rw [List.forall_mem_append]
          exact ⟨fun name => not_mem_of_mem_pathNames, hrest⟩

theorem locate (h : fs.WellFormed) {path : String} {p : Place} {node : Option Node}
    (hlocate : fs.locate purpose path = .ok (p, node)) :
    (∀ name ∈ p, ProperName name) ∧ node = fs.node? p ∧
      (node = some .directory ∨ TakesFile node ∨ purpose = .look) := by
  have hstart : fs.node? (if isAbsolute path then [] else fs.workingDirectory) =
      some .directory := by
    split
    · rfl
    · exact h.workingDirectory
  rcases locate_cases path with ⟨e, he⟩ | hwalk
  · rw [he] at hlocate
    cases hlocate
  · rw [hwalk] at hlocate
    exact h.walk hstart (fun name => not_mem_of_mem_pathNames) hlocate

/-- Only who looks finds a link. -/
theorem locate_ne_link (h : fs.WellFormed) (hpurpose : purpose ≠ .look) (path : String) (p : Place)
    (target : String) : fs.locate purpose path ≠ .ok (p, some (.link target)) := by
  intro hlocate
  rcases (h.locate hlocate).2.2 with hnode | (hnode | ⟨bytes, hnode⟩) | hlook
  · cases hnode
  · cases hnode
  · cases hnode
  · exact hpurpose hlook

end WellFormed

end GeoRules.File.FileSystem
