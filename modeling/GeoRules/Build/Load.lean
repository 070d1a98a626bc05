import GeoRules.Build.Event

/-!
# Loading a directory

Every file in the directory that makes a rule list goes into a registry; the others are skipped. Of
several files with one name the last one counts, in the order of the walk, which may be any
(`Orders`). A directory that cannot be listed ends the walk and the build.
-/

namespace GeoRules

open File

/-- The rule list of the file that the path leads to. -/
def loadFile (fs : FileSystem) (path : String) : Except LoadError RuleList :=
  match fs.read path with
  | .error e => .error (.file e)
  | .ok bytes => match RuleList.load (fileName path) bytes with
    | .error e => .error (.list e)
    | .ok l => .ok l

/-- What was loaded: the registry, how many files were skipped, how many lists were replaced by a
later one, and the events. -/
structure LoadReport where
  registry : Registry := .empty
  skipped : Nat := 0
  replaced : Nat := 0
  events : List Event := []

namespace LoadReport

/-- The report with the outcome of one more file. -/
def add (report : LoadReport) (path : String) : Except LoadError RuleList → LoadReport
  | .error e =>
    { report with
      skipped := report.skipped + 1
      events := report.events ++ [.skipped path e] }
  | .ok l =>
    let taken := (report.registry.get? l.name).isSome
    { report with
      registry := report.registry.insert l
      replaced := if taken then report.replaced + 1 else report.replaced
      events := report.events ++ [.loaded l.name l.rules.length path] ++
        if taken then [.replaced l.name path] else [] }

end LoadReport

/-- The report of the files, loaded one after the other. -/
def loadFiles (fs : FileSystem) (paths : List String) : LoadReport :=
  paths.foldl (fun report path => report.add path (loadFile fs path)) {}

/-! ### What has no order -/

/-- The orders in which a build meets what has no order of its own: what is in a directory, and the
lists of a registry. -/
structure Orders where
  visits : List (Except FileSystem.WalkError String) → List (Except FileSystem.WalkError String)
  visits_perm : ∀ found, (visits found).Perm found
  lists : Registry → List RuleList
  lists_perm : ∀ reg, (lists reg).Perm reg.lists

/-- Everything in the order in which it is kept. -/
def Orders.asKept : Orders := ⟨id, .refl, Registry.lists, fun reg => .refl reg.lists⟩

/-! ### The walk -/

/-- Why there are no data to load: the path leads to nothing, or a directory at or below it cannot
be listed. -/
inductive MissingData
  | path (path : String)
  | directory (e : FileSystem.WalkError)
  deriving DecidableEq, Repr

/-- The wording of the error. -/
def MissingData.message : MissingData → String
  | path p => "data path not found: " ++ p
  | directory e => e.message

/-- The files that are visited before a directory that cannot be listed. -/
def reached : List (Except FileSystem.WalkError String) → List String
  | .ok path :: visits => path :: reached visits
  | _ => []

/-- The report of all files in the directory, or of the one file, that the path leads to. A
directory that cannot be listed ends it. -/
def loadDirectory (fs : FileSystem) (path : String) (faults : Faults := .none)
    (orders : Orders := .asKept) : Except MissingData LoadReport :=
  if fs.leads path then match (orders.visits (fs.visits path faults)).mapM id with
    | .error e => .error (.directory e)
    | .ok paths => .ok (loadFiles fs paths)
  else .error (.path path)

/-- The events of loading, to its end or up to the directory that cannot be listed. -/
def loadEvents (fs : FileSystem) (path : String) (faults : Faults := .none)
    (orders : Orders := .asKept) : List Event :=
  if fs.leads path then (loadFiles fs (reached (orders.visits (fs.visits path faults)))).events
  else []

end GeoRules
