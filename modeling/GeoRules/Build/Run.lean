import GeoRules.Build.Compilation
import GeoRules.Build.Load
import GeoRules.Geo.Codec

/-!
# Running a build

A build loads a directory, compiles what it loaded and writes four files. If loading or compiling
fails, nothing is written. Otherwise all four files are tried, and the first failure is the failure
of the build. What the machine refuses (`Faults`) and the orders that it gives (`Orders`) are
parameters of the build.
-/

namespace GeoRules

open File

/-- Where a build reads and writes. -/
structure Config where
  dataPath : String := "./"
  outputDir : String := "."
  deriving DecidableEq, Repr

/-- Why a build fails. -/
inductive BuildError
  | data (e : MissingData)
  | compile (e : CompileError)
  | write (e : FileError)
  deriving DecidableEq, Repr

/-- The wording of the error. -/
def BuildError.message : BuildError → String
  | data e => e.message
  | compile e => e.message
  | write e => e.message

/-! ### The files of a compilation -/

/-- The file of the site database. -/
def siteFile : String := "v2site.dat"

/-- The file of the address database. -/
def ipFile : String := "v2ip.dat"

/-- The file of the category index. -/
def indexFile : String := "v2map.txt"

/-- The file of the proxy rules. -/
def proxyFile : String := "v2yaml.yaml"

/-- The files of a compilation with their bytes, in the order in which they are written. -/
def Compilation.files (c : Compilation) : List (String × List UInt8) :=
  [(siteFile, Geo.encodeSites c.sites), (ipFile, Geo.encodeIps c.ips),
    (indexFile, Text.utf8 c.index.render), (proxyFile, Text.utf8 c.proxy.render)]

/-- The state of writing: the file system, the first failure, and the events. -/
structure Writing where
  fs : FileSystem
  failure : Option FileError := none
  events : List Event := []

namespace Writing

/-- The state after one more file was tried. -/
def add (faults : Faults) (w : Writing) (path : String) (bytes : List UInt8) : Writing :=
  match w.fs.write path bytes faults with
  | .ok fs => { w with fs, events := w.events ++ [.wrote path bytes.length] }
  | .error (e, fs) =>
    { fs, failure := w.failure.or (some e), events := w.events ++ [.notWritten path e] }

end Writing

/-- The state after all files of the compilation were tried in the directory. -/
def Compilation.write (c : Compilation) (fs : FileSystem) (dir : String)
    (faults : Faults := .none) : Writing :=
  c.files.foldl (fun w (name, bytes) => w.add faults (join dir name) bytes) { fs }

/-! ### The whole build -/

/-- The events of compiling the lists: what the address lists drop, up to the first list that has
no message. -/
def Registry.compileEvents (reg : Registry) : List RuleList → List Event
  | [] => []
  | l :: ls => match l.resolve reg, l.compile reg with
    | .ok resolved, .ok _ =>
      (if l.family = .ip then resolved.dropEvents else []) ++ compileEvents reg ls
    | _, _ => []

/-- The outcome of a build: the result, the file system after it, and the events. -/
structure Outcome where
  result : Except BuildError Compilation
  fs : FileSystem
  events : List Event

/-- The build of the configuration. -/
def run (config : Config) (fs : FileSystem) (faults : Faults := .none)
    (orders : Orders := .asKept) : Outcome :=
  match loadDirectory fs config.dataPath faults orders with
  | .error e => ⟨.error (.data e), fs, loadEvents fs config.dataPath faults orders⟩
  | .ok report =>
    let lists := orders.lists report.registry
    let events := report.events ++
      .allLoaded report.registry.size config.dataPath report.skipped ::
        report.registry.compileEvents lists
    match report.registry.compileLists lists with
    | .error e => ⟨.error (.compile e), fs, events⟩
    | .ok c =>
      let w := c.write fs config.outputDir faults
      ⟨match w.failure with
        | none => .ok c
        | some e => .error (.write e), w.fs, events ++ w.events⟩

/-! ### Reading databases back -/

/-- Why a database cannot be read. -/
inductive ReadError
  | file (e : FileError)
  | decode (e : Wire.DecodeError)
  deriving DecidableEq, Repr

/-- The wording of the error. -/
def ReadError.message : ReadError → String
  | file e => e.message
  | decode e => e.message

/-- The site database in the file that the path leads to. -/
def readSites (fs : FileSystem) (path : String) : Except ReadError (List GeoSite) :=
  match fs.read path with
  | .error e => .error (.file e)
  | .ok bytes => (Geo.decodeSites bytes).mapError .decode

/-- The address database in the file that the path leads to. -/
def readIps (fs : FileSystem) (path : String) : Except ReadError (List GeoIp) :=
  match fs.read path with
  | .error e => .error (.file e)
  | .ok bytes => (Geo.decodeIps bytes).mapError .decode

end GeoRules
