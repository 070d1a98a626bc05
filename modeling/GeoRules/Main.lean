import GeoRules.CommandLine

/-!
# The program

The files that a build may look at are captured before it, and those that it wrote are written after
it. Everything between is `CommandLine.answer`.
-/

namespace GeoRules.Program

open File

/-- The path of a place. -/
def pathOf (place : Place) : String := "/" ++ "/".intercalate place

/-- The place that a path without links leads to. -/
def placeOf (path : String) : Place := (pathNames path).filter (!staysPut ·)

/-- The sort of what lies at a place. -/
def sortAt (place : Place) : IO (Option IO.FS.FileType) := do
  let path := (← IO.currentDir) / pathOf place
  try
    return some (← path.symlinkMetadata).type
  catch _ =>
    return none

/-- Where the links on the path to a place lead, if they lead anywhere. -/
def realPlace? (place : Place) : IO (Option Place) := do
  try
    return some (placeOf (← IO.FS.realPath (pathOf place)).toString)
  catch _ =>
    return none

/-- The directories on the way to a place. -/
def captureParents (fs : FileSystem) (place : Place) : FileSystem :=
  (List.range' 1 (place.length - 1)).foldl (fun fs n => fs.put (place.take n) .directory) fs

/-- The file or the directory at a place. -/
def captureNode (fs : FileSystem) (place : Place) : IO FileSystem := do
  match ← sortAt place with
  | none => return fs
  | some .dir => return (captureParents fs place).put place .directory
  | some _ =>
    let bytes ← IO.FS.readBinFile (pathOf place)
    return (captureParents fs place).put place (.file bytes.data.toList)

/-- With `make`, where the link at a place leads if a missing file can be made there. It is made for
the moment of asking only. -/
def missingPlace? (make : Bool) (place : Place) : IO (Option Place) := do
  if !make then return none
  try
    let _ ← IO.FS.Handle.mk (pathOf place) .append
    let real ← IO.FS.realPath (pathOf place)
    IO.FS.removeFile real
    return some (placeOf real.toString)
  catch _ =>
    return none

/-- The link at a place and what it leads to, which with `make` may be a file to be made. -/
def captureLink (fs : FileSystem) (make : Bool) (place : Place) : IO FileSystem := do
  match ← realPlace? place with
  | some real => captureNode (fs.put place (.link (pathOf real))) real
  | none => match ← missingPlace? make place with
    | some real => return captureParents (fs.put place (.link (pathOf real))) real
    | none => return fs.put place (.link "")

/-- What lies below a directory. -/
partial def captureBelow (fs : FileSystem) (place : Place) : IO FileSystem := do
  let mut fs := fs
  for entry in ← ((← IO.currentDir) / pathOf place).readDir do
    let inner := place ++ [entry.fileName]
    match ← sortAt inner with
    | some .dir => fs ← captureBelow (fs.put inner .directory) inner
    | some .symlink => fs ← captureLink fs false inner
    | _ => fs ← captureNode fs inner
  return fs

/-- What lies on a path that starts at a place, and where it leads. With `make`, the path may lead
to a file to be made. -/
def capturePath (fs : FileSystem) (make : Bool) (place : Place) :
    List String → IO (FileSystem × Place)
  | [] => return (fs, place)
  | name :: names => do
    if staysPut name then capturePath fs make place names
    else if name = ".." then capturePath fs make place.dropLast names
    else
      let inner := place ++ [name]
      match ← sortAt inner with
      | some .symlink =>
        let fs ← captureLink fs (make && names.isEmpty) inner
        capturePath fs make ((← realPlace? inner).getD inner) names
      | some _ => capturePath (← captureNode fs inner) make inner names
      | none => return (fs, inner)

/-- What lies on a path that is followed for the purpose, and for reading also all that lies below
where it leads. -/
def capture (fs : FileSystem) (purpose : FileSystem.Purpose) (path : String) : IO FileSystem := do
  let start := if isAbsolute path then [] else fs.workingDirectory
  let (fs, place) ← capturePath fs (purpose = .write) start (pathNames path)
  match purpose, ← sortAt place with
  | .read, some .dir => captureBelow fs place
  | _, _ => return fs

/-- The files that the request may look at. -/
def captureFor (request : CommandLine.Request) : IO FileSystem := do
  let current := placeOf (← IO.currentDir).toString
  let fs := (captureParents ⟨[], current⟩ current).put current .directory
  match request with
  | .build config _ =>
    let mut fs ← capture fs .read config.dataPath
    for name in [siteFile, ipFile, indexFile, proxyFile] do
      fs ← capture fs .write (join config.outputDir name)
    return fs
  | _ => return fs

/-- Writes the files that the events report as written, and logs the events. -/
def carryOut (answer : CommandLine.Answer) : IO Unit := do
  for event in answer.events do
    if event.level ≠ .debug then IO.eprintln event.render
    match event with
    | .wrote path _ => match answer.fs.read path with
      | .ok bytes => IO.FS.writeBinFile path ⟨bytes.toArray⟩
      | .error _ => pure ()
    | _ => pure ()

end GeoRules.Program

/-- Answers the arguments. -/
def main (arguments : List String) : IO UInt32 := do
  let fs ← GeoRules.Program.captureFor (GeoRules.CommandLine.request arguments)
  let answer := GeoRules.CommandLine.answer arguments fs
  GeoRules.Program.carryOut answer
  IO.print answer.output
  return UInt32.ofNat answer.status
