import GeoRules.File.Path

/-!
# File systems

A file system holds files, directories and symbolic links at places, the lists of names from the
root. A path is followed from the root or from the working directory; a link on the way is replaced
by the path it holds, and an empty one leads nowhere. Paths, their names and the number of links on
the way are bounded.

What a machine refuses besides is not in the file system: directories that may not be listed, files
that may not be opened for writing, and files that do not take all bytes (`Faults`).
-/

namespace GeoRules.File

/-- Why a file cannot be read or written. -/
inductive FileError
  | zeroCharacter
  | notFound
  | notDirectory
  | isDirectory
  | nameTooLong
  | tooManyLinks
  | permissionDenied
  | inputOutput
  | noSpace
  deriving DecidableEq, Repr

/-- The wording of the error. -/
def FileError.text : FileError → String
  | zeroCharacter => "file name contained an unexpected NUL byte"
  | notFound => "No such file or directory (os error 2)"
  | notDirectory => "Not a directory (os error 20)"
  | isDirectory => "Is a directory (os error 21)"
  | nameTooLong => "File name too long (os error 36)"
  | tooManyLinks => "Too many levels of symbolic links (os error 40)"
  | permissionDenied => "Permission denied (os error 13)"
  | inputOutput => "Input/output error (os error 5)"
  | noSpace => "No space left on device (os error 28)"

/-- What lies at a place. -/
inductive Node
  | file (bytes : List UInt8)
  | directory
  | link (target : String)
  deriving DecidableEq, Repr

/-- The names on the way from the root. -/
abbrev Place := List String

/-- What lies at the places below the root, and the place of the working directory. -/
structure FileSystem where
  nodes : List (Place × Node)
  workingDirectory : Place
  deriving DecidableEq, Repr

/-- What a machine refuses at the places of a file system. -/
structure Faults where
  /-- Why the directory at a place cannot be listed. -/
  listing : Place → Option FileError := fun _ => none
  /-- Why the file at a place cannot be opened for writing. -/
  opening : Place → Option FileError := fun _ => none
  /-- How many bytes the file at a place takes, and why no more. -/
  writing : Place → Option (Nat × FileError) := fun _ => none

namespace Faults

/-- Nothing is refused. -/
def none : Faults := {}

/-- How many of the bytes the file at a place takes, and why not all, if it does not. -/
def stop? (faults : Faults) (place : Place) (bytes : List UInt8) : Option (Nat × FileError) :=
  (faults.writing place).filter fun (size, _) => size < bytes.length

/-- Those of the bytes that the file at a place takes. -/
def taken (faults : Faults) (place : Place) (bytes : List UInt8) : List UInt8 :=
  match faults.stop? place bytes with
  | some (size, _) => bytes.take size
  | .none => bytes

end Faults

namespace FileSystem

/-- What lies at a place. -/
def node? (fs : FileSystem) (place : Place) : Option Node :=
  if place = [] then some .directory else fs.nodes.lookup place

/-- The nodes with `node` at the place. -/
def putNode (place : Place) (node : Node) : List (Place × Node) → List (Place × Node)
  | [] => [(place, node)]
  | (p, n) :: nodes =>
    if p = place then (place, node) :: nodes else (p, n) :: putNode place node nodes

/-- The file system with `node` at the place. -/
def put (fs : FileSystem) (place : Place) (node : Node) : FileSystem :=
  { fs with nodes := putNode place node fs.nodes }

/-! ### Following paths -/

/-- The number of links that may be followed on the way. -/
def maxLinks : Nat := 40

/-- The number of bytes that a name may have. -/
def maxNameSize : Nat := 255

/-- The number of bytes that a path may have. -/
def maxPathSize : Nat := 4095

/-- What a path is followed for. -/
inductive Purpose
  /-- To see what lies at its end, which may be a link. -/
  | look
  /-- To read what its end leads to. -/
  | read
  /-- To write the file that its end leads to; a name with a slash behind it is none of a file. -/
  | write
  deriving DecidableEq, Repr

/-- Where the names lead from the directory `place`, and what lies there; it may be missing if it is
the last name that finds nothing. -/
def walk (fs : FileSystem) (purpose : Purpose) (links : Nat) (place : Place) :
    List String → Except FileError (Place × Option Node)
  | [] => .ok (place, fs.node? place)
  | name :: names =>
    if staysPut name then walk fs purpose links place names
    else if name = ".." then walk fs purpose links place.dropLast names
    else if purpose = .write ∧ names = [""] then .error .isDirectory
    else if maxNameSize < name.utf8ByteSize then .error .nameTooLong
    else match fs.node? (place ++ [name]) with
      | none => if names = [] then .ok (place ++ [name], none) else .error .notFound
      | some .directory => walk fs purpose links (place ++ [name]) names
      | some (.file bytes) =>
        if names = [] then .ok (place ++ [name], some (.file bytes)) else .error .notDirectory
      | some (.link target) =>
        if names = [] ∧ purpose = .look then .ok (place ++ [name], some (.link target))
        else if target = "" then .error .notFound
        else match links with
          | 0 => .error .tooManyLinks
          | links + 1 =>
            walk fs purpose links (if isAbsolute target then [] else place)
              (pathNames target ++ names)
termination_by names => (links, names.length)

/-- Where a path leads, and what lies there. -/
def locate (fs : FileSystem) (purpose : Purpose) (path : String) :
    Except FileError (Place × Option Node) :=
  if '\x00' ∈ path.toList then .error .zeroCharacter
  else if path = "" then .error .notFound
  else if maxPathSize < path.utf8ByteSize then .error .nameTooLong
  else walk fs purpose maxLinks (if isAbsolute path then [] else fs.workingDirectory)
    (pathNames path)

/-- Whether the path leads to something. -/
def leads (fs : FileSystem) (path : String) : Bool :=
  match fs.locate .read path with
  | .ok (_, some _) => true
  | _ => false

/-! ### Reading and writing -/

/-- The bytes of the file that the path leads to. -/
def read (fs : FileSystem) (path : String) : Except FileError (List UInt8) :=
  match fs.locate .read path with
  | .error e => .error e
  | .ok (_, some (.file bytes)) => .ok bytes
  | .ok (_, some .directory) => .error .isDirectory
  | .ok (_, _) => .error .notFound

/-- The place of the file that the path leads to, which is opened for writing. -/
def openFile (fs : FileSystem) (path : String) (faults : Faults := .none) :
    Except FileError Place :=
  match fs.locate .write path with
  | .error e => .error e
  | .ok (_, some .directory) => .error .isDirectory
  | .ok (place, _) => match faults.opening place with
    | some e => .error e
    | none => .ok place

/-- The file system with the bytes in the file that the path leads to, which is made if it is
missing. A file that is opened loses what it held; if it does not take all bytes, the error comes
with the file system that is left. -/
def write (fs : FileSystem) (path : String) (bytes : List UInt8) (faults : Faults := .none) :
    Except (FileError × FileSystem) FileSystem :=
  match fs.openFile path faults with
  | .error e => .error (e, fs)
  | .ok place =>
    let fs := fs.put place (.file (faults.taken place bytes))
    match faults.stop? place bytes with
    | some (_, e) => .error (e, fs)
    | none => .ok fs

/-! ### Directories -/

/-- The file system with a directory where the path leads, unless something is there. -/
def addDirectory (fs : FileSystem) (path : String) : FileSystem :=
  match fs.locate .read path with
  | .ok (place, none) => fs.put place .directory
  | _ => fs

/-- The file system with all directories on the path. -/
def addDirectories (fs : FileSystem) (path : String) : FileSystem :=
  (pathNames path).foldl
    (fun (fs, dir) name => (fs.addDirectory (join dir name), join dir name))
    (fs, if isAbsolute path then "/" else "") |>.1

/-- The file system with a link where the path leads, if it leads anywhere. -/
def addLink (fs : FileSystem) (path target : String) : FileSystem :=
  match fs.locate .look path with
  | .ok (place, _) => fs.put place (.link target)
  | .error _ => fs

/-- What lies below a place: the names on from it. -/
def below (fs : FileSystem) (place : Place) : List (List String × Node) :=
  fs.nodes.filterMap fun (p, n) =>
    if place.isPrefixOf p ∧ p ≠ place then some (p.drop place.length, n) else none

/-- The paths of all files and links in the directory that the path leads to, directories inside it
included; a path that leads to a file is itself such a path, and so is one that is a link. Links
inside the directory are not followed. -/
def filesIn (fs : FileSystem) (path : String) : List String :=
  let inside := match fs.locate .read path with
    | .ok (place, some .directory) => (fs.below place).filterMap fun (names, n) =>
        if n = .directory then none else some (join path ("/".intercalate names))
    | _ => []
  match fs.locate .look path with
  | .ok (_, some (.file _)) | .ok (_, some (.link _)) => path :: inside
  | _ => inside

/-! ### Walking directories -/

/-- A directory that cannot be listed, and why. -/
structure WalkError where
  path : String
  e : FileError
  deriving DecidableEq, Repr

/-- The wording of the error. -/
def WalkError.message (e : WalkError) : String :=
  "walk error: IO error for operation on " ++ e.path ++ ": " ++ e.e.text

/-- Why the directory that the path leads to cannot be listed, if it cannot. -/
def unlisted? (fs : FileSystem) (path : String) (faults : Faults := .none) : Option FileError :=
  match fs.locate .read path with
  | .error e => some e
  | .ok (place, _) => faults.listing place

/-- The directories inside the one that the path leads to, and the path itself, if it leads to a
directory. -/
def directoriesIn (fs : FileSystem) (path : String) : List String :=
  match fs.locate .read path with
  | .ok (place, some .directory) => path :: (fs.below place).filterMap fun (names, n) =>
      if n = .directory then some (join path ("/".intercalate names)) else none
  | _ => []

/-- The directories at and below the path that cannot be listed. -/
def barred (fs : FileSystem) (path : String) (faults : Faults := .none) : List WalkError :=
  (fs.directoriesIn path).filterMap fun dir => (fs.unlisted? dir faults).map (⟨dir, ·⟩)

/-- Whether the path is one of something below the directory. -/
def isBelow (path dir : String) : Bool := path ≠ dir && (join dir "").toList.isPrefixOf path.toList

/-- What a walk of the path comes upon, besides the directories that it lists: files and links, and
directories that cannot be listed. It comes upon nothing below these. -/
def visits (fs : FileSystem) (path : String) (faults : Faults := .none) :
    List (Except WalkError String) :=
  let barred := fs.barred path faults
  let met := fun path => !barred.any (isBelow path ·.path)
  ((fs.filesIn path).filter met).map .ok ++ (barred.filter (met ·.path)).map .error

end FileSystem

end GeoRules.File
