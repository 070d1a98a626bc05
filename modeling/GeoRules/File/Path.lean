/-!
# Paths

A path is a text of names parted by slashes. The name `.` leads nowhere else, and so does the empty
name that a slash at the end leaves; both ask for a directory. The name `..` leads to the parent.
-/

namespace GeoRules.File

/-- Whether the path starts at the root. -/
def isAbsolute (path : String) : Bool := path.toList.head? = some '/'

/-- The names in a path. A slash at the end leaves an empty one. -/
def pathNames (path : String) : List String :=
  let names := ((path.toList.splitOn '/').filter (· ≠ [])).map String.ofList
  if path.toList.getLast? = some '/' then names ++ [""] else names

/-- Whether the name leads to the directory in which it is looked up. -/
def staysPut (name : String) : Bool := name = "" || name = "."

/-- The last name in a path, which is empty if the path leads to a parent or to nothing below where
it starts. -/
def fileName (path : String) : String :=
  match ((pathNames path).filter (!staysPut ·)).getLast? with
  | some name => if name = ".." then "" else name
  | none => ""

/-- The path of `name` in the directory `dir`. -/
def join (dir name : String) : String :=
  if dir = "" ∨ dir.toList.getLast? = some '/' then dir ++ name else dir ++ "/" ++ name

end GeoRules.File
