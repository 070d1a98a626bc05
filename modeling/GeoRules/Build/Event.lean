import GeoRules.File.FileSystem
import GeoRules.Geo.OfRules
import GeoRules.RuleList.Load
import GeoRules.Text.Quoted

/-!
# The log of a build

A build says what it read, left out and wrote. Each event has a level and a text; paths are quoted.
-/

namespace GeoRules

/-- Why a file makes no rule list. -/
inductive LoadError
  | file (e : File.FileError)
  | list (e : ListError)
  deriving DecidableEq, Repr

/-- The wording of an error of the file system. -/
def File.FileError.message (e : File.FileError) : String := "IO error: " ++ e.text

/-- The wording of the error. -/
def LoadError.message : LoadError → String
  | file e => e.message
  | list e => e.message

/-- The levels of events. -/
inductive Level
  | debug
  | info
  | warn
  | error
  deriving DecidableEq, Repr

/-- The name of a level. -/
def Level.word : Level → String
  | debug => "DEBUG"
  | info => "INFO"
  | warn => "WARN"
  | error => "ERROR"

/-- What a build reports. -/
inductive Event
  | loaded (name : String) (rules : Nat) (path : String)
  | replaced (name path : String)
  | skipped (path : String) (e : LoadError)
  | allLoaded (lists : Nat) (path : String) (left : Nat)
  | dropped (list value : String) (e : AddressError)
  | wrote (path : String) (bytes : Nat)
  | notWritten (path : String) (e : File.FileError)
  deriving DecidableEq, Repr

namespace Event

/-- The level of an event. -/
def level : Event → Level
  | loaded .. | dropped .. => .debug
  | allLoaded .. | wrote .. => .info
  | replaced .. | skipped .. => .warn
  | notWritten .. => .error

/-- The text of an event. -/
def text : Event → String
  | loaded name rules path =>
    "Loaded " ++ name ++ " (" ++ Text.natText rules ++ " entries) from " ++ Text.quoted path
  | replaced name path => name ++ " loaded twice, keeping " ++ Text.quoted path
  | skipped path e => "Skipping " ++ Text.quoted path ++ ": " ++ e.message
  | allLoaded lists path left =>
    "Loaded " ++ Text.natText lists ++ " lists from " ++ Text.quoted path ++ " (" ++
      Text.natText left ++ " skipped)"
  | dropped list value e => list ++ ": dropping " ++ value ++ ": " ++ e.message
  | wrote path bytes => "Wrote " ++ Text.quoted path ++ " (" ++ Text.natText bytes ++ " bytes)"
  | notWritten path e => "Failed: writing " ++ Text.quoted path ++ ": " ++ e.text

/-- The line of an event. -/
def render (e : Event) : String := e.level.word ++ " " ++ e.text

end Event

/-- The events of the rules that an address list drops. -/
def ResolvedList.dropEvents (l : ResolvedList) : List Event :=
  l.dropped.map fun (r, e) => .dropped l.name r.value e

end GeoRules
