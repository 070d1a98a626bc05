import GeoRules.Rule.Line
import GeoRules.Text.Utf8

/-!
# Rule lists from files

A file holds one rule to a line. The list takes its name and its family from the file's name, and
the first line that cannot be read decides that the file makes no list.
-/

namespace GeoRules

/-- Why the bytes of a file make no rule list. -/
inductive ListError
  | line (reason : LineError)
  | notUtf8
  deriving DecidableEq, Repr

/-- The wording of the error. -/
def ListError.message : ListError → String
  | line reason => reason.message
  | notUtf8 => "IO error: stream did not contain valid UTF-8"

/-! ### Lines of a file -/

/-- `line` without a carriage return at its end. -/
def dropReturn (line : List UInt8) : List UInt8 :=
  if line.getLast? = some 13 then line.dropLast else line

/-- The lines of a file cut at its line feeds: what follows the last one is a line unless it is
empty, and every other line loses one carriage return at its end. -/
def closeLines : List (List UInt8) → List (List UInt8)
  | [] => []
  | [last] => if last = [] then [] else [last]
  | line :: next :: lines => dropReturn line :: closeLines (next :: lines)

/-- The lines of a file. -/
def fileLines (bytes : List UInt8) : List (List UInt8) := closeLines (bytes.splitOn 10)

namespace RuleList

/-- The rule on a line, if there is one. -/
def readLine (family : Family) (line : List UInt8) : Except ListError (Option Rule) :=
  match Text.ofUtf8? line with
  | none => .error .notUtf8
  | some s => match cleanLine s.toList with
    | none => .ok none
    | some text => match Rule.ofLine family text with
      | .ok rule => .ok (some rule)
      | .error reason => .error (.line reason)

/-- The rules on the lines, in order. -/
def readLines (family : Family) : List (List UInt8) → Except ListError (List Rule)
  | [] => .ok []
  | line :: lines => match readLine family line with
    | .error e => .error e
    | .ok rule? => match readLines family lines with
      | .error e => .error e
      | .ok rules => .ok (rule?.toList ++ rules)

/-- The rule list of a file with the name `base`. -/
def load (base : String) (bytes : List UInt8) : Except ListError RuleList :=
  match readLines (.ofFileName base) (fileLines bytes) with
  | .error e => .error e
  | .ok rules => .ok ⟨Text.uppercase base, .ofFileName base, rules⟩

end RuleList

end GeoRules
