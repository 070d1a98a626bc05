import GeoRules.Rule.Basic
import GeoRules.Text.Lines

/-!
# The category index

The names of the lists, lower-cased and by family, each in the order in which the lists were
recorded. Its text has a heading for each family and below it the names, indented.
-/

namespace GeoRules

/-- The lower-cased names of the lists of each family. -/
structure CategoryIndex where
  site : List String := []
  ip : List String := []
  deriving DecidableEq, Repr

namespace CategoryIndex

/-- The index with one more list. -/
def record (index : CategoryIndex) (l : RuleList) : CategoryIndex :=
  match l.family with
  | .site => { index with site := index.site ++ [Text.lowercase l.name] }
  | .ip => { index with ip := index.ip ++ [Text.lowercase l.name] }

instance : Append CategoryIndex := ⟨fun a b => ⟨a.site ++ b.site, a.ip ++ b.ip⟩⟩

/-- The heading of a family. -/
def heading : Family → String
  | .site => "v2site:"
  | .ip => "v2ip:"

/-- The line of a name. -/
def nameLine (name : String) : String := "    " ++ name

/-- The lines of the index. -/
def lines (index : CategoryIndex) : List String :=
  heading .site :: index.site.map nameLine ++ heading .ip :: index.ip.map nameLine

/-- The text of the index. -/
def render (index : CategoryIndex) : String := Text.ofLines index.lines

end CategoryIndex

end GeoRules
