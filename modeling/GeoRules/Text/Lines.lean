/-!
# Texts of lines
-/

namespace GeoRules.Text

/-- The text of the lines, each with a line feed behind it. -/
def ofLines (lines : List String) : String :=
  String.ofList (lines.flatMap fun line => line.toList ++ ['\n'])

end GeoRules.Text
