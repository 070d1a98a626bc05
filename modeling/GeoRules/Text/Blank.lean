import GeoRules.Text.CharRange

/-!
# Blanks: white space and trimming

White space is Unicode's property *White_Space*. Trimming drops it at both ends of a text.
-/

namespace GeoRules.Text

/-- The property *White_Space*. -/
def blankRanges : List (Nat × Nat) := [
  (0x9, 0xD), (0x20, 0x20), (0x85, 0x85), (0xA0, 0xA0), (0x1680, 0x1680), (0x2000, 0x200A),
  (0x2028, 0x2029), (0x202F, 0x202F), (0x205F, 0x205F), (0x3000, 0x3000)]

/-- Whether `c` is white space. -/
def isBlank (c : Char) : Bool := inRanges blankRanges c

/-- `s` without the white space before its first other character. -/
def trimStart (s : List Char) : List Char := s.dropWhile isBlank

/-- `s` without the white space after its last other character. -/
def trimEnd (s : List Char) : List Char := (s.reverse.dropWhile isBlank).reverse

/-- `s` without the white space at its ends. -/
def trim (s : List Char) : List Char := trimEnd (trimStart s)

end GeoRules.Text
