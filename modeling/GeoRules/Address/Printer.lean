import GeoRules.Address.Group
import GeoRules.Text.Integer

/-!
# Printing addresses

Sixteen bytes are printed as eight groups in lower-case hexadecimal digits without leading zeros.
The longest run of two or more zero groups, the first one of several, becomes a double colon; an
address that stands for four bytes ends in these with dots.
-/

namespace GeoRules.Address

/-- Four bytes with dots. -/
def dottedText (bytes : List UInt8) : List Char :=
  List.intercalate ['.'] (bytes.map fun b => Text.decimal b.toNat)

/-- Groups with colons. -/
def colonText (groups : List Nat) : List Char :=
  List.intercalate [':'] (groups.map (Nat.toDigits 16))

/-- The number of zeros that follow each other from the place `i` on. -/
def zerosFrom (groups : List Nat) (i : Nat) : Nat := ((groups.drop i).takeWhile (· = 0)).length

/-- The place of the longest run of zeros, the first one of several. -/
def longestZeros (groups : List Nat) : Nat :=
  (List.range groups.length).foldl
    (fun best i => if zerosFrom groups best < zerosFrom groups i then i else best) 0

/-- Groups with a double colon for their longest run of zeros, if it has two of them. -/
def compressedText (groups : List Nat) : List Char :=
  let start := longestZeros groups
  let zeros := zerosFrom groups start
  if zeros ≤ 1 then colonText groups
  else colonText (groups.take start) ++ [':', ':'] ++ colonText (groups.drop (start + zeros))

/-- The text of four or sixteen bytes. -/
def text? (bytes : List UInt8) : Option (List Char) :=
  if bytes.length = 4 then some (dottedText bytes)
  else if bytes.length = 16 then match mapped? bytes with
    | some four => some ("::ffff:".toList ++ dottedText four)
    | none => some (compressedText (groupsOfBytes bytes))
  else none

end GeoRules.Address
