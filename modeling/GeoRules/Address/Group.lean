/-!
# Address bytes and groups

An address is a list of bytes in network order: four of them, or sixteen. The sixteen are written
as eight groups of two bytes each, the higher one first.
-/

namespace GeoRules.Address

/-- The groups of the bytes, two to a group. -/
def groupsOfBytes : List UInt8 → List Nat
  | high :: low :: bytes => (256 * high.toNat + low.toNat) :: groupsOfBytes bytes
  | _ => []

/-- The bytes of the groups. -/
def bytesOfGroups (groups : List Nat) : List UInt8 :=
  groups.flatMap fun g => [UInt8.ofNat (g / 256), UInt8.ofNat (g % 256)]

/-- The four bytes that sixteen bytes `::ffff:a.b.c.d` stand for. -/
def mapped? : List UInt8 → Option (List UInt8)
  | [0, 0, 0, 0, 0, 0, 0, 0, 0, 0, 0xFF, 0xFF, a, b, c, d] => some [a, b, c, d]
  | _ => none

/-- The address in its shortest form: mapped ones as four bytes. -/
def collapse (bytes : List UInt8) : List UInt8 := (mapped? bytes).getD bytes

/-- The number of bits of an address. -/
def width (bytes : List UInt8) : Nat := 8 * bytes.length

end GeoRules.Address
