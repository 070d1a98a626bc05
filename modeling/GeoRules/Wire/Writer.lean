import GeoRules.Wire.Schema

/-!
# Encoding messages

A message is encoded field by field, in the order in which its fields are given.
-/

namespace GeoRules.Wire

/-- What follows the key of a field. -/
inductive Payload
  | number (n : Nat)
  | delimited (bytes : List UInt8)
  deriving DecidableEq, Repr

namespace Payload

/-- The wire type of a payload. -/
def wireType : Payload → WireType
  | number _ => .varint
  | delimited _ => .delimited

/-- The bytes of a payload. -/
def encode : Payload → List UInt8
  | number n => varint n
  | delimited bytes => varint bytes.length ++ bytes

end Payload

/-- The bytes of a key. -/
def Key.encode (key : Key) : List UInt8 := varint (8 * key.number + key.type.code)

/-- The bytes of a field. -/
def encodeField (field : Nat × Payload) : List UInt8 :=
  Key.encode ⟨field.1, field.2.wireType⟩ ++ field.2.encode

/-- The bytes of a message. -/
def encode (fields : List (Nat × Payload)) : List UInt8 := fields.flatMap encodeField

end GeoRules.Wire
