import GeoRules.Wire.Input

/-!
# Messages as fields

A schema says which fields the messages of a format have, each under a number. Encoded, a message is
its fields one after the other, every field a key and a payload; decoded by a schema, it is the list
of the fields that the schema knows, in the order of the bytes.
-/

namespace GeoRules.Wire

/-- What a field holds; `ι` names the messages of a schema. -/
inductive FieldType (ι : Type)
  | number
  | bytes
  | text
  | message (m : ι)
  deriving DecidableEq, Repr

/-- The wire type of what a field holds. -/
def FieldType.wireType {ι : Type} : FieldType ι → WireType
  | number => .varint
  | bytes | text | message _ => .delimited

/-- A field of a message: the name in errors and what it holds. -/
structure FieldSpec (ι : Type) where
  label : String
  type : FieldType ι
  deriving DecidableEq, Repr

/-- The names of messages and their fields by number. -/
structure Schema (ι : Type) where
  name : ι → String
  field? : ι → Nat → Option (FieldSpec ι)

/-- What a field held. -/
inductive Value
  | number (n : Nat)
  | bytes (bytes : List UInt8)
  | text (s : String)
  | message (fields : List (Nat × Value))

/-- The key of a field. -/
structure Key where
  number : Nat
  type : WireType
  deriving DecidableEq, Repr

end GeoRules.Wire
