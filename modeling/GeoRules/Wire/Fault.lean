import GeoRules.Text.Integer

/-!
# What can be wrong with an encoded message

A decoding error is a fault and the fields inside which it was met, the innermost first.
-/

namespace GeoRules.Wire

/-- How the payload of a field is laid out. -/
inductive WireType
  | varint
  | fixed64
  | delimited
  | groupStart
  | groupEnd
  | fixed32
  deriving DecidableEq, Repr

namespace WireType

/-- The name of a wire type. -/
def word : WireType → String
  | varint => "Varint"
  | fixed64 => "SixtyFourBit"
  | delimited => "LengthDelimited"
  | groupStart => "StartGroup"
  | groupEnd => "EndGroup"
  | fixed32 => "ThirtyTwoBit"

/-- The number of a wire type in a key. -/
def code : WireType → Nat
  | varint => 0
  | fixed64 => 1
  | delimited => 2
  | groupStart => 3
  | groupEnd => 4
  | fixed32 => 5

/-- The wire type of a number. -/
def ofCode? : Nat → Option WireType
  | 0 => some varint
  | 1 => some fixed64
  | 2 => some delimited
  | 3 => some groupStart
  | 4 => some groupEnd
  | 5 => some fixed32
  | _ => none

theorem ofCode?_code (t : WireType) : ofCode? t.code = some t := by cases t <;> rfl

theorem code_lt (t : WireType) : t.code < 8 := by cases t <;> decide

end WireType

/-- What is wrong with the bytes of a message. -/
inductive Fault
  /-- A number of more than ten bytes, or of more than 64 bits, or cut short. -/
  | badVarint
  /-- A key of more than 32 bits. -/
  | badKey (key : Nat)
  /-- A key with a wire type that does not exist. -/
  | badWireType (code : Nat)
  /-- A key with the field number zero. -/
  | badFieldNumber
  /-- A known field in another wire type than its own. -/
  | wrongWireType (got want : WireType)
  /-- A length beyond the end of the input. -/
  | underflow
  /-- A message whose fields go on behind its end. -/
  | lengthExceeded
  /-- A text that is not UTF-8. -/
  | notUtf8
  /-- Messages or groups nested too deep. -/
  | recursionLimit
  /-- The end of a group that was not started. -/
  | strayGroupEnd
  deriving DecidableEq, Repr

/-- The wording of a fault. -/
def Fault.text : Fault → String
  | badVarint => "invalid varint"
  | badKey key => "invalid key value: " ++ Text.natText key
  | badWireType code => "invalid wire type value: " ++ Text.natText code
  | badFieldNumber => "invalid tag value: 0"
  | wrongWireType got want =>
    "invalid wire type: " ++ got.word ++ " (expected " ++ want.word ++ ")"
  | underflow => "buffer underflow"
  | lengthExceeded => "delimited length exceeded"
  | notUtf8 => "invalid string value: data is not UTF-8 encoded"
  | recursionLimit => "recursion limit reached"
  | strayGroupEnd => "unexpected end group tag"

/-- A fault inside the fields `path`, given as message and field names, the innermost first. -/
structure DecodeError where
  path : List (String × String)
  fault : Fault
  deriving DecidableEq, Repr

namespace DecodeError

/-- A fault outside all fields. -/
def bare (fault : Fault) : DecodeError := ⟨[], fault⟩

/-- The error seen from outside the field. -/
def within (message field : String) (e : DecodeError) : DecodeError :=
  ⟨e.path ++ [(message, field)], e.fault⟩

/-- The wording of the error. -/
def message (e : DecodeError) : String :=
  "decode error: failed to decode Protobuf message: " ++
    String.join (e.path.map fun (message, field) => message ++ "." ++ field ++ ": ") ++
    e.fault.text

end DecodeError

end GeoRules.Wire
