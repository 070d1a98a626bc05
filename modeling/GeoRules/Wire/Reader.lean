import GeoRules.Text.Utf8
import GeoRules.Wire.Schema

/-!
# Decoding messages

The fields of a message are read until its end. A field inside it is read from all that is left of
the input: only after the field it is noticed that it went on behind the end. Unknown fields are
skipped, whole groups with all that they hold. Messages and groups nest to a limited depth.
-/

namespace GeoRules.Wire

/-! ### Keys -/

/-- The key that a number stands for: the lowest three bits are the wire type. -/
def Key.ofNat (n : Nat) : Except Fault Key :=
  if UInt32.size ≤ n then .error (.badKey n)
  else match WireType.ofCode? (n % 8) with
    | none => .error (.badWireType (n % 8))
    | some type => if n / 8 = 0 then .error .badFieldNumber else .ok ⟨n / 8, type⟩

/-- The key that the input starts with. -/
def Input.key (c : Input) : Except Fault (Read Key c.size) :=
  match c.number with
  | .error e => .error e
  | .ok n => match Key.ofNat n.value with
    | .error e => .error e
    | .ok key => .ok (n.map fun _ => key)

/-! ### Unknown fields -/

/-- Skips the payload of a field that is neither the start nor the end of a group. -/
def skipPayload (type : WireType) (c : Input) : Except Fault (Read Unit (c.size + 1)) :=
  match type with
  | .varint => c.number.map fun r => (r.map fun _ => ()).weaken (Nat.le_succ _)
  | .fixed64 => (c.take 8).map (·.map fun _ => ())
  | .fixed32 => (c.take 4).map (·.map fun _ => ())
  | .delimited => c.delimited.map fun r => (r.map fun _ => ()).weaken (Nat.le_succ _)
  | .groupStart | .groupEnd => .error .strayGroupEnd

/-- Skips fields up to the end of the group `number`, which lies inside the groups `outer`. A field
inside a group needs `room` for one more level than there are groups open. -/
def skipGroup (room number : Nat) (outer : List Nat) (c : Input) :
    Except Fault (Read Unit (c.size + 1)) :=
  match c.key with
  | .error e => .error e
  | .ok key => match key.value.type with
    | .groupEnd =>
      if key.value.number ≠ number then .error .strayGroupEnd
      else match outer with
        | [] => .ok ((key.map fun _ => ()).weaken (Nat.le_succ _))
        | enclosing :: outer => match skipGroup room enclosing outer key.rest with
          | .error e => .error e
          | .ok r => .ok (r.weaken (Nat.le_succ_of_le key.lt))
    | .groupStart =>
      if room ≤ outer.length + 1 then .error .recursionLimit
      else match skipGroup room key.value.number (number :: outer) key.rest with
        | .error e => .error e
        | .ok r => .ok (r.weaken (Nat.le_succ_of_le key.lt))
    | type =>
      if room ≤ outer.length + 1 then .error .recursionLimit
      else match skipPayload type key.rest with
        | .error e => .error e
        | .ok field => match skipGroup room number outer field.rest with
          | .error e => .error e
          | .ok r => .ok (r.weaken (by have := key.lt; have := field.lt; omega))
termination_by c.size
decreasing_by
  · exact key.lt
  · exact key.lt
  · have := key.lt; have := field.lt; omega

/-- Skips the field behind its key. -/
def skipField (room : Nat) (key : Key) (c : Input) : Except Fault (Read Unit (c.size + 1)) :=
  if room = 0 then .error .recursionLimit
  else match key.type with
    | .groupStart => skipGroup room key.number [] c
    | type => skipPayload type c

/-! ### Known fields -/

/-- Checks the wire type of a known field. -/
def expect (got want : WireType) : Except Fault Unit :=
  if got = want then .ok () else .error (.wrongWireType got want)

/-- What a field that is no message holds. -/
def readScalar {ι : Type} (type : FieldType ι) (c : Input) :
    Except Fault (Read Value (c.size + 1)) :=
  match type with
  | .number => c.number.map fun r => (r.map Value.number).weaken (Nat.le_succ _)
  | .text => match c.delimited with
    | .error e => .error e
    | .ok r => match Text.ofUtf8? r.value with
      | none => .error .notUtf8
      | some s => .ok ((r.map fun _ => Value.text s).weaken (Nat.le_succ _))
  | .bytes | .message _ =>
    c.delimited.map fun r => (r.map Value.bytes).weaken (Nat.le_succ _)

/-- The length of a message inside another one, as the number of bytes behind its end. -/
def readLimit (room : Nat) (c : Input) : Except Fault (Read Nat c.size) :=
  if room = 0 then .error .recursionLimit
  else match c.number with
    | .error e => .error e
    | .ok length =>
      if length.value ≤ length.rest.size then .ok (length.map (length.rest.size - ·))
      else .error .underflow

/-- The fields of the message `m` until only `limit` bytes are left. -/
def readFields {ι : Type} (schema : Schema ι) (m : ι) (room limit : Nat) (c : Input) :
    Except DecodeError (Read (List (Nat × Value)) (c.size + 1)) :=
  if c.size ≤ limit then
    if c.size = limit then .ok ⟨[], c, Nat.lt_succ_self _⟩ else .error (.bare .lengthExceeded)
  else match c.key with
    | .error e => .error (.bare e)
    | .ok key => match schema.field? m key.value.number with
      | none => match skipField room key.value key.rest with
        | .error e => .error (.bare e)
        | .ok skipped => match readFields schema m room limit skipped.rest with
          | .error e => .error e
          | .ok r => .ok (r.weaken (by have := key.lt; have := skipped.lt; omega))
      | some field => match expect key.value.type field.type.wireType with
        | .error e => .error ((DecodeError.bare e).within (schema.name m) field.label)
        | .ok () => match field.type with
          | .message inner => match readLimit room key.rest with
            | .error e => .error ((DecodeError.bare e).within (schema.name m) field.label)
            | .ok bound => match readFields schema inner (room - 1) bound.value bound.rest with
              | .error e => .error (e.within (schema.name m) field.label)
              | .ok fields => match readFields schema m room limit fields.rest with
                | .error e => .error e
                | .ok r => .ok ((r.map ((key.value.number, .message fields.value) :: ·)).weaken
                    (by have := key.lt; have := bound.lt; have := fields.lt; omega))
          | type => match readScalar type key.rest with
            | .error e => .error ((DecodeError.bare e).within (schema.name m) field.label)
            | .ok value => match readFields schema m room limit value.rest with
              | .error e => .error e
              | .ok r => .ok ((r.map ((key.value.number, value.value) :: ·)).weaken
                  (by have := key.lt; have := value.lt; omega))
termination_by c.size
decreasing_by
  · have := key.lt; have := skipped.lt; omega
  · have := key.lt; have := bound.lt; omega
  · have := key.lt; have := bound.lt; have := fields.lt; omega
  · have := key.lt; have := value.lt; omega

/-- The depth to which messages and groups may nest. -/
def maxDepth : Nat := 100

/-- The fields of the message `m` that the bytes encode. -/
def decode {ι : Type} (schema : Schema ι) (m : ι) (bytes : List UInt8) :
    Except DecodeError (List (Nat × Value)) :=
  (readFields schema m maxDepth 0 (.ofBytes bytes)).map Read.value

end GeoRules.Wire
