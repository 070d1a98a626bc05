import GeoRules.Wire.Fault
import GeoRules.Wire.Varint

/-!
# Reading from bytes

An input is the bytes still to be read together with their number. A reader returns what it read and
an input that is shorter by a bound in its type, so that a loop over readers ends.
-/

namespace GeoRules.Wire

/-- The bytes still to be read, and how many they are. -/
structure Input where
  bytes : List UInt8
  size : Nat
  size_eq : size = bytes.length

namespace Input

/-- All of the bytes. -/
def ofBytes (bytes : List UInt8) : Input := ⟨bytes, bytes.length, rfl⟩

@[simp] theorem bytes_ofBytes (bytes : List UInt8) : (ofBytes bytes).bytes = bytes := rfl

@[simp] theorem size_ofBytes (bytes : List UInt8) : (ofBytes bytes).size = bytes.length := rfl

@[ext] theorem ext {c d : Input} (h : c.bytes = d.bytes) : c = d := by
  cases c; cases d; simp_all

end Input

/-- A value read from an input, and the rest of it, which has fewer than `bound` bytes. -/
structure Read (α : Type) (bound : Nat) where
  value : α
  rest : Input
  lt : rest.size < bound

namespace Read

/-- Another value with the same rest. -/
def map {α β : Type} {bound : Nat} (f : α → β) (r : Read α bound) : Read β bound :=
  ⟨f r.value, r.rest, r.lt⟩

/-- The same with a larger bound. -/
def weaken {α : Type} {bound bound' : Nat} (r : Read α bound) (h : bound ≤ bound') :
    Read α bound' :=
  ⟨r.value, r.rest, Nat.lt_of_lt_of_le r.lt h⟩

end Read

namespace Input

/-- The first `n` bytes. -/
def take (n : Nat) (c : Input) : Except Fault (Read (List UInt8) (c.size + 1)) :=
  if n ≤ c.size then
    .ok ⟨c.bytes.take n, ⟨c.bytes.drop n, c.size - n, by rw [c.size_eq, List.length_drop]⟩, by
      simp only; omega⟩
  else .error .underflow

/-- The number that the input starts with. -/
def number (c : Input) : Except Fault (Read Nat c.size) :=
  match h : varint? c.bytes with
  | none => .error .badVarint
  | some v => .ok
    ⟨v.value, ⟨c.bytes.drop v.size, c.size - v.size, by rw [c.size_eq, List.length_drop]⟩, by
      have := size_of_varintWithin? h
      have := c.size_eq
      simp only
      omega⟩

/-- As many bytes as the number says that stands before them. -/
def delimited (c : Input) : Except Fault (Read (List UInt8) c.size) :=
  match c.number with
  | .error e => .error e
  | .ok length => match length.rest.take length.value with
    | .error e => .error e
    | .ok r => .ok (r.weaken length.lt)

end Input

end GeoRules.Wire
