/-!
# Variable-length numbers

A number is written seven bits to a byte, the lowest first, and every byte but the last has its
highest bit set. A number of 64 bits takes at most ten bytes, the tenth of which holds one bit.
-/

namespace GeoRules.Wire

/-- The bytes of a number. -/
def varint (n : Nat) : List UInt8 :=
  if n < 128 then [UInt8.ofNat n] else UInt8.ofNat (n % 128 + 128) :: varint (n / 128)
termination_by n
decreasing_by omega

/-- A number read from bytes, and how many of them it takes. -/
structure Varint where
  value : Nat
  size : Nat
  deriving DecidableEq, Repr

/-- The number that the bytes start with, if it ends before more than `more` bytes follow the first
one; the last byte allowed holds one bit. -/
def varintWithin? : (more : Nat) → List UInt8 → Option Varint
  | _, [] => none
  | 0, b :: _ => if b < 2 then some ⟨b.toNat, 1⟩ else none
  | more + 1, b :: bytes =>
    if b < 128 then some ⟨b.toNat, 1⟩
    else (varintWithin? more bytes).map fun v => ⟨b.toNat % 128 + 128 * v.value, v.size + 1⟩

/-- The number of at most ten bytes that the bytes start with. -/
def varint? (bytes : List UInt8) : Option Varint := varintWithin? 9 bytes

theorem size_of_varintWithin? {more : Nat} {bytes : List UInt8} {v : Varint}
    (h : varintWithin? more bytes = some v) : 0 < v.size ∧ v.size ≤ bytes.length := by
  fun_induction varintWithin? more bytes generalizing v with
  | case1 => cases h
  | case2 b bytes hb => cases h; simp
  | case3 b bytes hb => cases h
  | case4 more b bytes hb => cases h; simp
  | case5 more b bytes hb ih =>
    obtain ⟨w, hw, rfl⟩ := Option.map_eq_some_iff.1 h
    have := ih hw
    simp only [List.length_cons]
    omega

end GeoRules.Wire
