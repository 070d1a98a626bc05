import GeoRules.Address.Printer
import GeoRules.Address.Reader
import GeoRules.Text.Blank

/-!
# Address ranges

An address range is an address and the length of its network mask. The address keeps the bits beyond
the mask. A text without a mask stands for the one address.
-/

namespace GeoRules

/-- An address in network order with the length of its network mask. -/
structure Cidr where
  address : List UInt8
  bits : UInt32
  deriving DecidableEq, Repr

/-- Why a text is no address range. -/
inductive AddressError
  /-- The mask is no number below 2^32. -/
  | badMask (mask : String)
  /-- The mask is longer than the address. -/
  | longMask (bits width : Nat)
  /-- There is no address before the mask. -/
  | unsupported (text : String)
  deriving DecidableEq, Repr

/-- The wording of the error. -/
def AddressError.message : AddressError → String
  | badMask mask => "invalid network mask: " ++ mask
  | longMask bits width =>
    "invalid network mask: " ++ Text.natText bits ++ " > " ++ Text.natText width
  | unsupported text => "unsupported address: " ++ text

namespace Cidr

/-! ### Reading -/

/-- `s` without the brackets around it, if it has both. -/
def unbracket (s : List Char) : List Char :=
  if s.head? = some '[' ∧ s.tail.getLast? = some ']' then s.tail.dropLast else s

/-- The address of the part before the mask. -/
def address? (s : List Char) : Option (List UInt8) :=
  (Address.ofText? (Text.trim (unbracket s))).map Address.collapse

/-- The length that a mask gives, if it is a number below 2^32. -/
def maskBits? (mask : List Char) : Option Nat := (Text.natural? mask).filter (· < UInt32.size)

/-- The address range of `address` or `address/mask`; an empty mask is as long as the address. -/
def ofText (s : List Char) : Except AddressError Cidr :=
  let mask := (s.dropWhile (· ≠ '/')).tail
  match address? (s.takeWhile (· ≠ '/')) with
  | none => .error (.unsupported (String.ofList s))
  | some address =>
    let width := Address.width address
    if mask = [] then .ok ⟨address, UInt32.ofNat width⟩
    else match maskBits? mask with
      | none => .error (.badMask (String.ofList mask))
      | some bits =>
        if width < bits then .error (.longMask bits width) else .ok ⟨address, UInt32.ofNat bits⟩

/-! ### Printing -/

/-- The text `address/mask`, if there is an address and the mask is no longer than it. -/
def netText? (c : Cidr) : Option (List Char) :=
  if c.bits.toNat ≤ Address.width c.address then
    (Address.text? c.address).map (· ++ '/' :: Text.decimal c.bits.toNat)
  else none

/-- The text of the range, whatever it holds. -/
def display (c : Cidr) : List Char :=
  c.netText?.getD ("<invalid ".toList ++ Text.decimal c.address.length ++ " bytes>/".toList ++
    Text.decimal c.bits.toNat)

end Cidr

end GeoRules
