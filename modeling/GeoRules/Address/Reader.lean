import GeoRules.Address.Group

/-!
# Reading addresses

An address of four bytes is four decimal numbers parted by dots, without leading zeros. One of
sixteen bytes is eight groups of at most four hexadecimal digits parted by colons; a double colon
stands for one or more zero groups, and the last two groups may be written as four decimal numbers.
A reader returns what it read and the rest of the text.
-/

namespace GeoRules.Address

/-! ### Numbers -/

/-- The value of a hexadecimal digit in either case. -/
def hexDigit? (c : Char) : Option Nat :=
  if '0' ≤ c ∧ c ≤ '9' then some (c.toNat - '0'.toNat)
  else if 'a' ≤ c ∧ c ≤ 'f' then some (c.toNat - 'a'.toNat + 10)
  else if 'A' ≤ c ∧ c ≤ 'F' then some (c.toNat - 'A'.toNat + 10)
  else none

/-- Whether `c` is a digit in the base. -/
def isDigitIn (base : Nat) (c : Char) : Bool := (hexDigit? c).any (· < base)

/-- The number that the digits denote. -/
def valueIn (base : Nat) (digits : List Char) : Nat :=
  digits.foldl (fun n c => base * n + (hexDigit? c).getD 0) 0

/-- The digits that `s` starts with: at least one and at most `most`. -/
def digits? (base most : Nat) (s : List Char) : Option (List Char × List Char) :=
  let digits := s.takeWhile (isDigitIn base)
  if digits = [] ∨ most < digits.length then none
  else some (digits, s.dropWhile (isDigitIn base))

/-- A decimal number below 256 without leading zeros. -/
def octet? (s : List Char) : Option (UInt8 × List Char) :=
  match digits? 10 3 s with
  | none => none
  | some (digits, rest) =>
    if digits.head? = some '0' ∧ digits ≠ ['0'] then none
    else if 256 ≤ valueIn 10 digits then none
    else some (UInt8.ofNat (valueIn 10 digits), rest)

/-- A group of hexadecimal digits. -/
def group? (s : List Char) : Option (Nat × List Char) :=
  (digits? 16 4 s).map fun (digits, rest) => (valueIn 16 digits, rest)

/-! ### Four bytes -/

/-- One octet and `more` others, each behind a dot. -/
def octets? : (more : Nat) → List Char → Option (List UInt8 × List Char)
  | 0, s => (octet? s).map fun (b, rest) => ([b], rest)
  | more + 1, s => match octet? s with
    | some (b, '.' :: rest) => (octets? more rest).map fun (bs, rest) => (b :: bs, rest)
    | _ => none

/-- Four octets parted by dots. -/
def dotted? (s : List Char) : Option (List UInt8 × List Char) := octets? 3 s

/-! ### Sixteen bytes -/

/-- Groups read from a text: whether the last two were written with dots, and the rest. -/
structure GroupRun where
  groups : List Nat
  dotted : Bool
  rest : List Char

/-- As many groups as `s` starts with and as there is room for; every one stands behind a colon, but
the very first one when `first`. A dotted address needs the room of two groups and ends the run. -/
def groupRun : (room : Nat) → (first : Bool) → (s : List Char) → GroupRun
  | 0, _, s => ⟨[], false, s⟩
  | room + 1, first, s =>
    match (if first then some s else if s.head? = some ':' then some s.tail else none) with
    | none => ⟨[], false, s⟩
    | some t =>
      match (if room = 0 then none else dotted? t) with
      | some (bytes, rest) => ⟨groupsOfBytes bytes, true, rest⟩
      | none => match group? t with
        | none => ⟨[], false, s⟩
        | some (g, rest) =>
          let run := groupRun room false rest
          ⟨g :: run.groups, run.dotted, run.rest⟩

/-- Eight groups, some of them perhaps left out as a double colon. -/
def eightGroups? (s : List Char) : Option (List Nat × List Char) :=
  let head := groupRun 8 true s
  if head.groups.length = 8 then some (head.groups, head.rest)
  else if head.dotted then none
  else match head.rest with
    | ':' :: ':' :: rest =>
      let tail := groupRun (7 - head.groups.length) true rest
      let zeros := List.replicate (8 - head.groups.length - tail.groups.length) 0
      some (head.groups ++ zeros ++ tail.groups, tail.rest)
    | _ => none

/-- The bytes of a text that is an address as a whole. -/
def ofText? (s : List Char) : Option (List UInt8) :=
  match dotted? s with
  | some (bytes, rest) => if rest = [] then some bytes else none
  | none => match eightGroups? s with
    | some (groups, []) => some (bytesOfGroups groups)
    | _ => none

end GeoRules.Address
