/-!
# Integers: decimal texts of 64-bit signed numbers

A text is read from left to right, and the first character that fails decides between the errors:
one that is no digit, or a digit that takes the number out of the range.
-/

namespace GeoRules.Text

/-- Why a text is no 64-bit signed number. -/
inductive IntegerError
  | empty
  | invalidDigit
  | tooLarge
  | tooSmall
  deriving DecidableEq, Repr

/-- The wording of the error. -/
def IntegerError.message : IntegerError → String
  | .empty => "cannot parse integer from empty string"
  | .invalidDigit => "invalid digit found in string"
  | .tooLarge => "number too large to fit in target type"
  | .tooSmall => "number too small to fit in target type"

/-- The digit that `c` stands for. -/
def digit? (c : Char) : Option Nat :=
  if '0' ≤ c ∧ c ≤ '9' then some (c.toNat - '0'.toNat) else none

/-- The number that starts with the digits of `n` and goes on with the text, while it is at most
`limit`; beyond it the error is `beyond`. -/
def digitsAfter (limit : Nat) (beyond : IntegerError) (n : Nat) :
    List Char → Except IntegerError Nat
  | [] => .ok n
  | c :: cs => match digit? c with
    | none => .error .invalidDigit
    | some d =>
      if limit < 10 * n + d then .error beyond else digitsAfter limit beyond (10 * n + d) cs

/-- The signed 64-bit number of a text: an optional sign and at least one digit. -/
def integer : List Char → Except IntegerError Int
  | [] => .error .empty
  | c :: cs =>
    if (c = '+' ∨ c = '-') ∧ cs = [] then .error .invalidDigit
    else if c = '-' then (digitsAfter 0x8000000000000000 .tooSmall 0 cs).map fun n => -(n : Int)
    else if c = '+' then (digitsAfter 0x7fffffffffffffff .tooLarge 0 cs).map fun n => (n : Int)
    else (digitsAfter 0x7fffffffffffffff .tooLarge 0 (c :: cs)).map fun n => (n : Int)

/-- The number that a text of digits denotes, if it holds digits only. -/
def natural? (s : List Char) : Option Nat :=
  s.foldlM (fun n c => (digit? c).map (10 * n + ·)) 0

/-- The decimal digits of a number. -/
def decimal (n : Nat) : List Char := Nat.toDigits 10 n

/-- The decimal digits of a number, as a string. -/
def natText (n : Nat) : String := String.ofList (decimal n)

/-- The decimal text of an integer. -/
def decimalInt : Int → List Char
  | .ofNat n => decimal n
  | .negSucc n => '-' :: decimal (n + 1)

end GeoRules.Text
