import GeoRules.Text.CaseTable
import GeoRules.Text.CharRange

/-!
# Case: lower and upper case of any text

Every character has a lower and an upper case of its own, which may be several characters. One rule
looks at the neighbours: a capital sigma becomes a final sigma where it ends a word, that is where
a cased letter stands before it and none after it, the marks between them not counted.
-/

namespace GeoRules.Text

/-! ### One character -/

/-- Where the run sends the code point `n`, if it holds it. -/
def CaseRun.image? (r : CaseRun) (n : Nat) : Option Nat :=
  if r.first ≤ n ∧ n ≤ r.last ∧ (n - r.first) % r.step = 0 then some (r.image + (n - r.first))
  else none

/-- The other case of `c`: its expansion, else its letter in the runs, else `c` itself. -/
def caseImage (runs : List CaseRun) (expansions : List (Nat × List Nat)) (c : Char) : List Char :=
  match expansions.lookup c.toNat with
  | some image => image.map Char.ofNat
  | none => match runs.findSome? (·.image? c.toNat) with
    | some n => [Char.ofNat n]
    | none => [c]

/-- The lower case of `c` on its own. -/
def lowerChar (c : Char) : List Char := caseImage lowerRuns lowerExpansions c

/-- The upper case of `c`. -/
def upperChar (c : Char) : List Char := caseImage upperRuns upperExpansions c

/-- Whether `c` is a letter that has a case. -/
def isCased (c : Char) : Bool := inRanges casedRanges c

/-- Whether `c` is a mark that does not interrupt a word. -/
def isCaseIgnorable (c : Char) : Bool := inRanges caseIgnorableRanges c

/-! ### Texts -/

/-- Whether `s` starts with a cased letter, marks before it not counted. -/
def startsCased (s : List Char) : Bool :=
  match s.dropWhile isCaseIgnorable with
  | c :: _ => isCased c
  | [] => false

/-- The lower case of a sigma between `before`, read from its end, and `after`. -/
def lowerSigma (before after : List Char) : Char :=
  if startsCased before && !startsCased after then 'ς' else 'σ'

/-- The lower case of a text that follows `before`, read from its end. -/
def lowerAfter (before : List Char) : List Char → List Char
  | [] => []
  | c :: after =>
    (if c = 'Σ' then [lowerSigma before after] else lowerChar c) ++ lowerAfter (c :: before) after

/-- The lower case of a text. -/
def lower (s : List Char) : List Char := lowerAfter [] s

/-- The upper case of a text. -/
def upper (s : List Char) : List Char := s.flatMap upperChar

/-- The lower case of a string. -/
def lowercase (s : String) : String := String.ofList (lower s.toList)

/-- The upper case of a string. -/
def uppercase (s : String) : String := String.ofList (upper s.toList)

end GeoRules.Text
