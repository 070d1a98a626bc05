import GeoRules.Rule.Basic
import GeoRules.Text.Blank
import GeoRules.Text.Integer

/-!
# Lines of a rule list

A line of a site list is `pattern` or `label:pattern`, then attributes `@key` or `@key=number`, all
parted by single spaces. A line of an address list is an address or `label:name`, which includes the
list `name`. Values and keys are lower-cased. A number sign starts a comment.
-/

namespace GeoRules

/-- Why a line is no rule. -/
inductive LineError
  /-- More than one colon in a pattern or an address. -/
  | badFormat (text : String)
  /-- An attribute without its leading `@`. -/
  | badAttribute (token : String)
  /-- An attribute whose value is no number. -/
  | badNumber (token : String) (reason : Text.IntegerError)
  deriving DecidableEq, Repr

/-- The wording of the error. -/
def LineError.message : LineError → String
  | badFormat text => "Invalid format: " ++ text
  | badAttribute token => "invalid attribute: " ++ token
  | badNumber token reason => "invalid attribute: " ++ token ++ ": " ++ reason.message

open Text

/-- A line without its comment and the white space around the rest, unless nothing is left. -/
def cleanLine (line : List Char) : Option (List Char) :=
  match trim (line.takeWhile (· ≠ '#')) with
  | [] => none
  | c :: cs => some (c :: cs)

/-- The words of a line: a single space ends a word, so two in a row make an empty one. -/
def words (line : List Char) : List (List Char) := (trim line).splitOn ' '

/-- The first word of a line, which may be empty. -/
def firstWord (line : List Char) : List Char := (words line).head (List.splitOn_ne_nil _ _)

namespace Attribute

/-- The attribute of a token, as a flag or, after the first equals sign, a number. -/
def ofToken (token : List Char) : Except LineError Attribute :=
  if token.head? ≠ some '@' then .error (.badAttribute (String.ofList token))
  else
    let key := String.ofList (lower (token.takeWhile (· ≠ '=')))
    match token.dropWhile (· ≠ '=') with
    | [] => .ok ⟨key, .flag true⟩
    | _ :: number => match integer number with
      | .ok n => .ok ⟨key, .number (Int64.ofInt n)⟩
      | .error reason => .error (.badNumber (String.ofList token) reason)

end Attribute

namespace Rule

/-- The rule of a pattern, without attributes. -/
def ofPattern (pattern : List Char) : Except LineError Rule :=
  match pattern.splitOn ':' with
  | [value] => .ok ⟨.domain, String.ofList (lower value), []⟩
  | [label, value] => .ok ⟨.ofLabel (String.ofList label), String.ofList (lower value), []⟩
  | _ => .error (.badFormat (String.ofList pattern))

/-- The rule of a line of a site list. -/
def ofSiteLine (line : List Char) : Except LineError Rule := do
  let rule ← ofPattern (firstWord line)
  let attributes ← (words line).tail.mapM Attribute.ofToken
  return { rule with attributes }

/-- The rule of a line of an address list. Only the first word counts, and any label makes an
inclusion. -/
def ofIpLine (line : List Char) : Except LineError Rule :=
  match (firstWord line).splitOn ':' with
  | [address] => .ok ⟨.ip, String.ofList (lower address), []⟩
  | [_, name] => .ok ⟨.inclusion, String.ofList (lower name), []⟩
  | _ => .error (.badFormat (String.ofList (firstWord line)))

/-- The rule of a line of a list of the family. -/
def ofLine : Family → List Char → Except LineError Rule
  | .site => ofSiteLine
  | .ip => ofIpLine

end Rule

end GeoRules
