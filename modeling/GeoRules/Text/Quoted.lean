import GeoRules.Text.CharRange
import GeoRules.Text.Unprintable

/-!
# Quoted texts

A text in double quotes, on one line and free of unprintable characters: these are written as
escapes.
-/

namespace GeoRules.Text

/-- Whether `c` cannot be shown as itself. -/
def isUnprintable (c : Char) : Bool := inRanges unprintableRanges c

/-- The escape of `c` by its code point. -/
def codeEscape (c : Char) : List Char :=
  ['\\', 'u', '\x7b'] ++ Nat.toDigits 16 c.toNat ++ ['\x7d']

/-- `c` inside quotes. -/
def quotedChar (c : Char) : List Char :=
  if c = '"' then ['\\', '"']
  else if c = '\\' then ['\\', '\\']
  else if c = '\t' then ['\\', 't']
  else if c = '\n' then ['\\', 'n']
  else if c = '\r' then ['\\', 'r']
  else if c = '\x00' then ['\\', '0']
  else if isUnprintable c then codeEscape c
  else [c]

/-- `s` in double quotes. -/
def quoted (s : String) : String :=
  String.ofList ('"' :: s.toList.flatMap quotedChar ++ ['"'])

end GeoRules.Text
