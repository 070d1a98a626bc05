import GeoRules.Rule.Basic
import GeoRules.Text.Lines

/-!
# Proxy rules

The rules of the lists as they stand in the files, inclusions among them, as lines for a proxy: each
list has a header line and a line for every rule. An address is written with a mask of 32 bits,
whatever it holds.
-/

namespace GeoRules

/-- The lines of the recorded lists. -/
structure ProxyRules where
  lines : List String := []
  deriving DecidableEq, Repr

namespace ProxyRules

/-- The header of a list. -/
def header (family : Family) (name : String) : String :=
  match family with
  | .site => "# Domain:" ++ Text.lowercase name
  | .ip => "# IP:" ++ Text.lowercase name

/-- The line of a rule. -/
def ruleLine (family : Family) (value : String) : String :=
  match family with
  | .site => "- DOMAIN-SUFFIX," ++ value ++ ",Proxy"
  | .ip => "- IP-CIDR," ++ value ++ "/32,Proxy"

/-- The lines of a list. -/
def block (l : RuleList) : List String :=
  header l.family l.name :: l.rules.map fun r => ruleLine l.family r.value

/-- The lines with those of one more list. -/
def record (rules : ProxyRules) (l : RuleList) : ProxyRules := ⟨rules.lines ++ block l⟩

instance : Append ProxyRules := ⟨fun a b => ⟨a.lines ++ b.lines⟩⟩

/-- The text of the lines. -/
def render (rules : ProxyRules) : String := Text.ofLines rules.lines

end ProxyRules

end GeoRules
