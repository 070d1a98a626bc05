import GeoRules.Address.Cidr
import GeoRules.Rule.Basic

/-!
# The messages of the two databases

A site database holds a message for every site list: its name as a code and its domains, each with a
type and attributes. An address database holds a message for every address list: its code and its
address ranges.
-/

namespace GeoRules

/-- How the value of a domain is matched. -/
inductive DomainType
  | plain
  | regex
  | domain
  | full
  deriving DecidableEq, Repr, Inhabited

namespace DomainType

/-- The name of a type. -/
def word : DomainType → String
  | plain => "Plain"
  | regex => "Regex"
  | domain => "Domain"
  | full => "Full"

/-- The number of a type in a message. -/
def code : DomainType → Int32
  | plain => 0
  | regex => 1
  | domain => 2
  | full => 3

/-- The type of a number; a number without a type counts as `plain`. -/
def ofCode (code : Int32) : DomainType :=
  if code = 1 then regex else if code = 2 then domain else if code = 3 then full else plain

end DomainType

/-- An attribute of a domain. The value may be left out. -/
structure DomainAttribute where
  key : String
  value : Option AttributeValue
  deriving DecidableEq, Repr

/-- A domain of a site. The type is any number. -/
structure Domain where
  typeCode : Int32
  value : String
  attributes : List DomainAttribute
  deriving DecidableEq, Repr

/-- The message of a site list. -/
structure GeoSite where
  code : String
  domains : List Domain
  deriving DecidableEq, Repr

/-- The message of an address list. -/
structure GeoIp where
  code : String
  ranges : List Cidr
  deriving DecidableEq, Repr

end GeoRules
