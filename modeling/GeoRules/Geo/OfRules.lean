import GeoRules.Geo.Message
import GeoRules.Inclusion.Expansion

/-!
# Messages of resolved lists

A site list becomes a message if all its rules match domains. An address list becomes a message of
the addresses that can be read; those that cannot are dropped, and so are rules of other kinds.
-/

namespace GeoRules

/-- A site list with a rule that matches no domain. -/
structure NoDomainRule where
  list : String
  deriving DecidableEq, Repr

/-- The wording of the error. -/
def NoDomainRule.message (e : NoDomainRule) : String := "unknown domain type: " ++ e.list

/-- The type of the domains that a rule of the kind matches. -/
def RuleKind.domainType? : RuleKind → Option DomainType
  | domain => some .domain
  | regex => some .regex
  | keyword => some .plain
  | full => some .full
  | unknown | ip | ipRange | inclusion => none

/-- The attribute in a message. -/
def Attribute.toDomainAttribute (a : Attribute) : DomainAttribute := ⟨a.key, some a.value⟩

/-- The domain that the rule matches. -/
def Rule.toDomain? (r : Rule) : Option Domain :=
  r.kind.domainType?.map fun type =>
    ⟨type.code, r.value, r.attributes.map Attribute.toDomainAttribute⟩

namespace ResolvedList

/-- The message of a site list. -/
def toGeoSite (l : ResolvedList) : Except NoDomainRule GeoSite :=
  match l.rules.mapM Rule.toDomain? with
  | none => .error ⟨l.name⟩
  | some domains => .ok ⟨l.name, domains⟩

/-- The rules that match addresses, each with its address range or the reason why it has none. -/
def addresses (l : ResolvedList) : List (Rule × Except AddressError Cidr) :=
  (l.rules.filter (·.kind.isIp)).map fun r => (r, Cidr.ofText r.value.toList)

/-- The message of an address list. -/
def toGeoIp (l : ResolvedList) : GeoIp :=
  ⟨l.name, l.addresses.filterMap fun (_, range) => range.toOption⟩

/-- The rules that match addresses but cannot be read, with the reasons. -/
def dropped (l : ResolvedList) : List (Rule × AddressError) :=
  l.addresses.filterMap fun
    | (r, .error e) => some (r, e)
    | (_, .ok _) => none

end ResolvedList

end GeoRules
