import GeoRules.Text.Case

/-!
# Rules and rule lists

A rule says what it matches by its kind and its value and may carry attributes. A rule list is what
one file holds: a name, a family that says which database the list goes into, and rules in the
order of the file. A rule of the kind `inclusion` stands for the rules of another list.
-/

namespace GeoRules

/-- What a rule's value is matched against. -/
inductive RuleKind
  /-- The label before the value is none of the known ones. -/
  | unknown
  /-- A domain and all domains below it. -/
  | domain
  /-- A regular expression for domains. -/
  | regex
  /-- A part of a domain. -/
  | keyword
  /-- One domain. -/
  | full
  /-- An address, with or without the length of its network mask. -/
  | ip
  /-- An address range. -/
  | ipRange
  /-- Another list, by its name. -/
  | inclusion
  deriving DecidableEq, Repr, Inhabited

namespace RuleKind

/-- The name of a kind. -/
def word : RuleKind → String
  | unknown => "unknown"
  | domain => "domain"
  | regex => "regex"
  | keyword => "keyword"
  | full => "full"
  | ip => "ip"
  | ipRange => "ip-subnet"
  | inclusion => "include"

/-- The labels that may stand before a value, each with the kind it gives. -/
def labels : List (String × RuleKind) :=
  [domain, regex, keyword, full, inclusion].map fun kind => (kind.word, kind)

/-- The kind that a label gives, in whatever case it is written. -/
def ofLabel (label : String) : RuleKind := (labels.lookup (Text.lowercase label)).getD unknown

/-- Whether the rule is matched against addresses. -/
def isIp : RuleKind → Bool
  | ip | ipRange => true
  | _ => false

end RuleKind

/-- The value of an attribute. -/
inductive AttributeValue
  | flag (value : Bool)
  | number (value : Int64)
  deriving DecidableEq, Repr

/-- A tag of a rule. The key keeps its leading `@`. -/
structure Attribute where
  key : String
  value : AttributeValue
  deriving DecidableEq, Repr

/-- A rule: the kind, what is matched, and the attributes in the order of the line. -/
structure Rule where
  kind : RuleKind
  value : String
  attributes : List Attribute := []
  deriving DecidableEq, Repr

/-- Whether the rule stands for the rules of another list. -/
def Rule.isInclusion (r : Rule) : Bool := r.kind = .inclusion

/-- The name of the list that an inclusion stands for. -/
def Rule.target (r : Rule) : String := Text.uppercase r.value

/-- The two databases that lists go into: domains and addresses. -/
inductive Family
  | site
  | ip
  deriving DecidableEq, Repr, Inhabited

namespace Family

/-- The name of a family. -/
def word : Family → String
  | site => "site"
  | ip => "ip"

/-- The family of a file: a name that ends in `ip` makes a list of addresses, any other name one of
domains. -/
def ofFileName (name : String) : Family :=
  if "ip".toList.isSuffixOf name.toList then ip else site

end Family

/-- The rules of one file, inclusions among them. -/
structure RuleList where
  name : String
  family : Family
  rules : List Rule := []
  deriving DecidableEq, Repr

end GeoRules
