import GeoRules.Geo.Message
import GeoRules.Wire.Reader
import GeoRules.Wire.Writer

/-!
# The databases as bytes

A database is a message that holds the messages of its lists. A field that has its default, an empty
text or zero, is left out; the value of an attribute is always written. Of a field that occurs more
than once the last occurrence counts.
-/

namespace GeoRules.Geo

open Wire

/-! ### The schema -/

/-- The messages of both databases. -/
inductive MessageName
  | geoSiteList
  | geoSite
  | domain
  | attribute
  | geoIpList
  | geoIp
  | cidr
  deriving DecidableEq, Repr

/-- The name of a message. -/
def MessageName.word : MessageName → String
  | .geoSiteList => "GeoSiteList"
  | .geoSite => "GeoSite"
  | .domain => "Domain"
  | .attribute => "Attribute"
  | .geoIpList => "GeoIpList"
  | .geoIp => "GeoIp"
  | .cidr => "Cidr"

/-- The fields of a message. Both fields of an attribute's value go by one name. -/
def MessageName.field? : MessageName → Nat → Option (FieldSpec MessageName)
  | .geoSiteList, 1 => some ⟨"entry", .message .geoSite⟩
  | .geoSite, 1 => some ⟨"country_code", .text⟩
  | .geoSite, 2 => some ⟨"domain", .message .domain⟩
  | .domain, 1 => some ⟨"r#type", .number⟩
  | .domain, 2 => some ⟨"value", .text⟩
  | .domain, 3 => some ⟨"attribute", .message .attribute⟩
  | .attribute, 1 => some ⟨"key", .text⟩
  | .attribute, 2 => some ⟨"typed_value", .number⟩
  | .attribute, 3 => some ⟨"typed_value", .number⟩
  | .geoIpList, 1 => some ⟨"entry", .message .geoIp⟩
  | .geoIp, 1 => some ⟨"country_code", .text⟩
  | .geoIp, 2 => some ⟨"cidr", .message .cidr⟩
  | .cidr, 1 => some ⟨"ip", .bytes⟩
  | .cidr, 2 => some ⟨"prefix", .number⟩
  | _, _ => none

/-- The schema of both databases. -/
def schema : Schema MessageName := ⟨MessageName.word, MessageName.field?⟩

/-! ### Writing -/

/-- A text field, unless it is empty. -/
def textField (number : Nat) (s : String) : List (Nat × Payload) :=
  if s = "" then [] else [(number, .delimited (Text.utf8 s))]

/-- A number field, unless it is zero. -/
def numberField (number n : Nat) : List (Nat × Payload) :=
  if n = 0 then [] else [(number, .number n)]

/-- A bytes field, unless it is empty. -/
def bytesField (number : Nat) (bytes : List UInt8) : List (Nat × Payload) :=
  if bytes = [] then [] else [(number, .delimited bytes)]

/-- A field for each of the messages. -/
def messageFields {α : Type} (number : Nat) (fields : α → List (Nat × Payload)) (ms : List α) :
    List (Nat × Payload) :=
  ms.map fun m => (number, .delimited (encode (fields m)))

/-- The field of an attribute's value, if there is one. -/
def valueFields : Option AttributeValue → List (Nat × Payload)
  | none => []
  | some (.flag b) => [(2, .number b.toNat)]
  | some (.number n) => [(3, .number n.toUInt64.toNat)]

/-- The fields of an attribute. -/
def attributeFields (a : DomainAttribute) : List (Nat × Payload) :=
  textField 1 a.key ++ valueFields a.value

/-- The fields of a domain. A negative type is written as the number of 64 bits that it extends
to. -/
def domainFields (d : Domain) : List (Nat × Payload) :=
  numberField 1 d.typeCode.toInt64.toUInt64.toNat ++ textField 2 d.value ++
    messageFields 3 attributeFields d.attributes

/-- The fields of a site. -/
def siteFields (s : GeoSite) : List (Nat × Payload) :=
  textField 1 s.code ++ messageFields 2 domainFields s.domains

/-- The fields of an address range. -/
def cidrFields (c : Cidr) : List (Nat × Payload) :=
  bytesField 1 c.address ++ numberField 2 c.bits.toNat

/-- The fields of a list of address ranges. -/
def ipFields (g : GeoIp) : List (Nat × Payload) :=
  textField 1 g.code ++ messageFields 2 cidrFields g.ranges

/-- The bytes of a site database. -/
def encodeSites (sites : List GeoSite) : List UInt8 :=
  encode (messageFields 1 siteFields sites)

/-- The bytes of an address database. -/
def encodeIps (ips : List GeoIp) : List UInt8 := encode (messageFields 1 ipFields ips)

/-! ### Reading -/

/-- The last number in the fields `number`, or zero. -/
def lastNumber (number : Nat) (fields : List (Nat × Value)) : Nat :=
  ((fields.filterMap fun
    | (k, .number n) => if k = number then some n else none
    | _ => none).getLast?).getD 0

/-- The last text in the fields `number`, or the empty one. -/
def lastText (number : Nat) (fields : List (Nat × Value)) : String :=
  ((fields.filterMap fun
    | (k, .text s) => if k = number then some s else none
    | _ => none).getLast?).getD ""

/-- The last bytes in the fields `number`, or none. -/
def lastBytes (number : Nat) (fields : List (Nat × Value)) : List UInt8 :=
  ((fields.filterMap fun
    | (k, .bytes bytes) => if k = number then some bytes else none
    | _ => none).getLast?).getD []

/-- The messages in the fields `number`, in order. -/
def messages (number : Nat) (fields : List (Nat × Value)) : List (List (Nat × Value)) :=
  fields.filterMap fun
    | (k, .message inner) => if k = number then some inner else none
    | _ => none

/-- The value of an attribute: whichever of its two fields comes last. -/
def lastValue (fields : List (Nat × Value)) : Option AttributeValue :=
  (fields.filterMap fun
    | (2, .number n) => some (AttributeValue.flag (n ≠ 0))
    | (3, .number n) => some (AttributeValue.number (Int64.ofNat n))
    | _ => none).getLast?

/-- The attribute with the fields. -/
def attributeOf (fields : List (Nat × Value)) : DomainAttribute :=
  ⟨lastText 1 fields, lastValue fields⟩

/-- The domain with the fields. -/
def domainOf (fields : List (Nat × Value)) : Domain :=
  ⟨Int32.ofNat (lastNumber 1 fields), lastText 2 fields, (messages 3 fields).map attributeOf⟩

/-- The site with the fields. -/
def siteOf (fields : List (Nat × Value)) : GeoSite :=
  ⟨lastText 1 fields, (messages 2 fields).map domainOf⟩

/-- The address range with the fields. -/
def cidrOf (fields : List (Nat × Value)) : Cidr :=
  ⟨lastBytes 1 fields, UInt32.ofNat (lastNumber 2 fields)⟩

/-- The list of address ranges with the fields. -/
def ipOf (fields : List (Nat × Value)) : GeoIp :=
  ⟨lastText 1 fields, (messages 2 fields).map cidrOf⟩

/-- The site database that the bytes encode. -/
def decodeSites (bytes : List UInt8) : Except DecodeError (List GeoSite) :=
  (decode schema .geoSiteList bytes).map fun fields => (messages 1 fields).map siteOf

/-- The address database that the bytes encode. -/
def decodeIps (bytes : List UInt8) : Except DecodeError (List GeoIp) :=
  (decode schema .geoIpList bytes).map fun fields => (messages 1 fields).map ipOf

end GeoRules.Geo
