import GeoRules.Geo.OfRules
import GeoRules.Report.CategoryIndex
import GeoRules.Report.ProxyRules

/-!
# Compiling a registry

Every list is recorded in the two reports as it stands, and its resolved form becomes a message of
the database of its family. The first list that has no message ends the compilation.
-/

namespace GeoRules

/-- Why a list has no message. -/
inductive CompileError
  | missingList (e : MissingList)
  | noDomainRule (e : NoDomainRule)
  deriving DecidableEq, Repr

/-- The wording of the error. -/
def CompileError.message : CompileError → String
  | missingList e => e.message
  | noDomainRule e => e.message

/-- The two databases and the two reports of a compilation. -/
structure Compilation where
  sites : List GeoSite := []
  ips : List GeoIp := []
  index : CategoryIndex := {}
  proxy : ProxyRules := {}
  deriving DecidableEq, Repr

namespace Compilation

instance : Append Compilation :=
  ⟨fun a b => ⟨a.sites ++ b.sites, a.ips ++ b.ips, a.index ++ b.index, a.proxy ++ b.proxy⟩⟩

/-- The number of domains in the site database. -/
def domainCount (c : Compilation) : Nat := (c.sites.flatMap (·.domains)).length

/-- The number of address ranges in the address database. -/
def rangeCount (c : Compilation) : Nat := (c.ips.flatMap (·.ranges)).length

end Compilation

namespace RuleList

/-- The compilation that only records the list. -/
def reports (l : RuleList) : Compilation :=
  { index := CategoryIndex.record {} l, proxy := ProxyRules.record {} l }

/-- What the list adds to a compilation. -/
def compile (reg : Registry) (l : RuleList) : Except CompileError Compilation :=
  match l.resolve reg with
  | .error e => .error (.missingList e)
  | .ok resolved => match l.family with
    | .site => match resolved.toGeoSite with
      | .error e => .error (.noDomainRule e)
      | .ok site => .ok { l.reports with sites := [site] }
    | .ip => .ok { l.reports with ips := [resolved.toGeoIp] }

end RuleList

namespace Registry

/-- The compilation of the lists, one after the other. -/
def compileLists (reg : Registry) : List RuleList → Except CompileError Compilation
  | [] => .ok {}
  | l :: ls => match l.compile reg with
    | .error e => .error e
    | .ok c => match compileLists reg ls with
      | .error e => .error e
      | .ok cs => .ok (c ++ cs)

/-- The compilation of all lists of the registry. -/
def compile (reg : Registry) : Except CompileError Compilation := reg.compileLists reg.lists

/-- The lists that have no message, by name, with the reasons. -/
def failures (reg : Registry) : List (String × CompileError) :=
  reg.lists.filterMap fun l => match l.compile reg with
    | .error e => some (l.name, e)
    | .ok _ => none

end Registry

end GeoRules
