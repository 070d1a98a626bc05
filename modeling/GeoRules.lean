import GeoRules.Main
import GeoRules.Proofs.Address.Outcome
import GeoRules.Proofs.Build.Accounts
import GeoRules.Proofs.Build.Outcome
import GeoRules.Proofs.Build.Ranges
import GeoRules.Proofs.Build.Rerun
import GeoRules.Proofs.Geo.Concatenation
import GeoRules.Proofs.Geo.Distinct
import GeoRules.Proofs.Geo.Extension
import GeoRules.Proofs.Geo.Sifting
import GeoRules.Proofs.Geo.Slices
import GeoRules.Proofs.Inclusion.Locality
import GeoRules.Proofs.Inclusion.Missing
import GeoRules.Proofs.Inclusion.Outline
import GeoRules.Proofs.Inclusion.Placement
import GeoRules.Proofs.Inclusion.Termination
import GeoRules.Proofs.Report.ReadBack
import GeoRules.Proofs.Rule.SiteLine
import GeoRules.Proofs.RuleList.Attributes
import GeoRules.Proofs.RuleList.FileName
import GeoRules.Proofs.RuleList.Invariant
import GeoRules.Proofs.RuleList.Layout
import GeoRules.Proofs.RuleList.Letters
