import SourceArchive.Label.Basic
import SourceArchive.Label.Evidence
import SourceArchive.Label.Rule
import SourceArchive.Settings.Analysis

/-!
# The flow of a file

Structural paths are shared.  Other files are assigned by markers in the path, in the name and in the first part
of the body; files of the generic route group are also searched with wider patterns.
-/

namespace SourceArchive

structure FlowSignals where
  structuralShared : Bool := false
  affiliate : Bool := false
  vendor : Bool := false
  member : Bool := false
  routeAffiliate : Bool := false
  routeVendor : Bool := false
deriving Repr, DecidableEq

namespace FlowRules

/-- Whether a lowercase name holds a marker; an empty marker marks nothing. -/
def nameHas (name marker : Text) : Bool := !marker.isEmpty && name.contains marker.lowercase

def signals (s : FlowSettings) (patterns : FlowPatterns) (e : Evidence) : FlowSignals :=
  if e.pathHasAny s.sharedFragments then { structuralShared := true }
  else
    let body := e.code.take s.bodyWindow
    let inGroup := e.pathHas s.routeGroup.lowercase
    let window := e.code.take s.routeGroupWindow
    { affiliate := e.pathHasAny s.affiliatePathMarkers || nameHas e.name s.affiliateNameMarker
        || WholeWord.occursIn patterns.affiliateBody body
      vendor := e.pathHasAny s.vendorPathMarkers || nameHas e.name s.vendorNameMarker
        || WholeWord.occursIn patterns.vendorBody body
      member := e.pathHasAny s.memberPathMarkers || nameHas e.name s.memberNameMarker
      routeAffiliate := inGroup && WholeWord.occursIn patterns.affiliateRoute window
      routeVendor := inGroup && WholeWord.occursIn patterns.vendorRoute window }

/-- The flows, in order of precedence. -/
def table : RuleTable FlowSignals Flow where
  rules := [
    ⟨"structural-shared", (·.structuralShared), .shared⟩,
    ⟨"both-domains", fun s => s.affiliate && s.vendor, .shared⟩,
    ⟨"affiliate", (·.affiliate), .affiliateOnly⟩,
    ⟨"vendor", (·.vendor), .vendorOnly⟩,
    ⟨"member", (·.member), .memberOnly⟩,
    ⟨"route-group-affiliate", (·.routeAffiliate), .affiliateOnly⟩,
    ⟨"route-group-vendor", (·.routeVendor), .vendorOnly⟩]
  default := .shared

end FlowRules

end SourceArchive
