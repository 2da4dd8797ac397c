import SourceArchive.Data.Value
import SourceArchive.Settings.Analysis
import SourceArchive.Settings.Checking

/-!
# Settings as data

Settings are records.  A key that is absent takes its default, unknown keys are passed over, and a key with a
value of the wrong type makes the whole unreadable.
-/

namespace SourceArchive

namespace SettingsForm

/-- The value of a key, read by `read`; the default if the key is absent. -/
def get {α : Type} (fields : List (Text × Value)) (key : Text) (read : Value → Option α) (default : α) : Option α :=
  match fields.lookup key with
  | none => some default
  | some v => read v

def flowKeys : List Text := ["shared_fragments", "affiliate_path_markers", "vendor_path_markers",
  "member_path_markers", "affiliate_name_marker", "vendor_name_marker", "member_name_marker",
  "affiliate_body_patterns", "vendor_body_patterns", "body_window", "route_group", "affiliate_route_patterns",
  "vendor_route_patterns", "route_group_window"]

def analysisKeys : List Text := ["flow", "service_keywords", "known_api_host", "placeholder", "max_tree_libs",
  "builtin_hooks", "ignored_default_imports"]

def accessorKeys : List Text := ["accessor", "context"]

def tierKeys : List Text := ["excellent", "good", "fair"]

def checkKeys : List Text := ["checks_per_section", "state_tolerance", "flow_keyword_threshold", "phantom_ratio",
  "vague_types", "type_context_width", "affiliate_keywords", "vendor_keywords", "affiliate_routes",
  "vendor_route", "context_accessors", "tiers"]

end SettingsForm

open SettingsForm

def FlowSettings.ofValue? (v : Value) : Option FlowSettings := do
  let fields ← v.record? flowKeys
  let d : FlowSettings := {}
  some {
    sharedFragments := ← get fields "shared_fragments" (·.texts?) d.sharedFragments
    affiliatePathMarkers := ← get fields "affiliate_path_markers" (·.texts?) d.affiliatePathMarkers
    vendorPathMarkers := ← get fields "vendor_path_markers" (·.texts?) d.vendorPathMarkers
    memberPathMarkers := ← get fields "member_path_markers" (·.texts?) d.memberPathMarkers
    affiliateNameMarker := ← get fields "affiliate_name_marker" (·.text?) d.affiliateNameMarker
    vendorNameMarker := ← get fields "vendor_name_marker" (·.text?) d.vendorNameMarker
    memberNameMarker := ← get fields "member_name_marker" (·.text?) d.memberNameMarker
    affiliateBodyPatterns := ← get fields "affiliate_body_patterns" (·.texts?) d.affiliateBodyPatterns
    vendorBodyPatterns := ← get fields "vendor_body_patterns" (·.texts?) d.vendorBodyPatterns
    bodyWindow := ← get fields "body_window" (·.nat?) d.bodyWindow
    routeGroup := ← get fields "route_group" (·.text?) d.routeGroup
    affiliateRoutePatterns := ← get fields "affiliate_route_patterns" (·.texts?) d.affiliateRoutePatterns
    vendorRoutePatterns := ← get fields "vendor_route_patterns" (·.texts?) d.vendorRoutePatterns
    routeGroupWindow := ← get fields "route_group_window" (·.nat?) d.routeGroupWindow }

def FlowSettings.toValue (s : FlowSettings) : Value := .table [
  ("shared_fragments", .ofTexts s.sharedFragments),
  ("affiliate_path_markers", .ofTexts s.affiliatePathMarkers),
  ("vendor_path_markers", .ofTexts s.vendorPathMarkers),
  ("member_path_markers", .ofTexts s.memberPathMarkers),
  ("affiliate_name_marker", .text s.affiliateNameMarker),
  ("vendor_name_marker", .text s.vendorNameMarker),
  ("member_name_marker", .text s.memberNameMarker),
  ("affiliate_body_patterns", .ofTexts s.affiliateBodyPatterns),
  ("vendor_body_patterns", .ofTexts s.vendorBodyPatterns),
  ("body_window", .ofNat s.bodyWindow),
  ("route_group", .text s.routeGroup),
  ("affiliate_route_patterns", .ofTexts s.affiliateRoutePatterns),
  ("vendor_route_patterns", .ofTexts s.vendorRoutePatterns),
  ("route_group_window", .ofNat s.routeGroupWindow)]

def AnalysisSettings.ofValue? (v : Value) : Option AnalysisSettings := do
  let fields ← v.record? analysisKeys
  let d : AnalysisSettings := {}
  some {
    flow := ← get fields "flow" FlowSettings.ofValue? d.flow
    serviceKeywords := ← get fields "service_keywords" (·.texts?) d.serviceKeywords
    knownApiHost := ← get fields "known_api_host" (·.text?) d.knownApiHost
    placeholder := ← get fields "placeholder" (·.text?) d.placeholder
    maxTreeLibs := ← get fields "max_tree_libs" (·.nat?) d.maxTreeLibs
    builtinHooks := ← get fields "builtin_hooks" (·.texts?) d.builtinHooks
    ignoredDefaultImports := ← get fields "ignored_default_imports" (·.texts?) d.ignoredDefaultImports }

def AnalysisSettings.toValue (s : AnalysisSettings) : Value := .table [
  ("flow", s.flow.toValue),
  ("service_keywords", .ofTexts s.serviceKeywords),
  ("known_api_host", .text s.knownApiHost),
  ("placeholder", .text s.placeholder),
  ("max_tree_libs", .ofNat s.maxTreeLibs),
  ("builtin_hooks", .ofTexts s.builtinHooks),
  ("ignored_default_imports", .ofTexts s.ignoredDefaultImports)]

/-- Reads an accessor, which needs both its keys. -/
def Accessor.ofValue? (v : Value) : Option Accessor := do
  let fields ← v.record? accessorKeys
  let accessor ← (fields.lookup ("accessor" : Text)).bind Value.text?
  let context ← (fields.lookup ("context" : Text)).bind Value.text?
  some { accessor, context }

def Accessor.toValue (a : Accessor) : Value :=
  .table [("accessor", .text a.accessor), ("context", .text a.context)]

def Tiers.ofValue? (v : Value) : Option Tiers := do
  let fields ← v.record? tierKeys
  let d : Tiers := {}
  some {
    excellent := ← get fields "excellent" (·.real?) d.excellent
    good := ← get fields "good" (·.real?) d.good
    fair := ← get fields "fair" (·.real?) d.fair }

def Tiers.toValue (t : Tiers) : Value :=
  .table [("excellent", .real t.excellent), ("good", .real t.good), ("fair", .real t.fair)]

def CheckSettings.ofValue? (v : Value) : Option CheckSettings := do
  let fields ← v.record? checkKeys
  let d : CheckSettings := {}
  let accessors (v : Value) : Option (List Accessor) := v.list?.bind (·.mapM Accessor.ofValue?)
  some {
    checksPerSection := ← get fields "checks_per_section" (·.nat?.map UInt64.ofNat) d.checksPerSection
    stateTolerance := ← get fields "state_tolerance" (·.nat?) d.stateTolerance
    flowKeywordThreshold := ← get fields "flow_keyword_threshold" (·.nat?) d.flowKeywordThreshold
    phantomRatio := ← get fields "phantom_ratio" (·.real?) d.phantomRatio
    vagueTypes := ← get fields "vague_types" (·.texts?) d.vagueTypes
    typeContextWidth := ← get fields "type_context_width" (·.nat?) d.typeContextWidth
    affiliateKeywords := ← get fields "affiliate_keywords" (·.texts?) d.affiliateKeywords
    vendorKeywords := ← get fields "vendor_keywords" (·.texts?) d.vendorKeywords
    affiliateRoutes := ← get fields "affiliate_routes" (·.texts?) d.affiliateRoutes
    vendorRoute := ← get fields "vendor_route" (·.text?) d.vendorRoute
    contextAccessors := ← get fields "context_accessors" accessors d.contextAccessors
    tiers := ← get fields "tiers" Tiers.ofValue? d.tiers }

def CheckSettings.toValue (s : CheckSettings) : Value := .table [
  ("checks_per_section", .ofNat s.checksPerSection.toNat),
  ("state_tolerance", .ofNat s.stateTolerance),
  ("flow_keyword_threshold", .ofNat s.flowKeywordThreshold),
  ("phantom_ratio", .real s.phantomRatio),
  ("vague_types", .ofTexts s.vagueTypes),
  ("type_context_width", .ofNat s.typeContextWidth),
  ("affiliate_keywords", .ofTexts s.affiliateKeywords),
  ("vendor_keywords", .ofTexts s.vendorKeywords),
  ("affiliate_routes", .ofTexts s.affiliateRoutes),
  ("vendor_route", .text s.vendorRoute),
  ("context_accessors", .list (s.contextAccessors.map (·.toValue))),
  ("tiers", s.tiers.toValue)]

structure Settings where
  analysis : AnalysisSettings := {}
  checks : CheckSettings := {}
deriving Repr, DecidableEq

/-- Reads the settings of both halves, each under a key of its own. -/
def Settings.ofValue? (v : Value) : Option Settings := do
  let fields ← v.record? ["analyzer", "validator"]
  some {
    analysis := ← get fields "analyzer" AnalysisSettings.ofValue? {}
    checks := ← get fields "validator" CheckSettings.ofValue? {} }

end SourceArchive
