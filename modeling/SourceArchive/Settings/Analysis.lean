import SourceArchive.Pattern.WholeWord
import SourceArchive.Settings.Fault

/-!
# Settings of the analysis

What classification and extraction can be tuned with.  The defaults describe an application with two kinds of
business users, affiliates and vendors, and one kind of member.
-/

namespace SourceArchive

/-- Rules for assigning a file to a flow. -/
structure FlowSettings where
  /-- Path fragments that make a file shared before anything else is looked at. -/
  sharedFragments : List Text := ["/components/", "/lib/", "/services/", "/hooks/", "/utils/", "/context/",
    "/providers/", "/config/", "layout.tsx", "/api/", "/types/", "middleware"]
  affiliatePathMarkers : List Text := ["/affiliate"]
  vendorPathMarkers : List Text := ["/vendor", "/pos", "/inventory", "/staff"]
  memberPathMarkers : List Text := ["/member"]
  affiliateNameMarker : Text := "affiliate"
  vendorNameMarker : Text := "vendor"
  memberNameMarker : Text := "member"
  /-- Whole-word patterns of affiliate bodies. -/
  affiliateBodyPatterns : List Text := ["affiliate"]
  vendorBodyPatterns : List Text := ["vendor"]
  /-- How many characters of a body are searched. -/
  bodyWindow : Nat := 2000
  /-- The path fragment of the route group whose bodies are searched with wider patterns. -/
  routeGroup : Text := "/(main)/"
  affiliateRoutePatterns : List Text := ["affiliate", "referral", "commission", "share.*link"]
  vendorRoutePatterns : List Text := ["vendor", "pos", "inventory", "staff", "barcode"]
  /-- How many characters of a body in the route group are searched. -/
  routeGroupWindow : Nat := 3000
deriving Repr, DecidableEq

structure AnalysisSettings where
  flow : FlowSettings := {}
  /-- Path fragments that make a library file a service. -/
  serviceKeywords : List Text := ["xrpl", "auth", "wallet", "sound"]
  /-- The host that counts as the application's own. -/
  knownApiHost : Text := "api.dltpays.com"
  /-- What stands for an interpolation in a path. -/
  placeholder : Text := "\x7bparam\x7d"
  /-- How many library names a dependency tree takes. -/
  maxTreeLibs : Nat := 8
  /-- Hooks that are never listed in a dependency tree. -/
  builtinHooks : List Text := ["useState", "useEffect", "useCallback", "useMemo", "useRef", "useReducer",
    "useContext", "useLayoutEffect", "useImperativeHandle", "useDebugValue", "useDeferredValue",
    "useTransition", "useId", "useSyncExternalStore", "useInsertionEffect"]
  /-- Default imports that bind no name. -/
  ignoredDefaultImports : List Text := ["React", "type"]
deriving Repr, DecidableEq

/-- Reads one list of whole-word patterns. -/
def readPatterns (engine : PatternEngine) (field : PatternField) (written : List Text) :
    Except SettingsFault (Option (Text → Bool)) :=
  (WholeWord.read engine written).mapError (.badPattern field)

structure FlowPatterns where
  affiliateBody : Option (Text → Bool)
  vendorBody : Option (Text → Bool)
  affiliateRoute : Option (Text → Bool)
  vendorRoute : Option (Text → Bool)

/-- Checks the flow rules and reads their patterns. -/
def FlowSettings.read (s : FlowSettings) (engine : PatternEngine) : Except SettingsFault FlowPatterns := do
  if s.bodyWindow = 0 ∨ s.routeGroupWindow = 0 then throw .emptyWindow
  if s.routeGroup.isEmpty then throw .emptyRouteGroup
  let affiliateBody ← readPatterns engine .affiliateBody s.affiliateBodyPatterns
  let vendorBody ← readPatterns engine .vendorBody s.vendorBodyPatterns
  let affiliateRoute ← readPatterns engine .affiliateRoute s.affiliateRoutePatterns
  let vendorRoute ← readPatterns engine .vendorRoute s.vendorRoutePatterns
  return { affiliateBody, vendorBody, affiliateRoute, vendorRoute }

/-- Checks the settings and reads the patterns of their flow rules. -/
def AnalysisSettings.read (s : AnalysisSettings) (engine : PatternEngine) : Except SettingsFault FlowPatterns := do
  if s.knownApiHost.trim.isEmpty then throw .blankHost
  if s.placeholder.isEmpty then throw .emptyPlaceholder
  if s.maxTreeLibs = 0 then throw .noTreeLibraries
  s.flow.read engine

end SourceArchive
