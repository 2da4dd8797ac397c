import SourceArchive.Pattern.Fault
import SourceArchive.Text.Basic

/-!
# Faults of settings
-/

namespace SourceArchive

inductive PatternField where
  | affiliateBody
  | vendorBody
  | affiliateRoute
  | vendorRoute
deriving Repr, DecidableEq

def PatternField.label : PatternField → Text
  | affiliateBody => "flow.affiliate_body_patterns"
  | vendorBody => "flow.vendor_body_patterns"
  | affiliateRoute => "flow.affiliate_route_patterns"
  | vendorRoute => "flow.vendor_route_patterns"

inductive SettingsFault where
  | blankHost
  | emptyPlaceholder
  | noTreeLibraries
  | emptyWindow
  | emptyRouteGroup
  | badPattern (field : PatternField) (fault : PatternFault)
  | noChecks
  | phantomRatioOutOfRange
  | badAccessor (name : Text)
  | tiersOutOfOrder
deriving Repr, DecidableEq

def SettingsFault.message : SettingsFault → Text
  | blankHost => "Invalid configuration: known_api_host must not be empty"
  | emptyPlaceholder => "Invalid configuration: placeholder must not be empty"
  | noTreeLibraries => "Invalid configuration: max_tree_libs must be > 0"
  | emptyWindow => "Invalid configuration: flow scan windows must be > 0"
  | emptyRouteGroup => "Invalid configuration: flow.route_group must not be empty"
  | badPattern field _ => "Invalid pattern for " ++ field.label
  | noChecks => "Invalid configuration: checks_per_section must be > 0"
  | phantomRatioOutOfRange => "Invalid configuration: phantom_ratio must be in (0, 1]"
  | badAccessor name => "Invalid configuration: context accessor '" ++ name ++ "' is not an identifier"
  | tiersOutOfOrder =>
    "Invalid configuration: verdict tiers must satisfy 100 >= excellent >= good >= fair >= 0"

end SourceArchive
