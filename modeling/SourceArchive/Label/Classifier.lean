import SourceArchive.Label.FlowRules
import SourceArchive.Label.FrameworkRules
import SourceArchive.Label.RoleRules

/-!
# Classification

A classifier is made from settings, which are checked on the way; after that it labels every file.
-/

namespace SourceArchive

/-- Checked settings and the patterns that an engine read from them. -/
structure Classifier where
  engine : PatternEngine
  settings : AnalysisSettings
  patterns : FlowPatterns
  read_settings : settings.read engine = .ok patterns

namespace Classifier

/-- The classifier with given settings, if they are in order. -/
def ofSettings (s : AnalysisSettings) (engine : PatternEngine := .backtracking) : Except SettingsFault Classifier :=
  match h : s.read engine with
  | .error e => .error e
  | .ok patterns => .ok ⟨engine, s, patterns, h⟩

def role (c : Classifier) (path code : Text) : Role := (RoleRules.table c.settings).labelOf (.of path code)

def framework (_ : Classifier) (path code : Text) : Framework := FrameworkRules.table.labelOf (.of path code)

/-- What speaks for the flow of a file. -/
def signals (c : Classifier) (path code : Text) : FlowSignals :=
  FlowRules.signals c.settings.flow c.patterns (.of path code)

def flow (c : Classifier) (path code : Text) : Flow := FlowRules.table.labelOf (c.signals path code)

end Classifier

end SourceArchive
