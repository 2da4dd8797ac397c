import SourceArchive.Data.Value
import SourceArchive.Enhancement
import SourceArchive.Review

/-!
# Results as data

Records of the analysis and of reports, with their keys in order.
-/

namespace SourceArchive

def StateVariable.toValue (v : StateVariable) : Value := .table [
  ("name", .text v.name), ("setter", .text v.setter), ("ty", .text v.type), ("initial", .text v.initial),
  ("kind", .text v.kind.key)]

def Endpoint.toValue : Endpoint → Value
  | literal path => .table [("Literal", .text path)]
  | parameterized path => .table [("Parameterized", .text path)]
  | external host path => .table [("External", .table [("host", .text host), ("path", .text path)])]
  | handler verb => .table [("Handler", .text verb.key)]

def Metadata.toValue (m : Metadata) : Value := .table [
  ("role", .text m.role.key), ("flow", .text m.flow.key), ("framework", .text m.framework.key),
  ("state", .list (m.state.map (·.toValue))), ("props", .ofTexts m.props), ("contexts", .ofTexts m.contexts),
  ("endpoints", .list (m.endpoints.map (·.toValue))), ("imports", .ofTexts m.imports)]

def Distribution.toValue (d : Distribution) : Value :=
  .table [("entries", .list (d.entries.map fun (label, n) => .list [.text label, .ofNat n]))]

def Statistics.toValue (s : Statistics) : Value := .table [
  ("sections", .ofNat s.sections), ("roles", s.roles.toValue), ("flows", s.flows.toValue),
  ("frameworks", s.frameworks.toValue), ("state_vars", .ofNat s.stateVariables), ("props", .ofNat s.props),
  ("endpoints", .ofNat s.endpoints), ("contexts", .ofNat s.contexts)]

/-- The totals of an enhanced archive, and the path and metadata of each section, as data. -/
def Enhanced.toValue (e : Enhanced) : Value := .table [
  ("stats", e.statistics.toValue),
  ("sections", .list (e.sections.map fun s =>
    .table [("path", .text s.source.path), ("metadata", s.metadata.toValue)]))]

def Finding.toValue (f : Finding) : Value := .table [
  ("category", .text f.category.label), ("severity", .text f.severity.key), ("path", .text f.path),
  ("message", .text f.message)]

def PathComparison.toValue (c : PathComparison) : Value := .table [
  ("original", .ofNat c.plain), ("annotated", .ofNat c.annotated), ("missing", .ofNat c.missing),
  ("extra", .ofNat c.extra)]

def Report.toValue (r : Report) : Value := .table [
  ("title", .text r.title), ("sections", .ofNat r.sections), ("total_checks", .ofNat r.totalChecks),
  ("errors", .ofNat r.errors), ("warnings", .ofNat r.warnings), ("type_issues", .ofNat r.typeIssues),
  ("duplicates", .ofNat r.duplicates), ("accuracy", .real (.ofRat r.accuracy)),
  ("verdict", .text r.verdict.key),
  ("comparison", (r.comparison.map (·.toValue)).getD .null),
  ("flows", r.flows.toValue), ("roles", r.roles.toValue), ("frameworks", r.frameworks.toValue),
  ("findings", .list (r.findings.map (·.toValue)))]

end SourceArchive
