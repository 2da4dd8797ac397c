import SourceArchive.Check.Paths
import SourceArchive.Check.Section
import SourceArchive.Report

/-!
# Reviewing an annotated archive

A review runs all checks on an annotated archive, if wanted against the plain archive that it was made from, and
adds up the findings.  The number of checks is a product of settings and sections, and is kept in 64 bits.
-/

namespace SourceArchive

/-- Checked settings of the checks. -/
structure Reviewer where
  settings : CheckSettings
  check_settings : settings.check = .ok ()

namespace Reviewer

def ofSettings (s : CheckSettings) : Except SettingsFault Reviewer :=
  match h : s.check with
  | .error e => .error e
  | .ok () => .ok ⟨s, h⟩

def unlabeled : Text := "UNKNOWN"

/-- How often the sections state each label. -/
def labels (label : AnnotatedSection → Option Text) (sections : List AnnotatedSection) : Distribution :=
  .ofList (sections.map fun s => (label s).getD unlabeled)

def review (r : Reviewer) (annotated : Text) (plain : Option Text) (title : Text) : Report :=
  let sections := AnnotatedSection.allIn annotated
  let paths := markerPaths annotated
  let duplicates := PathCheck.duplicates paths
  let plainPaths := plain.map markerPaths
  let missing := (plainPaths.map (PathCheck.missing · paths)).getD []
  let extra := (plainPaths.map (PathCheck.extra · paths)).getD []
  let findings := duplicates ++ missing ++ extra ++ sections.flatMap (·.findings r.settings)
  let totalChecks := (UInt64.ofNat sections.length * r.settings.checksPerSection).toNat
  let errors := Finding.count .error findings
  let warnings := Finding.count .warning findings
  let score := accuracy totalChecks errors warnings
  { title
    sections := sections.length
    totalChecks
    errors
    warnings
    typeIssues := sumOf (sections.map fun s => (s.checkTypes r.settings).length)
    duplicates := duplicates.length
    accuracy := score
    verdict := .ofAccuracy score r.settings.tiers
    comparison := plainPaths.map fun ps =>
      { plain := ps.length, annotated := paths.length, missing := missing.length, extra := extra.length }
    flows := labels (·.flow?) sections
    roles := labels (·.field? "Type") sections
    frameworks := labels (·.field? "Framework") sections
    findings }

end Reviewer

end SourceArchive
