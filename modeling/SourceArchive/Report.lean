import SourceArchive.Distribution
import SourceArchive.Finding
import SourceArchive.Number.Places
import SourceArchive.Score

/-!
# Reports

The outcome of checking an annotated archive, and its written form.
-/

namespace SourceArchive

/-- The sections of an annotated archive against those of the plain archive that it was made from. -/
structure PathComparison where
  plain : Nat
  annotated : Nat
  missing : Nat
  extra : Nat
deriving Repr, DecidableEq

structure Report where
  title : Text
  sections : Nat
  totalChecks : Nat
  errors : Nat
  warnings : Nat
  typeIssues : Nat
  duplicates : Nat
  accuracy : Rat
  verdict : Verdict
  comparison : Option PathComparison
  flows : Distribution
  roles : Distribution
  frameworks : Distribution
  findings : List Finding
deriving Repr, DecidableEq

namespace Report

def rule : Text := List.replicate 70 '='

def subrule : Text := List.replicate 40 '-'

/-- A suggestion: the findings that call for it, and its words. -/
structure Correction where
  severity : Severity
  category : Category
  heading : Text
  problem : Text
  action : Text

def corrections : List Correction := [
  ⟨.error, .state, "STATE METADATA", "sections have State mismatches.",
    "Re-run state extraction with improved patterns."⟩,
  ⟨.error, .api, "API METADATA", "sections have undetected API calls.",
    "Improve fetch detection for variable-based URLs."⟩,
  ⟨.error, .context, "CONTEXT METADATA", "sections have undetected context usage.",
    "Expand context hook pattern matching."⟩,
  ⟨.warning, .flow, "FLOW LABELS", "sections may be mislabeled.",
    "Review path-based flow assignment logic."⟩,
  ⟨.warning, .type, "TYPE ANNOTATIONS", "annotations lack specificity.",
    "Infer element types from usage context."⟩,
  ⟨.warning, .state, "STATE COUNTS", "sections have count discrepancies.",
    "Check for multi-line or conditional useState patterns."⟩,
  ⟨.warning, .props, "PROPS", "sections have undetected props.",
    "Improve destructured props detection."⟩]

def banner (heading : Text) : List Text := [rule, heading, rule, []]

def summaryLines (r : Report) : List Text :=
  let counted (what : Text) (n : Nat) : Text := what ++ decimal n
  ["SUMMARY", subrule,
    counted "Total file sections:     " r.sections,
    counted "Total checks performed:  " r.totalChecks,
    counted "Errors found:            " r.errors,
    counted "Warnings found:          " r.warnings,
    counted "Type annotation issues:  " r.typeIssues,
    counted "Duplicate sections:      " r.duplicates,
    "Accuracy score:          " ++ onePlace r.accuracy ++ "%",
    []]

def comparisonLines (r : Report) : List Text :=
  match r.comparison with
  | none => []
  | some c => [
    "  Original sections: " ++ decimal c.plain,
    "  Annotated sections: " ++ decimal c.annotated,
    "  Missing: " ++ decimal c.missing ++ ", Extra: " ++ decimal c.extra,
    []]

def distributionLines (title : Text) (d : Distribution) : List Text := [title, subrule] ++ d.lines ++ [[]]

/-- One finding; its path is given for errors only. -/
def findingLines (f : Finding) : List Text :=
  ["  File: " ++ f.file] ++ (if f.isError then ["  Path: " ++ f.path] else [])
    ++ ["  Issue: " ++ f.message, []]

def groupLines (noun : Text) (group : Category × List Finding) : List Text :=
  ["[" ++ group.1.label ++ "] (" ++ decimal group.2.length ++ " " ++ noun ++ ")", subrule]
    ++ group.2.flatMap findingLines

def severityLines (severity : Severity) (fs : List Finding) : List Text :=
  let (heading, noun, nothing) : Text × Text × Text := match severity with
    | .error => ("ERRORS (Must Fix)", "errors", "NO ERRORS FOUND")
    | .warning => ("WARNINGS (Review Recommended)", "warnings", "NO WARNINGS FOUND")
  let groups := Finding.grouped severity fs
  if groups.isEmpty then [nothing, []] else banner heading ++ groups.flatMap (groupLines noun)

/-- The suggestions that findings call for, numbered from `number`. -/
def correctionLines (fs : List Finding) (number : Nat) : List Correction → List Text
  | [] => []
  | c :: rest =>
    let n := Finding.countIn c.severity c.category fs
    if n = 0 then correctionLines fs number rest
    else
      [decimal number ++ ". " ++ c.heading ++ ": " ++ decimal n ++ " " ++ c.problem,
        "   Action: " ++ c.action, []] ++ correctionLines fs (number + 1) rest

/-- The suggestions, or the word that there are none. -/
def suggestionLines (fs : List Finding) : List Text :=
  let suggested := correctionLines fs 1 corrections
  if suggested.isEmpty then ["No corrections needed.", []] else suggested

def lines (r : Report) : List Text :=
  banner ("VALIDATION REPORT: " ++ r.title) ++ r.summaryLines ++ r.comparisonLines
  ++ distributionLines "FLOW DISTRIBUTION" r.flows
  ++ distributionLines "FILE TYPE DISTRIBUTION" r.roles
  ++ distributionLines "FRAMEWORK DISTRIBUTION" r.frameworks
  ++ severityLines .error r.findings ++ severityLines .warning r.findings
  ++ banner "SUGGESTED CORRECTIONS" ++ suggestionLines r.findings
  ++ banner "FINAL VERDICT"
  ++ ["ACCURACY: " ++ onePlace r.accuracy ++ "% - " ++ r.verdict.label, r.verdict.advice]

def text (r : Report) : Text := Text.endLines r.lines

end Report

end SourceArchive
