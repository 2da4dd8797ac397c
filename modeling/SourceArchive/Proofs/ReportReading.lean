import SourceArchive.Report
import SourceArchive.Proofs.FindingGroups
import SourceArchive.Proofs.Facts

/-!
# Reading a report back

A written report is a text, and what it says about a finding is spread over several lines.  Here the lines of the two
parts with the findings are read back: which of them are headings of groups, which name a file and which state an issue.
The signs that are read tell the findings one by one, in the order of the groups (`Report.text_lists_findings`).  A path
or a message with a line feed would break its line in two, and the second half could look like any sign; so the findings
are taken to hold none.
-/

namespace SourceArchive

open Text

/-! ## Lines of a written text -/

namespace Text

/-- Between line feeds a written line comes back as its own pieces. -/
theorem splitAt_endLines_append (ls : List Text) (t : Text) :
    splitAt '\n' (endLines ls ++ t) = ls.flatMap (splitAt '\n') ++ splitAt '\n' t := by
  induction ls with
  | nil => rfl
  | cons l ls ih =>
    have h : endLines (l :: ls) ++ t = l ++ '\n' :: (endLines ls ++ t) := by simp [endLines]
    rw [h, splitAt_append_cons, ih, List.flatMap_cons, List.append_assoc]

theorem flatMap_splitAt_of_not_mem {ls : List Text} (h : ∀ l ∈ ls, '\n' ∉ l) : ls.flatMap (splitAt '\n') = ls := by
  induction ls with
  | nil => rfl
  | cons l ls ih =>
    obtain ⟨hl, hls⟩ := List.forall_mem_cons.mp h
    rw [List.flatMap_cons, splitAt_of_not_mem hl, ih hls, List.singleton_append]

end Text

theorem newline_not_mem_decimal (n : Nat) : '\n' ∉ decimal n := by
  intro h
  have hdigit := Nat.isDigit_of_mem_toDigits (by decide) (by decide) h
  revert hdigit
  decide

namespace Report

/-! ## Signs -/

/-- What a line tells a reader of findings. -/
inductive Sign where
  | heading (text : Text)
  | file (name : Text)
  | issue (message : Text)
deriving Repr, DecidableEq

/-- Whether a sign belongs to a finding. -/
def Sign.isEntry : Sign → Bool
  | heading _ => false
  | file _ | issue _ => true

/-- The sign that a line begins with, if any. -/
def sign? (l : Text) : Option Sign :=
  ((after? l "[").map .heading).or (((after? l "  File: ").map .file).or ((after? l "  Issue: ").map .issue))

/-- The signs of some lines, in order. -/
def signs (ls : List Text) : List Sign := ls.filterMap sign?

/-- What is expected for a number of findings: the file and the issue of each. -/
def entries (fs : List Finding) : List Sign := fs.flatMap fun f => [.file f.file, .issue f.message]

/-- What the findings of a severity are counted in. -/
def noun : Severity → Text
  | .error => "errors"
  | .warning => "warnings"

/-- The title of the part with the findings of a severity. -/
def partTitle : Severity → Text
  | .error => "ERRORS (Must Fix)"
  | .warning => "WARNINGS (Review Recommended)"

/-- The word that a severity has no findings. -/
def absence : Severity → Text
  | .error => "NO ERRORS FOUND"
  | .warning => "NO WARNINGS FOUND"

theorem severityLines_eq (severity : Severity) (fs : List Finding) :
    severityLines severity fs = if (Finding.grouped severity fs).isEmpty then [absence severity, []]
      else banner (partTitle severity) ++ (Finding.grouped severity fs).flatMap (groupLines (noun severity)) := by
  cases severity <;> rfl

/-- The heading of a group: its label and how many findings it has. -/
def heading (severity : Severity) (group : Category × List Finding) : Sign :=
  .heading (group.1.label ++ "] (" ++ decimal group.2.length ++ " " ++ noun severity ++ ")")

@[simp] theorem signs_append (a b : List Text) : signs (a ++ b) = signs a ++ signs b := List.filterMap_append

theorem signs_flatMap {α : Type} (l : List α) (f : α → List Text) : signs (l.flatMap f) = l.flatMap (signs <| f ·) :=
  List.filterMap_flatMap

theorem sign?_heading (t : Text) : sign? ("[".toList ++ t) = some (.heading t) := by
  rw [sign?, after?_append, Option.map_some, Option.some_or]

theorem sign?_file (t : Text) : sign? ("  File: ".toList ++ t) = some (.file t) := by
  rw [sign?, after?_append]
  rfl

theorem sign?_issue (t : Text) : sign? ("  Issue: ".toList ++ t) = some (.issue t) := by
  rw [sign?, after?_append]
  rfl

theorem sign?_path (t : Text) : sign? ("  Path: ".toList ++ t) = none := rfl

/-- A finding is told by its file and its issue; the path that an error gives besides is no sign. -/
theorem signs_findingLines (f : Finding) : signs (findingLines f) = [.file f.file, .issue f.message] := by
  have hpath : signs (if f.isError then ["  Path: " ++ f.path] else []) = [] := by
    cases f.isError
    · rfl
    · exact List.filterMap_cons_none (sign?_path f.path)
  rw [findingLines, signs_append, signs_append, hpath, List.append_nil, signs, signs,
    List.filterMap_cons_some (sign?_file f.file), List.filterMap_cons_some (sign?_issue f.message)]
  rfl

theorem signs_groupLines (severity : Severity) (group : Category × List Finding) :
    signs (groupLines (noun severity) group) = heading severity group :: entries group.2 := by
  have hhead : signs ["[" ++ group.1.label ++ "] (" ++ decimal group.2.length ++ " " ++ noun severity ++ ")", subrule]
      = [heading severity group] := by
    simp only [List.append_assoc]
    rw [signs, List.filterMap_cons_some (sign?_heading _)]
    simp only [heading, List.append_assoc]
    rfl
  rw [groupLines, signs_append, hhead, signs_flatMap]
  simp only [signs_findingLines]
  rfl

/-- Each group is told by its heading and its findings; the lines around the groups are no signs. -/
theorem signs_severityLines (severity : Severity) (fs : List Finding) :
    signs (severityLines severity fs)
      = (Finding.grouped severity fs).flatMap fun group => heading severity group :: entries group.2 := by
  have hbanner : signs (banner (partTitle severity)) = [] := by cases severity <;> rfl
  have habsence : signs [absence severity, []] = [] := by cases severity <;> rfl
  rw [severityLines_eq]
  split
  · next hempty => rw [habsence, List.isEmpty_iff.mp hempty, List.flatMap_nil]
  · rw [signs_append, hbanner, List.nil_append, signs_flatMap]
    simp only [signs_groupLines]

/-- Without the headings, the entries of groups are the entries of all their findings one behind the other. -/
theorem filter_isEntry_flatMap (severity : Severity) (groups : List (Category × List Finding)) :
    (groups.flatMap fun group => heading severity group :: entries group.2).filter Sign.isEntry
      = entries (groups.flatMap (·.2)) := by
  have hentries (fs : List Finding) : (entries fs).filter Sign.isEntry = entries fs := List.filter_flatMap
  calc (groups.flatMap fun group => heading severity group :: entries group.2).filter Sign.isEntry
      = groups.flatMap fun group => (entries group.2).filter Sign.isEntry := List.filter_flatMap
    _ = groups.flatMap fun group => entries group.2 := by simp only [hentries]
    _ = entries (groups.flatMap (·.2)) := List.flatMap_assoc.symm

/-! ## The parts with the findings -/

/-- A part of a report lists the findings of a severity: each group under its heading with its findings in order, so
that the entries are those of all findings of the severity in the order of their categories, and the counts in the
headings add up to how many findings of the severity there are. -/
structure Lists (severity : Severity) (fs : List Finding) (part : List Text) : Prop where
  signs : signs part = (Finding.grouped severity fs).flatMap fun group => heading severity group :: entries group.2
  entries : (Report.signs part).filter Sign.isEntry = entries (Finding.sorted severity fs)
  counts : sumOf ((Finding.grouped severity fs).map (·.2.length)) = Finding.count severity fs

theorem lists_severityLines (severity : Severity) (fs : List Finding) :
    Lists severity fs (severityLines severity fs) where
  signs := signs_severityLines severity fs
  entries := by
    rw [signs_severityLines, filter_isEntry_flatMap, (Finding.grouping_grouped severity fs).members]
  counts := by
    rw [← Reviewer.length_flatMap_eq_sumOf, (Finding.grouping_grouped severity fs).members, Finding.sorted,
      List.length_mergeSort, Finding.count]

/-- The lines above the findings. -/
def above (r : Report) : List Text :=
  banner ("VALIDATION REPORT: " ++ r.title) ++ r.summaryLines ++ r.comparisonLines
  ++ distributionLines "FLOW DISTRIBUTION" r.flows
  ++ distributionLines "FILE TYPE DISTRIBUTION" r.roles
  ++ distributionLines "FRAMEWORK DISTRIBUTION" r.frameworks

/-- The lines below the findings. -/
def below (r : Report) : List Text :=
  banner "SUGGESTED CORRECTIONS" ++ suggestionLines r.findings
  ++ banner "FINAL VERDICT"
  ++ ["ACCURACY: " ++ onePlace r.accuracy ++ "% - " ++ r.verdict.label, r.verdict.advice]

theorem lines_eq (r : Report) :
    r.lines = r.above ++ (severityLines .error r.findings ++ (severityLines .warning r.findings ++ r.below)) := by
  simp only [lines, above, below, List.append_assoc]

theorem newline_not_mem_findingLines {f : Finding} (hpath : '\n' ∉ f.path) (hmessage : '\n' ∉ f.message) :
    ∀ l ∈ findingLines f, '\n' ∉ l := by
  have hfile : '\n' ∉ f.file := fun h => hpath ((lastPiece_isInfix '/' f.path).subset h)
  rw [findingLines, List.forall_mem_append, List.forall_mem_append]
  refine ⟨⟨by simp [hfile], ?_⟩, by simp [hmessage]⟩
  split
  · simp [hpath]
  · simp

theorem newline_not_mem_groupLines {severity : Severity} {group : Category × List Finding}
    (h : ∀ f ∈ group.2, '\n' ∉ f.path ∧ '\n' ∉ f.message) : ∀ l ∈ groupLines (noun severity) group, '\n' ∉ l := by
  have hlabel : '\n' ∉ group.1.label := by cases group.1 <;> decide
  have hnoun : '\n' ∉ noun severity := by cases severity <;> decide
  have hsubrule : '\n' ∉ subrule := by decide
  rw [groupLines, List.forall_mem_append]
  constructor
  · simp [hlabel, hnoun, hsubrule, newline_not_mem_decimal]
  · intro l hl
    obtain ⟨f, hf, hl⟩ := List.mem_flatMap.mp hl
    exact newline_not_mem_findingLines (h f hf).1 (h f hf).2 l hl

theorem newline_not_mem_severityLines {severity : Severity} {fs : List Finding}
    (h : ∀ f ∈ fs, '\n' ∉ f.path ∧ '\n' ∉ f.message) :
    ∀ l ∈ severityLines severity fs, '\n' ∉ l := by
  rw [severityLines_eq]
  split
  · cases severity <;> decide
  · rw [List.forall_mem_append]
    constructor
    · cases severity <;> decide
    · intro l hl
      obtain ⟨group, hgroup, hl⟩ := List.mem_flatMap.mp hl
      exact newline_not_mem_groupLines (fun f hf => h f (Finding.mem_of_mem_grouped hgroup hf)) l hl

/-! ## The written report -/

/-- The groups of findings lose and repeat nothing, and neither does the written report: between the lines above and the
lines below the findings, its lines are those of the two parts, errors first, and each part lists the findings of its
severity. -/
theorem text_lists_findings :
    (∀ severity fs, Finding.Grouping severity fs (Finding.grouped severity fs)) ∧
    ∀ r : Report, (∀ f ∈ r.findings, '\n' ∉ f.path ∧ '\n' ∉ f.message) →
      splitAt '\n' r.text = r.above.flatMap (splitAt '\n')
        ++ (severityLines .error r.findings ++ (severityLines .warning r.findings
        ++ (r.below.flatMap (splitAt '\n') ++ [[]]))) ∧
      ∀ severity, Lists severity r.findings (severityLines severity r.findings) := by
  refine ⟨Finding.grouping_grouped, fun r h => ⟨?_, fun severity => lists_severityLines severity r.findings⟩⟩
  have hparts (severity : Severity) :
      (severityLines severity r.findings).flatMap (splitAt '\n') = severityLines severity r.findings :=
    flatMap_splitAt_of_not_mem (newline_not_mem_severityLines h)
  have hsplit := splitAt_endLines_append r.lines []
  rw [List.append_nil] at hsplit
  rw [text, hsplit, lines_eq]
  simp only [List.flatMap_append, hparts, List.append_assoc]
  rfl

/-- Two errors about state around one about an interface, and a warning. -/
def interleaved : Report where
  title := "FULLSTACK"
  sections := 2
  totalChecks := 8
  errors := 3
  warnings := 1
  typeIssues := 0
  duplicates := 0
  accuracy := 225 / 4
  verdict := .needsImprovement
  comparison := none
  flows := {}
  roles := {}
  frameworks := {}
  findings := [.error .state "app/list.tsx" "first", .error .api "app/list.tsx" "second",
    .warning .flow "app/form.tsx" "third", .error .state "app/form.tsx" "fourth"]

theorem text_lists_findings_interleaved :
    (∀ f ∈ interleaved.findings, '\n' ∉ f.path ∧ '\n' ∉ f.message) ∧
    signs (severityLines .error interleaved.findings) = [
      .heading "API] (1 errors)", .file "list.tsx", .issue "second",
      .heading "STATE] (2 errors)", .file "list.tsx", .issue "first", .file "form.tsx", .issue "fourth"] ∧
    signs (severityLines .warning interleaved.findings) = [
      .heading "FLOW] (1 warnings)", .file "form.tsx", .issue "third"] := by
  have hfindings : ∀ f ∈ interleaved.findings, '\n' ∉ f.path ∧ '\n' ∉ f.message := by decide
  have hlists := (text_lists_findings.2 interleaved hfindings).2
  refine ⟨hfindings, ?_, ?_⟩
  · rw [(hlists .error).signs, Finding.grouped_eq]
    decide
  · rw [(hlists .warning).signs, Finding.grouped_eq]
    decide

end Report

end SourceArchive
