import SourceArchive.Proofs.Boundaries
import SourceArchive.Proofs.Reader
import SourceArchive.Proofs.Tallies
import SourceArchive.Review

/-!
# A review agrees with the analysis

The reviewer reads the annotated archive as text.  It finds the sections and labels that the analysis found, and
every field of every section, even if captured line feeds break the header into more lines or the body states
metadata of its own: the flow and the three labels are written first and on one line each, and a field that is
broken keeps its name on the first row.  Paths that occur more than once are reported as they occur in the archive.
-/

namespace SourceArchive

open Text Layout AnnotatedSection

/-! ## What a section states -/

namespace AnalyzedSection

/-- What the annotation of a section states whatever its facts are. -/
structure Stated (s : AnalyzedSection) (r : AnnotatedSection) : Prop where
  flow : r.flow? = some s.metadata.flow.label
  role : r.field? "Type" = some s.metadata.role.label
  framework : r.field? "Framework" = some s.metadata.framework.label
  fields : ∀ name ∈ metaFields, (r.field? name).isSome = true

/-- The fields that hold labels, which are written first. -/
def labelFields (m : Metadata) : List (Text × Text) :=
  [("Type", m.role.label), ("Flow", m.flow.label), ("Framework", m.framework.label)]

/-- The lines of these fields are read back as they are. -/
theorem rows_labelLines (m : Metadata) :
    ((labelFields m).map fun p => metaLine p.1 p.2).flatMap rows = (labelFields m).map fun p => metaLine p.1 p.2 := by
  apply flatMap_rows_of_not_mem
  intro l hl
  simp only [labelFields, List.map_cons, List.map_nil, List.mem_cons, List.not_mem_nil, or_false] at hl
  rcases hl with rfl | rfl | rfl
  · cases m.role <;> decide
  · cases m.flow <;> decide
  · cases m.framework <;> decide

theorem exists_sort_belowFlow (s : AnalyzedSection) (trail : List Text) : ∃ rest,
    (sort false (s.belowFlow.flatMap rows ++ trail)).1 =
      ((labelFields s.metadata).map fun p => trim (metaLine p.1 p.2)) ++ rest := by
  obtain ⟨others, hothers⟩ : ∃ others, s.belowFlow =
      ((labelFields s.metadata).map fun p => metaLine p.1 p.2) ++ others := ⟨_, rfl⟩
  have hfields : ∀ l ∈ (labelFields s.metadata).map fun p => metaLine p.1 p.2,
      statesMetadata l.trim = true ∧ l.trim ≠ treeHeader := by
    intro l hl
    obtain ⟨p, -, rfl⟩ := List.mem_map.mp hl
    exact statesMetadata_metaLine p.1 p.2
  rw [hothers, List.flatMap_append, rows_labelLines, List.append_assoc, sort_fields hfields, List.map_map]
  exact ⟨_, rfl⟩

/-- The first row of a metadata line states the field, however the value is broken. -/
theorem exists_row_metaLine {field : Text} (hf : field ∈ metaFields) (value : Text) :
    ∃ row ∈ rows (metaLine field value), ∃ first, row.trim = trim (metaLine field first) := by
  have hframe : ∀ f ∈ metaFields, '\n' ∉ metaStart ++ " ".toList ++ f ++ ": ".toList := by decide
  obtain ⟨first, others, hsplit⟩ := List.exists_cons_of_ne_nil (splitWhen_ne_nil (· == '\n') value)
  refine ⟨dropReturn (metaLine field first), ?_, first, trim_dropReturn _⟩
  rw [rows, metaLine, splitAt_append_of_not_mem (hframe field hf) hsplit]
  exact List.mem_cons_self

theorem stated_ofChunk (s : AnalyzedSection) (m : Text) (trail : List Text) :
    s.Stated (ofChunk ⟨m, s.below.flatMap rows ++ trail⟩) := by
  obtain ⟨hmeta, -⟩ := ofChunk_below s m trail
  obtain ⟨rest, hrest⟩ := exists_sort_belowFlow s trail
  have hlabel {name value : Text} (hn : name ∈ metaFields) (hl : (labelFields s.metadata).lookup name = some value)
      (ht : value.trim = value) : (ofChunk ⟨m, s.below.flatMap rows ++ trail⟩).field? name = some value := by
    have hfields : ∀ p ∈ labelFields s.metadata, p.1 ∈ metaFields := by
      simp only [labelFields, List.forall_mem_cons, List.not_mem_nil, false_implies, implies_true, and_true]
      decide
    rw [field?, hmeta, hrest, List.findSome?_cons, fieldOn?_flowLine]
    dsimp only
    rw [List.findSome?_append, findSome?_fieldOn? hn hfields, hl, Option.map_some, ht, Option.some_or]
  refine ⟨flow?_of_flowLine hmeta, ?_, ?_, ?_⟩
  · refine hlabel (by decide) rfl ?_
    cases s.metadata.role <;> decide
  · refine hlabel (by decide) rfl ?_
    cases s.metadata.framework <;> decide
  · intro name hn
    obtain ⟨value, hvalue⟩ := s.metadata.exists_value hn
    have hline : metaLine name value ∈ s.belowFlow := List.mem_append_left _ (List.mem_append_left _
      (List.mem_map_of_mem (f := fun p : Text × Text => metaLine p.1 p.2) hvalue))
    obtain ⟨row, hrow, first, htrim⟩ := exists_row_metaLine hn value
    have hstates : statesMetadata row.trim = true := by
      rw [htrim]
      exact (statesMetadata_metaLine name first).1
    have hsorted := trim_mem_sort (List.mem_append_left trail (List.mem_flatMap.mpr ⟨_, hline, hrow⟩)) hstates false
    obtain ⟨hcolon, hinked⟩ := metaFields_spec hn
    rw [field?, hmeta, List.findSome?_isSome_iff]
    refine ⟨row.trim, List.mem_cons_of_mem _ hsorted, ?_⟩
    rw [htrim, fieldOn?_metaLine hcolon hcolon hinked]
    simp

end AnalyzedSection

/-! ## What the checks find -/

/-- A finding that says nothing against the structure of an annotated archive. -/
def Finding.Local (f : Finding) : Prop :=
  f.category ∈ [.api, .context, .deps, .props, .state, .type] ∨ f.category = .flow ∧ f.severity = .warning

theorem Finding.Local.spec {f : Finding} (h : f.Local) : f.category ≠ .metadata ∧
    ¬ (f.category = .flow ∧ f.severity = .error) ∧ f.category ≠ .missing ∧ f.category ≠ .extra ∧
      f.category ≠ .duplicate := by
  rcases h with h | ⟨hc, hs⟩
  · simp only [List.mem_cons, List.not_mem_nil, or_false] at h
    rcases h with h | h | h | h | h | h <;> simp [h]
  · simp [hc, hs]

namespace AnnotatedSection

variable {s : AnnotatedSection} {settings : CheckSettings} {f : Finding}

theorem eq_of_mem_ite {p : Prop} [Decidable p] {e : Finding} (h : f ∈ if p then [e] else []) : f = e := by
  split at h
  · exact List.mem_singleton.mp h
  · simp at h

/-- A stated flow can be doubted, but it is not missed. -/
theorem flow_of_mem_checkFlow (hflow : s.flow?.isSome = true) (h : f ∈ s.checkFlow settings) :
    f.category = .flow ∧ f.severity = .warning := by
  obtain ⟨label, hlabel⟩ := Option.isSome_iff_exists.mp hflow
  simp only [checkFlow, keywordFindings, hlabel] at h
  split at h
  · rw [eq_of_mem_ite h]
    exact ⟨rfl, rfl⟩
  · rw [eq_of_mem_ite h]
    exact ⟨rfl, rfl⟩
  · rw [eq_of_mem_ite h]
    exact ⟨rfl, rfl⟩
  · simp at h

theorem checkMetadata_eq_nil (h : ∀ name ∈ metaFields, (s.field? name).isSome = true) : s.checkMetadata = [] := by
  have hnone : metaFields.filter (fun name => (s.field? name).isNone) = [] := by
    rw [List.filter_eq_nil_iff]
    intro name hn
    simp [Option.isNone_iff_eq_none, Option.isSome_iff_ne_none.mp (h name hn)]
  rw [checkMetadata, hnone, List.map_nil]

theorem category_of_mem_checkState (h : f ∈ s.checkState settings) : f.category = .state := by
  simp only [checkState] at h
  split at h
  · rw [List.mem_singleton.mp h]
    rfl
  · split at h
    · rw [List.mem_singleton.mp h]
      rfl
    · rw [eq_of_mem_ite h]
      rfl

theorem category_of_mem_checkApis (h : f ∈ s.checkApis) : f.category = .api := by
  rw [eq_of_mem_ite h]
  rfl

theorem category_of_mem_checkContexts (h : f ∈ s.checkContexts settings) : f.category = .context := by
  rw [eq_of_mem_ite h]
  rfl

theorem category_of_mem_checkProps (h : f ∈ s.checkProps) : f.category = .props := by
  rw [eq_of_mem_ite h]
  rfl

theorem category_of_mem_checkTypes (h : f ∈ s.checkTypes settings) : f.category = .type := by
  obtain ⟨hint, -, rfl⟩ := List.mem_map.mp h
  rfl

theorem category_of_mem_checkTree (h : f ∈ s.checkTree settings) : f.category = .deps := by
  rw [eq_of_mem_ite h]
  rfl

/-- The checks of a section that states its flow and all fields find nothing against its structure. -/
theorem local_of_mem_findings (hflow : s.flow?.isSome = true)
    (hfields : ∀ name ∈ metaFields, (s.field? name).isSome = true) (h : f ∈ s.findings settings) : f.Local := by
  simp only [findings, checkMetadata_eq_nil hfields, List.append_nil, List.mem_append] at h
  rcases h with (((((h | h) | h) | h) | h) | h) | h
  · exact Or.inr (flow_of_mem_checkFlow hflow h)
  · exact Or.inl (by simp [category_of_mem_checkState h])
  · exact Or.inl (by simp [category_of_mem_checkApis h])
  · exact Or.inl (by simp [category_of_mem_checkContexts h])
  · exact Or.inl (by simp [category_of_mem_checkProps h])
  · exact Or.inl (by simp [category_of_mem_checkTypes h])
  · exact Or.inl (by simp [category_of_mem_checkTree h])

end AnnotatedSection

namespace PathCheck

theorem absent_self (paths : List Text) : absent paths paths = [] := by
  have hnone : paths.filter (!paths.contains ·) = [] := by
    rw [List.filter_eq_nil_iff]
    intro p hp
    simpa using hp
  rw [absent, hnone]
  rfl

theorem category_of_mem_duplicates {paths : List Text} {f : Finding} (h : f ∈ duplicates paths) :
    f.category = .duplicate := by
  obtain ⟨p, -, rfl⟩ := List.mem_map.mp h
  rfl

end PathCheck

/-! ## Reviews of annotated archives -/

namespace Reviewer

section Written

variable {ss : List AnalyzedSection} (h : ∀ s ∈ ss, s.Bounded)

include h

theorem allIn_eq_map_chunks :
    allIn (Text.endLines (ss.flatMap AnalyzedSection.lines)) = (AnalyzedSection.chunks ss).map ofChunk := by
  rw [allIn, AnalyzedSection.cut_text h]

/-- A label that every section states is counted as often as it was stated. -/
theorem labels_allIn {label : AnnotatedSection → Option Text} {stated : AnalyzedSection → Text}
    (hl : ∀ (s : AnalyzedSection) (r : AnnotatedSection), s.Stated r → label r = some (stated s)) :
    labels label (allIn (Text.endLines (ss.flatMap AnalyzedSection.lines))) = .ofList (ss.map stated) := by
  have hmap : (AnalyzedSection.chunks ss).map (fun c => (label (ofChunk c)).getD unlabeled) = ss.map stated := by
    apply AnalyzedSection.map_chunks
    intro s _ trail
    rw [hl s _ (s.stated_ofChunk _ trail), Option.getD_some]
  rw [labels, allIn_eq_map_chunks h, List.map_map, ← hmap]
  rfl

theorem local_of_mem_flatMap_findings {settings : CheckSettings} {f : Finding}
    (hf : f ∈ (allIn (Text.endLines (ss.flatMap AnalyzedSection.lines))).flatMap (·.findings settings)) : f.Local := by
  rw [allIn_eq_map_chunks h] at hf
  obtain ⟨r, hr, hf⟩ := List.mem_flatMap.mp hf
  obtain ⟨c, hc, rfl⟩ := List.mem_map.mp hr
  obtain ⟨s, -, trail, -, rfl⟩ := AnalyzedSection.exists_of_mem_chunks hc
  have hstated := s.stated_ofChunk (dropReturn s.marker) trail
  exact local_of_mem_findings (by rw [hstated.flow]; rfl) hstated.fields hf

end Written

/-- The findings of a review of an annotated archive: its duplicate paths, and findings of its sections. -/
theorem findings_review (r : Reviewer) {annotated plain : Text} (title : Text)
    (hpaths : markerPaths annotated = markerPaths plain) :
    (r.review annotated (some plain) title).findings =
      PathCheck.duplicates (markerPaths plain) ++ (allIn annotated).flatMap (·.findings r.settings) := by
  simp only [review, Option.map_some, Option.getD_some, hpaths, PathCheck.missing, PathCheck.extra,
    PathCheck.absent_self, List.map_nil, List.append_nil]

/-- A review of an annotated archive against the archive that it was made from counts what the analysis counted, finds
nothing against the structure of the annotation, and reports the duplicate paths of the archive. -/
theorem review_agrees (r : Reviewer) (c : Classifier) (archive title : Text)
    (hp : c.settings.placeholder = "\x7bparam\x7d") (hname : ∀ s ∈ split archive, ¬ "FILE:".toList <+: s.fileName) :
    let enhanced := c.enhance archive
    let report := r.review enhanced.text (some archive) title
    report.sections = enhanced.statistics.sections ∧ report.flows = enhanced.statistics.flows ∧
      report.roles = enhanced.statistics.roles ∧ report.frameworks = enhanced.statistics.frameworks ∧
      (∀ f ∈ report.findings, f.category ≠ .metadata ∧ ¬ (f.category = .flow ∧ f.severity = .error) ∧
        f.category ≠ .missing ∧ f.category ≠ .extra) ∧
      report.findings.filter (·.category = .duplicate) = PathCheck.duplicates (markerPaths archive) := by
  intro enhanced report
  have hbounded : ∀ s ∈ enhanced.sections, s.Bounded := fun s hs => (c.safe_of_mem_enhance hp hname s hs).bounded
  have htext : enhanced.text = Text.endLines (enhanced.sections.flatMap AnalyzedSection.lines) := enhanced.text_eq
  have hpaths : markerPaths enhanced.text = markerPaths archive := c.markerPaths_enhance hp hname
  have hfindings : report.findings = PathCheck.duplicates (markerPaths archive) ++
      (allIn enhanced.text).flatMap (·.findings r.settings) := r.findings_review title hpaths
  have hlocal : ∀ f ∈ (allIn enhanced.text).flatMap (·.findings r.settings), f.Local := by
    rw [htext]
    exact fun f hf => local_of_mem_flatMap_findings hbounded hf
  refine ⟨?_, ?_, ?_, ?_, ?_, ?_⟩
  · have hlength := congrArg List.length ((AnnotatedSection.map_path_allIn enhanced.text).trans hpaths)
    rw [← map_path_split archive, List.length_map, List.length_map] at hlength
    rw [Enhanced.statistics, Statistics.of_eq]
    change (allIn enhanced.text).length = (enhanced.sections.map (·.metadata)).length
    rw [hlength, List.length_map]
    exact (List.length_map _).symm
  · rw [Enhanced.statistics, Statistics.of_eq]
    change labels (·.flow?) (allIn enhanced.text) = .ofList ((enhanced.sections.map (·.metadata)).map (·.flow.label))
    rw [htext, labels_allIn hbounded fun s r hs => hs.flow, List.map_map]
    rfl
  · rw [Enhanced.statistics, Statistics.of_eq]
    change labels (·.field? "Type") (allIn enhanced.text) =
      .ofList ((enhanced.sections.map (·.metadata)).map (·.role.label))
    rw [htext, labels_allIn hbounded fun s r hs => hs.role, List.map_map]
    rfl
  · rw [Enhanced.statistics, Statistics.of_eq]
    change labels (·.field? "Framework") (allIn enhanced.text) =
      .ofList ((enhanced.sections.map (·.metadata)).map (·.framework.label))
    rw [htext, labels_allIn hbounded fun s r hs => hs.framework, List.map_map]
    rfl
  · intro f hf
    rw [hfindings, List.mem_append] at hf
    rcases hf with hf | hf
    · simp [PathCheck.category_of_mem_duplicates hf]
    · obtain ⟨hmetadata, hflow, hmissing, hextra, -⟩ := (hlocal f hf).spec
      exact ⟨hmetadata, hflow, hmissing, hextra⟩
  · have hdup : (PathCheck.duplicates (markerPaths archive)).filter (·.category = .duplicate) =
        PathCheck.duplicates (markerPaths archive) := by
      rw [List.filter_eq_self]
      exact fun f hf => by simp [PathCheck.category_of_mem_duplicates hf]
    have hrest : ((allIn enhanced.text).flatMap (·.findings r.settings)).filter (·.category = .duplicate) = [] := by
      rw [List.filter_eq_nil_iff]
      exact fun f hf => by simp [(hlocal f hf).spec]
    rw [hfindings, List.filter_append, hdup, hrest, List.append_nil]

end Reviewer

/-- Each section of an annotated archive is what was written about a section of the archive, and perhaps the lines above
the next marker. -/
theorem Classifier.exists_of_mem_allIn (c : Classifier) {archive : Text}
    (h : ∀ s ∈ split archive, (c.analyze s).Bounded) {r : AnnotatedSection} (hr : r ∈ allIn (c.enhance archive).text) :
    ∃ s ∈ split archive, ∃ trail, (trail = [] ∨ trail = AnalyzedSection.lead) ∧
      r = ofChunk ⟨dropReturn (c.analyze s).marker, (c.analyze s).below.flatMap rows ++ trail⟩ := by
  have hbounded : ∀ s ∈ (c.enhance archive).sections, s.Bounded := List.forall_mem_map.mpr h
  rw [Enhanced.text_eq, Reviewer.allIn_eq_map_chunks hbounded, List.mem_map] at hr
  obtain ⟨chunk, hchunk, rfl⟩ := hr
  obtain ⟨_, hanalyzed, trail, htrail, rfl⟩ := AnalyzedSection.exists_of_mem_chunks hchunk
  obtain ⟨s, hs, rfl⟩ := List.mem_map.mp hanalyzed
  exact ⟨s, hs, trail, htrail, rfl⟩

namespace Reviewer

/-- The default settings are in order. -/
theorem exists_default_reviewer : ∃ r : Reviewer, r.settings = {} := by
  have hcheck : CheckSettings.check {} = .ok () := by decide +kernel
  exact ⟨⟨{}, hcheck⟩, rfl⟩

/-- An archive with a path that occurs twice; the first body states a flow and a type of its own and breaks an
endpoint. -/
def statedTwice : Text :=
  "// FILE: a.ts\n// FLOW: VENDOR ONLY\n// META: Type: Hook\nfetch('/api/a\n// b')\n// FILE: a.ts\n"

theorem review_agrees_of_statedTwice : ∃ (r : Reviewer) (c : Classifier), r.settings = {} ∧ c.settings = {} ∧
    (r.review (c.enhance statedTwice).text (some statedTwice) "t").findings.filter (·.category = .duplicate) =
      [.error .duplicate "a.ts" "File appears 2 times"] := by
  obtain ⟨r, hr⟩ := exists_default_reviewer
  obtain ⟨c, hc⟩ := exists_default_classifier
  have hname : ∀ s ∈ split statedTwice, ¬ "FILE:".toList <+: s.fileName := by decide
  have hduplicates : PathCheck.duplicates (markerPaths statedTwice) =
      [.error .duplicate "a.ts" "File appears 2 times"] := by decide
  obtain ⟨-, -, -, -, -, hfound⟩ := r.review_agrees c statedTwice "t" (by rw [hc]) hname
  exact ⟨r, c, hr, hc, hfound.trans hduplicates⟩

end Reviewer

end SourceArchive
