import SourceArchive.Proofs.Bindings
import SourceArchive.Proofs.Sections

/-!
# Annotation keeps the boundaries of sections

An annotated archive has the same sections as the archive that it was made from.  What is written above a body can
hold line feeds that were captured in code.  A row behind such a line feed is no marker, since no line of the body
is one and what is written around the captured texts completes none.

The name of the file is taken for the first line of a dependency tree if the code defines nothing, and there it
could complete a marker.
-/

namespace SourceArchive

open Text Layout

/-! ## Values of metadata fields -/

namespace Metadata

/-- There is a line for each field. -/
theorem exists_value {m : Metadata} {f : Text} (h : f ∈ metaFields) : ∃ v, (f, v) ∈ metaFields.zip m.values := by
  have hfst : (metaFields.zip m.values).map (·.1) = metaFields := rfl
  rw [← hfst] at h
  obtain ⟨⟨_, v⟩, hmem, rfl⟩ := List.mem_map.mp h
  exact ⟨v, hmem⟩

/-- There is a line for each value. -/
theorem exists_field {m : Metadata} {v : Text} (h : v ∈ m.values) : ∃ f, (f, v) ∈ metaFields.zip m.values := by
  have hsnd : (metaFields.zip m.values).map (·.2) = m.values := rfl
  rw [← hsnd] at h
  obtain ⟨⟨f, _⟩, hmem, rfl⟩ := List.mem_map.mp h
  exact ⟨f, hmem⟩

/-- The values of the fields other than endpoints and imports hold no line feeds. -/
structure Plain (m : Metadata) : Prop where
  state : ∀ v ∈ m.state, '\n' ∉ v.name ∧ '\n' ∉ v.type
  props : ∀ x ∈ m.props, '\n' ∉ x
  contexts : ∀ x ∈ m.contexts, '\n' ∉ x

theorem not_mem_role (r : Role) : '\n' ∉ r.label := by cases r <;> decide

theorem not_mem_flow (f : Flow) : '\n' ∉ f.label := by cases f <;> decide

theorem not_mem_framework (f : Framework) : '\n' ∉ f.label := by cases f <;> decide

theorem unmarked_of_mem_values {m : Metadata} (hm : m.Plain) (he : ∀ e ∈ m.endpoints, Unmarked e.label)
    (hi : ∀ x ∈ m.imports, Unmarked x) {v : Text} (hv : v ∈ m.values) : Unmarked v := by
  have hlist {items : List Text} (h : ∀ x ∈ items, '\n' ∉ x) : Unmarked (Layout.list items) :=
    .list fun x hx => unmarked_of_not_mem (h x hx)
  simp only [values, List.mem_cons, List.not_mem_nil, or_false] at hv
  rcases hv with rfl | rfl | rfl | rfl | rfl | rfl | rfl | rfl
  · exact unmarked_of_not_mem (not_mem_role _)
  · exact unmarked_of_not_mem (not_mem_flow _)
  · exact unmarked_of_not_mem (not_mem_framework _)
  · refine hlist fun x hx => ?_
    obtain ⟨v, hv, rfl⟩ := List.mem_map.mp hx
    obtain ⟨hn, ht⟩ := hm.state v hv
    simp [hn, ht]
  · exact hlist hm.props
  · exact hlist hm.contexts
  · refine .list fun x hx => ?_
    obtain ⟨e, hin, rfl⟩ := List.mem_map.mp hx
    exact he e hin
  · exact .list hi

/-- A metadata line is no marker, and neither is a row that its value breaks it into. -/
theorem markerless_of_mem_lines {m : Metadata} (hm : ∀ v ∈ m.values, Unmarked v) {l : Text} (hl : l ∈ m.lines) :
    Markerless l := by
  rw [lines_eq_map] at hl
  obtain ⟨⟨field, value⟩, hzip, rfl⟩ := List.mem_map.mp hl
  obtain ⟨hfield, hvalue⟩ := List.of_mem_zip hzip
  have hf : ∀ f ∈ metaFields, '\n' ∉ " ".toList ++ f ++ ": ".toList := by decide
  have hx : Unmarked (" ".toList ++ field ++ ": ".toList ++ value) := .prepend (hf field hfield) (hm value hvalue)
  have hline := markerless_of_start foreign_metaStart hx
  simpa [metaLine] using hline

end Metadata

/-! ## Lines of a dependency tree -/

namespace DependencyTree

theorem mem_bucketLines {bs : List (Text × List Text)} {l : Text} (h : l ∈ bucketLines bs) :
    ∃ b ∈ bs, ∃ connector, (connector = treeBranch ∨ connector = treeLast) ∧
      l = "// " ++ connector ++ b.1 ++ ": " ++ Text.join ", " b.2 := by
  fun_induction bucketLines bs with
  | case1 => simp at h
  | case2 label items =>
    obtain rfl := List.mem_singleton.mp h
    exact ⟨_, List.mem_singleton_self _, treeLast, Or.inr rfl, rfl⟩
  | case3 label items rest _ ih =>
    rcases List.mem_cons.mp h with rfl | h
    · exact ⟨_, List.mem_cons_self, treeBranch, Or.inl rfl, rfl⟩
    · obtain ⟨b, hb, hl⟩ := ih h
      exact ⟨b, List.mem_cons_of_mem _ hb, hl⟩

theorem foreign_connector {connector : Text} (h : connector = treeBranch ∨ connector = treeLast) :
    Foreign ("// ".toList ++ connector) := by
  rcases h with rfl | rfl
  · exact ⟨⟨'/', _, rfl, rfl⟩, by decide, by decide, by decide⟩
  · exact ⟨⟨'/', _, rfl, rfl⟩, by decide, by decide, by decide⟩

/-- The labels of buckets. -/
def bucketLabels : List Text := ["hooks", "uses", "services", "libs"]

theorem mem_buckets {t : DependencyTree} {b : Text × List Text} (h : b ∈ t.buckets) :
    b.1 ∈ bucketLabels ∧ ∀ x ∈ b.2, x ∈ t.items := by
  refine ⟨?_, fun x hx => List.mem_flatMap.mpr ⟨b, h, hx⟩⟩
  have hall := (List.mem_filter.mp h).1
  simp only [List.mem_cons, List.not_mem_nil, or_false] at hall
  rcases hall with rfl | rfl | rfl | rfl <;> simp [bucketLabels]

theorem markerless_of_mem_lines {t : DependencyTree} (hn : '\n' ∉ t.name) (hf : ¬ "FILE:".toList <+: t.name)
    (hi : ∀ x ∈ t.items, Unmarked x) {l : Text} (hl : l ∈ t.lines) : Markerless l := by
  rcases List.mem_cons.mp hl with rfl | hl
  · apply markerless_of_not_mem
    · simpa using hn
    · rw [Bool.eq_false_iff, ne_eq, isMarker_iff]
      have hs : StartsInked ("// ".toList ++ t.name) := ⟨'/', _, rfl, rfl⟩
      rw [hs.trimStart_eq]
      change ¬ "// ".toList ++ "FILE:".toList <+: "// ".toList ++ t.name
      rwa [List.prefix_append_right_inj]
  · obtain ⟨⟨label, items⟩, hb, connector, hc, rfl⟩ := mem_bucketLines hl
    obtain ⟨hlabel, hitems⟩ := mem_buckets hb
    have hu : ∀ f ∈ bucketLabels, '\n' ∉ f ++ ": ".toList := by decide
    have hx : Unmarked (label ++ ": ".toList ++ Text.join ", " items) :=
      .prepend (hu label hlabel) (.join fun x hx => hi x (hitems x hx))
    have hline := markerless_of_start (foreign_connector hc) hx
    simpa using hline

end DependencyTree

/-! ## Hints -/

namespace Hint

/-- Insertion adds hints above lines and nothing else. -/
theorem mem_insert {unused : List StateVariable} {body : List Text} {l : Text} (h : l ∈ insert unused body) :
    l ∈ body ∨ ∃ above ∈ body, ∃ v ∈ unused, l = line above v := by
  induction body generalizing unused with
  | nil => simp [insert] at h
  | cons k rest ih =>
    have hrest {us : List StateVariable} (hsub : ∀ v ∈ us, v ∈ unused) (hl : l ∈ insert us rest) :
        l ∈ k :: rest ∨ ∃ above ∈ k :: rest, ∃ v ∈ unused, l = line above v := by
      rcases ih hl with hl | ⟨above, ha, v, hv, hl⟩
      · exact Or.inl (List.mem_cons_of_mem _ hl)
      · exact Or.inr ⟨above, List.mem_cons_of_mem _ ha, v, hsub v hv, hl⟩
    rw [insert] at h
    split at h
    · rcases List.mem_cons.mp h with rfl | h
      · exact Or.inl List.mem_cons_self
      · exact hrest (fun _ hv => hv) h
    · rename_i v hfind
      have hv : v ∈ unused := by
        split at hfind
        · exact List.mem_of_find?_eq_some hfind
        · simp at hfind
      rcases List.mem_cons.mp h with rfl | h
      · exact Or.inr ⟨k, List.mem_cons_self, v, hv, rfl⟩
      · rcases List.mem_cons.mp h with rfl | h
        · exact Or.inl List.mem_cons_self
        · exact hrest (fun _ hu => List.mem_of_mem_eraseP hu) h

theorem markerless_line {above : Text} {v : StateVariable} (ha : '\n' ∉ above) (hv : '\n' ∉ v.type) :
    Markerless (line above v) := by
  have hi : '\n' ∉ above.indentation := fun hm => ha ((List.takeWhile_prefix _).subset hm)
  have htype : '\n' ∉ typeStart := foreign_typeStart.unbroken
  apply markerless_of_not_mem
  · simp [line, hi, htype, hv]
  · have hf := foreign_typeStart.isMarker_eq_false (" ".toList ++ v.type)
    rw [Bool.eq_false_iff, ne_eq, isMarker_iff] at hf ⊢
    rw [line, List.append_assoc, List.append_assoc, trimStart_blank_append (blank_indentation above)]
    exact hf

end Hint

/-! ## Analyzed sections -/

namespace AnalyzedSection

/-- What is stated about a section leaves the boundaries of its annotation intact. -/
structure Safe (s : AnalyzedSection) : Prop where
  source : s.source.WellFormed
  plain : s.metadata.Plain
  endpoints : ∀ e ∈ s.metadata.endpoints, Unmarked e.label
  imports : ∀ x ∈ s.metadata.imports, Unmarked x
  name_unbroken : '\n' ∉ s.tree.name
  name_no_marker : ¬ "FILE:".toList <+: s.tree.name
  items : ∀ x ∈ s.tree.items, Unmarked x

theorem Safe.bounded {s : AnalyzedSection} (h : s.Safe) : s.Bounded := by
  refine ⟨h.source.trim_path, h.source.path_unbroken, fun l hl => ?_⟩
  have hvalues : ∀ v ∈ s.metadata.values, Unmarked v :=
    fun v hv => s.metadata.unmarked_of_mem_values h.plain h.endpoints h.imports hv
  simp only [below, List.mem_append, List.mem_cons, List.not_mem_nil, or_false] at hl
  rcases hl with ((((((rfl | rfl | rfl) | hl) | (rfl | rfl)) | hl) | rfl) | hl)
  · exact markerless_of_start (x := []) foreign_separatorLine (unmarked_of_not_mem (by simp))
  · have hx : Unmarked (" ".toList ++ s.metadata.flow.label) :=
      .prepend (by decide) (unmarked_of_not_mem (Metadata.not_mem_flow _))
    have hline := markerless_of_start foreign_flowStart hx
    simpa [flowLine] using hline
  · exact markerless_of_not_mem (by simp) (by decide)
  · exact Metadata.markerless_of_mem_lines hvalues hl
  · exact markerless_of_not_mem (by simp) (by decide)
  · exact markerless_of_start (x := []) foreign_treeHeader (unmarked_of_not_mem (by simp))
  · exact DependencyTree.markerless_of_mem_lines h.name_unbroken h.name_no_marker h.items hl
  · exact markerless_of_not_mem (by simp) (by decide)
  · rcases Hint.mem_insert hl with hl | ⟨above, ha, v, hv, rfl⟩
    · exact markerless_of_not_mem (h.source.body_unbroken l hl) (h.source.body_markerless l hl)
    · exact Hint.markerless_line (h.source.body_unbroken above ha) (h.plain.state v hv).2

end AnalyzedSection

namespace Classifier

/-- What a classifier finds out about a section of an archive is safe to write. -/
theorem safe_analyze {c : Classifier} (hp : c.settings.placeholder = "\x7bparam\x7d") {s : Section} (hs : s.WellFormed)
    (hname : ¬ "FILE:".toList <+: s.fileName) : (c.analyze s).Safe := by
  have hcode := hs.unmarked_code
  have hendpoints : ∀ e ∈ Endpoint.allIn c.settings.knownApiHost c.settings.placeholder s.code, Unmarked e.label := by
    intro e he
    rw [hp] at he
    exact Endpoint.unmarked_label (c := '\x7b') (r := "param\x7d".toList) (by decide) (by decide) (by decide) hcode he
  have hitems : ∀ x ∈ (c.analyze s).tree.items, Unmarked x := by
    intro x hx
    -- a bound name stands in the code as it is; the name of a called hook is a word
    rcases DependencyTree.mem_items_of.mp hx with hx | hx
    · obtain ⟨b, hb, rfl⟩ := DependencyTree.exists_of_mem_listed hx
      exact hcode.of_isInfix ((Imports.delimited_of_mem_bindingsIn hb).isInfix)
    · exact unmarked_of_not_mem (DependencyTree.not_mem_of_mem_calledHooks hx)
  exact {
    source := hs
    plain := {
      state := fun v hv => StateVariable.name_type_of_mem_allIn hv
      props := fun x hx => not_mem_of_isIdentifier (Props.isIdentifier_of_mem_allIn hx)
      contexts := fun x hx => Contexts.not_mem_of_mem_allIn hx }
    endpoints := hendpoints
    imports := fun x hx => hcode.of_isInfix (Imports.infix_of_mem_modulesIn hx)
    name_unbroken := DependencyTree.not_mem_displayName hs.path_unbroken _
    name_no_marker := DependencyTree.not_prefix_displayName hname _
    items := hitems }

theorem safe_of_mem_enhance (c : Classifier) {archive : Text} (hp : c.settings.placeholder = "\x7bparam\x7d")
    (hname : ∀ s ∈ split archive, ¬ "FILE:".toList <+: s.fileName) :
    ∀ s ∈ (c.enhance archive).sections, s.Safe := by
  intro a ha
  obtain ⟨s, hs, rfl⟩ := List.mem_map.mp ha
  exact safe_analyze hp (wellFormed_of_mem_split hs) (hname s hs)

end Classifier

theorem Enhanced.text_eq (e : Enhanced) : e.text = Text.endLines (e.sections.flatMap AnalyzedSection.lines) := by
  rw [Enhanced.text, Text.endLines, List.flatMap_assoc]
  rfl

/-- The marker lines of an annotated archive are those of the archive. -/
theorem Classifier.markerPaths_enhance (c : Classifier) {archive : Text}
    (hp : c.settings.placeholder = "\x7bparam\x7d") (hname : ∀ s ∈ split archive, ¬ "FILE:".toList <+: s.fileName) :
    markerPaths (c.enhance archive).text = markerPaths archive := by
  have hbounded : ∀ s ∈ (c.enhance archive).sections, s.Bounded :=
    fun s hs => (c.safe_of_mem_enhance hp hname s hs).bounded
  rw [← AnnotatedSection.map_path_allIn, AnnotatedSection.allIn, List.map_map, Enhanced.text_eq,
    AnalyzedSection.cut_text hbounded]
  change (AnalyzedSection.chunks (c.enhance archive).sections).map Chunk.path = _
  rw [AnalyzedSection.map_path_chunks hbounded, ← map_path_split archive]
  exact List.map_map

/-- The annotated archive has the sections of the archive: its marker lines, its splitter and the reader of annotated
archives all give the same paths in the same order. -/
theorem Classifier.enhance_keeps_paths (c : Classifier) (archive : Text)
    (hp : c.settings.placeholder = "\x7bparam\x7d") (hname : ∀ s ∈ split archive, ¬ "FILE:".toList <+: s.fileName) :
    markerPaths (c.enhance archive).text = markerPaths archive ∧
      (split (c.enhance archive).text).map (·.path) = markerPaths archive ∧
      (AnnotatedSection.allIn (c.enhance archive).text).map (·.path) = markerPaths archive := by
  have hkept := c.markerPaths_enhance hp hname
  exact ⟨hkept, (map_path_split _).trans hkept, (AnnotatedSection.map_path_allIn _).trans hkept⟩

/-- The default settings are in order. -/
theorem exists_default_classifier : ∃ c : Classifier, c.settings = {} := by
  have hok : (AnalysisSettings.read {} .backtracking).isOk = true := by decide +kernel
  rcases hread : AnalysisSettings.read {} .backtracking with fault | patterns
  · rw [hread] at hok
    contradiction
  · exact ⟨⟨.backtracking, {}, patterns, hread⟩, rfl⟩

/-- An archive whose first section gives an endpoint, a bound name and a module that hold line feeds. -/
def brokenFacts : Text :=
  "// FILE: src/a.ts\nfetch('/api/a\n// b')\nimport \x7bp, // c\n q\x7d from './x\ny'\n// FILE: a.ts\n"

theorem enhance_keeps_paths_of_brokenFacts : ∃ c : Classifier, c.settings = {} ∧
    markerPaths (c.enhance brokenFacts).text = ["src/a.ts".toList, "a.ts".toList] := by
  obtain ⟨c, hc⟩ := exists_default_classifier
  have hname : ∀ s ∈ split brokenFacts, ¬ "FILE:".toList <+: s.fileName := by decide
  have hpaths : markerPaths brokenFacts = ["src/a.ts".toList, "a.ts".toList] := by decide
  have hkept := c.enhance_keeps_paths brokenFacts (by rw [hc]) hname
  exact ⟨c, hc, hkept.1.trans hpaths⟩

end SourceArchive
