import SourceArchive.Proofs.Agreement
import SourceArchive.Proofs.Reader
import Mathlib.Data.List.Forall2

/-!
# A report is consistent with its findings

A report keeps its numbers in different ways: some are lengths of lists that are joined later, some are counted in the
joined list, and labels are counted section by section.  Whatever text is reviewed, they agree with the list of findings
(`Report.Consistent`), and the list has an order: what is wrong with paths comes first, and then section by section
what the eight checks found.
-/

namespace SourceArchive

open Text Layout AnnotatedSection

/-- The severity of a category's findings; a flow and a count of state variables can be wrong in both ways. -/
def Category.severity? : Category → Option Severity
  | api | context | duplicate | metadata | missing => some .error
  | deps | extra | props | type => some .warning
  | flow | state => none

/-- The categories of findings about a section, in the order of the checks. -/
def Category.checked : List Category := [.flow, .metadata, .state, .api, .context, .props, .type, .deps]

namespace Finding

/-- The findings of one category. -/
def ofCategory (category : Category) (fs : List Finding) : List Finding := fs.filter (·.category = category)

/-- All findings have one category, and its severity. -/
def AllOf (category : Category) (fs : List Finding) : Prop :=
  ∀ f ∈ fs, f.category = category ∧ ∀ v ∈ category.severity?, f.severity = v

theorem allOf_map {α : Type} {category : Category} {l : List α} {make : α → Finding}
    (h : ∀ a, (make a).category = category ∧ ∀ v ∈ category.severity?, (make a).severity = v) :
    AllOf category (l.map make) := List.forall_mem_map.mpr fun a _ => h a

theorem count_error_add_count_warning (fs : List Finding) : count .error fs + count .warning fs = fs.length := by
  induction fs with
  | nil => rfl
  | cons f fs ih =>
    rw [List.length_cons, ← ih]
    simp only [count, withSeverity, List.filter_cons]
    cases f.severity <;> simp <;> omega

theorem ofCategory_eq_self {category : Category} {fs : List Finding} (h : ∀ f ∈ fs, f.category = category) :
    ofCategory category fs = fs :=
  List.filter_eq_self.mpr fun f hf => decide_eq_true (h f hf)

theorem ofCategory_eq_nil {category : Category} {fs : List Finding} (h : ∀ f ∈ fs, f.category ≠ category) :
    ofCategory category fs = [] :=
  List.filter_eq_nil_iff.mpr fun f hf => by simp [h f hf]

theorem ofCategory_append (category : Category) (fs gs : List Finding) :
    ofCategory category (fs ++ gs) = ofCategory category fs ++ ofCategory category gs := List.filter_append _ _

theorem ofCategory_flatMap {α : Type} (category : Category) (l : List α) (found : α → List Finding) :
    ofCategory category (l.flatMap found) = l.flatMap fun a => ofCategory category (found a) := List.filter_flatMap

section Parts

variable {parts : List (Category × List Finding)} (h : ∀ p ∈ parts, ∀ f ∈ p.2, f.category = p.1)

include h

/-- Parts of different categories can be told apart again. -/
theorem ofCategory_flatMap_parts (hn : (parts.map (·.1)).Nodup) {p : Category × List Finding} (hp : p ∈ parts) :
    ofCategory p.1 (parts.flatMap (·.2)) = p.2 := by
  induction parts with
  | nil => simp at hp
  | cons q parts ih =>
    rw [List.map_cons, List.nodup_cons] at hn
    have hrest := fun x hx => h x (List.mem_cons_of_mem q hx)
    rw [List.flatMap_cons, ofCategory_append]
    rcases List.mem_cons.mp hp with rfl | hp
    · have hnone : ofCategory p.1 (parts.flatMap (·.2)) = [] := by
        refine ofCategory_eq_nil fun f hf he => hn.1 ?_
        obtain ⟨q, hq, hf⟩ := List.mem_flatMap.mp hf
        rw [← he, hrest q hq f hf]
        exact List.mem_map_of_mem hq
      rw [ofCategory_eq_self (h p List.mem_cons_self), hnone, List.append_nil]
    · have hnone : ofCategory p.1 q.2 = [] := by
        refine ofCategory_eq_nil fun f hf he => hn.1 ?_
        rw [← h q List.mem_cons_self f hf, he]
        exact List.mem_map_of_mem hp
      rw [hnone, List.nil_append]
      exact ih hrest hn.2 hp

/-- Findings come in the order of their parts. -/
theorem pairwise_flatMap {R : Category → Category → Prop} (hrefl : ∀ c, R c c) (hr : (parts.map (·.1)).Pairwise R) :
    (parts.flatMap (·.2)).Pairwise fun f g => R f.category g.category := by
  rw [List.pairwise_flatMap]
  constructor
  · intro p hp
    refine List.pairwise_of_forall_mem_list fun f hf g hg => ?_
    rw [h p hp f hf, h p hp g hg]
    exact hrefl _
  · refine (List.pairwise_map.mp hr).imp_of_mem ?_
    intro p q hp hq hpq f hf g hg
    rwa [h p hp f hf, h q hq g hg]

end Parts

end Finding

/-! ## The checks of a section -/

namespace AnnotatedSection

open Finding

variable {s : AnnotatedSection} {settings : CheckSettings}

/-! ### One category for each check -/

/-- There is at most one finding, of a category and about a path. -/
structure Single (category : Category) (path : Text) (fs : List Finding) : Prop where
  allOf : AllOf category fs
  path : ∀ f ∈ fs, f.path = path
  length_le : fs.length ≤ 1

theorem single_nil (category : Category) (path : Text) : Single category path [] := by
  constructor <;> simp [AllOf]

theorem single_singleton {category : Category} {path message : Text} {severity : Severity}
    (h : ∀ v ∈ category.severity?, severity = v) : Single category path [⟨category, severity, path, message⟩] := by
  refine ⟨?_, by simp, by simp⟩
  simpa [AllOf] using h

theorem single_ite {p : Prop} [Decidable p] {category : Category} {path : Text} {fs gs : List Finding}
    (hf : Single category path fs) (hg : Single category path gs) : Single category path (if p then fs else gs) := by
  split
  · exact hf
  · exact hg

theorem single_checkFlow : Single .flow s.path (s.checkFlow settings) := by
  rw [checkFlow]
  split
  · exact single_singleton (by decide)
  · dsimp only
    split
    · exact single_ite (single_singleton (by decide)) (single_nil _ _)
    · exact single_ite (single_singleton (by decide)) (single_nil _ _)
    · exact single_ite (single_singleton (by decide)) (single_nil _ _)
    · exact single_nil _ _

theorem single_checkState : Single .state s.path (s.checkState settings) :=
  single_ite (single_singleton (by decide)) (single_ite (single_singleton (by decide))
    (single_ite (single_singleton (by decide)) (single_nil _ _)))

theorem single_checkApis : Single .api s.path s.checkApis := single_ite (single_singleton (by decide)) (single_nil _ _)

theorem single_checkContexts : Single .context s.path (s.checkContexts settings) :=
  single_ite (single_singleton (by decide)) (single_nil _ _)

theorem single_checkProps : Single .props s.path s.checkProps := single_ite (single_singleton (by decide)) (single_nil _ _)

theorem single_checkTree : Single .deps s.path (s.checkTree settings) :=
  single_ite (single_singleton (by decide)) (single_nil _ _)

theorem checkMetadata_spec : AllOf .metadata s.checkMetadata ∧ ∀ f ∈ s.checkMetadata, f.path = s.path :=
  ⟨Finding.allOf_map fun _ => ⟨rfl, by simp [Finding.error, Category.severity?]⟩, List.forall_mem_map.mpr fun _ _ => rfl⟩

theorem checkTypes_spec :
    AllOf .type (s.checkTypes settings) ∧ ∀ f ∈ s.checkTypes settings, f.path = s.path :=
  ⟨Finding.allOf_map fun _ => ⟨rfl, by simp [Finding.warning, Category.severity?]⟩,
    List.forall_mem_map.mpr fun _ _ => rfl⟩

/-! ### All checks -/

/-- What each check found. -/
def parts (s : AnnotatedSection) (settings : CheckSettings) : List (Category × List Finding) := [
  (.flow, s.checkFlow settings), (.metadata, s.checkMetadata), (.state, s.checkState settings), (.api, s.checkApis),
  (.context, s.checkContexts settings), (.props, s.checkProps), (.type, s.checkTypes settings),
  (.deps, s.checkTree settings)]

theorem findings_eq_flatMap (s : AnnotatedSection) (settings : CheckSettings) :
    s.findings settings = (s.parts settings).flatMap (·.2) := by
  simp [findings, parts]

theorem spec_of_mem_parts : ∀ p ∈ s.parts settings, AllOf p.1 p.2 ∧ (∀ f ∈ p.2, f.path = s.path) ∧
    (p.1 ≠ .metadata → p.1 ≠ .type → p.2.length ≤ 1) := by
  have hsingle {category : Category} {fs : List Finding} (h : Single category s.path fs) :
      AllOf category fs ∧ (∀ f ∈ fs, f.path = s.path) ∧ (category ≠ .metadata → category ≠ .type → fs.length ≤ 1) :=
    ⟨h.allOf, h.path, fun _ _ => h.length_le⟩
  simp only [parts, List.forall_mem_cons, List.not_mem_nil, false_implies, implies_true, and_true]
  exact ⟨hsingle single_checkFlow, ⟨checkMetadata_spec.1, checkMetadata_spec.2, by simp⟩, hsingle single_checkState,
    hsingle single_checkApis, hsingle single_checkContexts, hsingle single_checkProps,
    ⟨checkTypes_spec.1, checkTypes_spec.2, by simp⟩, hsingle single_checkTree⟩

theorem category_of_mem_parts : ∀ p ∈ s.parts settings, ∀ f ∈ p.2, f.category = p.1 :=
  fun p hp f hf => ((spec_of_mem_parts p hp).1 f hf).1

/-- A finding about a section was made by one of the checks. -/
theorem spec_of_mem_findings {f : Finding} (h : f ∈ s.findings settings) : f.path = s.path ∧
    f.category ∈ Category.checked ∧ ∀ v ∈ f.category.severity?, f.severity = v := by
  have hkeys : (s.parts settings).map (·.1) = Category.checked := rfl
  rw [findings_eq_flatMap, List.mem_flatMap] at h
  obtain ⟨p, hp, hf⟩ := h
  obtain ⟨hall, hpath, -⟩ := spec_of_mem_parts p hp
  obtain ⟨hcategory, hseverity⟩ := hall f hf
  rw [hcategory, ← hkeys]
  exact ⟨hpath f hf, List.mem_map_of_mem hp, hseverity⟩

theorem ofCategory_findings {p : Category × List Finding} (hp : p ∈ s.parts settings) :
    ofCategory p.1 (s.findings settings) = p.2 := by
  rw [findings_eq_flatMap]
  exact ofCategory_flatMap_parts category_of_mem_parts (show Category.checked.Nodup by decide) hp

theorem exists_of_mem_sort {inTree : Bool} {ls : List Text} {k : Text} (h : k ∈ (sort inTree ls).1) :
    ∃ l ∈ ls, k = l.trim := by
  induction ls generalizing inTree with
  | nil => simp [sort] at h
  | cons l ls ih =>
    rw [sort] at h
    dsimp only at h
    split at h
    · rcases List.mem_cons.mp h with rfl | h
      · exact ⟨l, List.mem_cons_self, rfl⟩
      · obtain ⟨m, hm, rfl⟩ := ih h
        exact ⟨m, List.mem_cons_of_mem _ hm, rfl⟩
    · obtain ⟨m, hm, rfl⟩ := ih h
      exact ⟨m, List.mem_cons_of_mem _ hm, rfl⟩

/-- A flow is missed exactly if no line below the marker states one. -/
theorem flow?_ofChunk_eq_none_iff {c : Chunk} :
    (ofChunk c).flow? = none ↔ ∀ l ∈ c.lines, ¬ flowStart <+: l.trim := by
  have hmeta : (ofChunk c).metaLines = (sort false (c.lines.dropWhile isSeparator)).1 := rfl
  simp only [flow?, Option.map_eq_none_iff, List.findSome?_eq_none_iff, after?_eq_none_iff, hmeta]
  constructor
  · intro h l hl hflow
    have hkept : l ∈ c.lines.dropWhile isSeparator := by
      rw [← List.takeWhile_append_dropWhile (p := isSeparator) (l := c.lines), List.mem_append] at hl
      refine hl.resolve_left fun hsep => ?_
      have hsep := List.all_eq_true.mp List.all_takeWhile l hsep
      rw [isSeparator, startsWith_iff] at hsep
      exact (prefix_total hsep hflow).elim (by decide) (by decide)
    exact h _ (trim_mem_sort hkept (by simp [statesMetadata, hflow]) false) hflow
  · intro h k hk
    obtain ⟨l, hl, rfl⟩ := exists_of_mem_sort hk
    exact h l ((List.dropWhile_suffix _).subset hl)

theorem checkFlow_errors :
    (s.checkFlow settings).filter (·.isError) =
      if s.flow? = none then [.error .flow s.path "Missing FLOW label"] else [] := by
  rcases h : s.flow? with _ | label
  · simp [checkFlow, h, isError, Finding.error]
  · rw [if_neg (by simp), List.filter_eq_nil_iff]
    intro f hf
    simp [isError, (flow_of_mem_checkFlow (by simp [h]) hf).2]

end AnnotatedSection

/-! ## Reports -/

/-- What a review finds about the section of a chunk.  The order is that of the checks, and of findings that can be several
those about fields follow the order of the fields. -/
structure Chunk.Reviewed (c : Chunk) (fs : List Finding) : Prop where
  path : ∀ f ∈ fs, f.path = c.path
  category : ∀ f ∈ fs, f.category ∈ Category.checked
  ordered : fs.Pairwise fun f g => Category.checked.idxOf f.category ≤ Category.checked.idxOf g.category
  single : ∀ category ∈ [.flow, .state, .api, .context, .props, .deps],
    (Finding.ofCategory category fs).length ≤ 1
  flow : (Finding.ofCategory .flow fs).filter (·.isError) =
    if ∀ l ∈ c.lines, ¬ flowStart <+: l.trim then [.error .flow c.path "Missing FLOW label"] else []
  fields : Finding.ofCategory .metadata fs =
    (metaFields.filter fun name => ((ofChunk c).field? name).isNone).map fun name =>
      .error .metadata c.path ("Missing META field: " ++ name)

theorem AnnotatedSection.reviewed_findings (c : Chunk) (settings : CheckSettings) :
    c.Reviewed ((ofChunk c).findings settings) := by
  have hkeys : ((ofChunk c).parts settings).map (·.1) = Category.checked := rfl
  refine ⟨fun f hf => (spec_of_mem_findings hf).1, fun f hf => (spec_of_mem_findings hf).2.1, ?_, ?_, ?_, ?_⟩
  · rw [findings_eq_flatMap]
    refine Finding.pairwise_flatMap (R := fun a b => Category.checked.idxOf a ≤ Category.checked.idxOf b)
      category_of_mem_parts (fun _ => Nat.le_refl _) ?_
    rw [hkeys]
    decide
  · intro category hc
    have hchecked : ∀ category ∈ [.flow, .state, .api, .context, .props, .deps],
        category ∈ Category.checked ∧ category ≠ .metadata ∧ category ≠ .type := by decide
    obtain ⟨hmem, hmetadata, htype⟩ := hchecked category hc
    rw [← hkeys] at hmem
    obtain ⟨p, hp, rfl⟩ := List.mem_map.mp hmem
    rw [ofCategory_findings hp]
    exact (spec_of_mem_parts p hp).2.2 hmetadata htype
  · have hflow : (.flow, (ofChunk c).checkFlow settings) ∈ (ofChunk c).parts settings := by simp [parts]
    rw [ofCategory_findings hflow, checkFlow_errors]
    simp only [flow?_ofChunk_eq_none_iff]
    rfl
  · have hmetadata : (.metadata, (ofChunk c).checkMetadata) ∈ (ofChunk c).parts settings := by simp [parts]
    rw [ofCategory_findings hmetadata]
    rfl

/-- The numbers of a report are those of its findings, and the findings stand in order. -/
structure Report.Consistent (annotated : Text) (plain : Option Text) (r : Report) : Prop where
  errors : r.errors = (r.findings.filter (·.severity = .error)).length
  warnings : r.warnings = (r.findings.filter (·.severity = .warning)).length
  findings : r.errors + r.warnings = r.findings.length
  typeIssues : r.typeIssues = (Finding.ofCategory .type r.findings).length
  duplicates : r.duplicates = (Finding.ofCategory .duplicate r.findings).length
  comparison : ∀ c ∈ r.comparison, c.missing = (Finding.ofCategory .missing r.findings).length ∧
    c.extra = (Finding.ofCategory .extra r.findings).length
  compared : r.comparison.isSome = plain.isSome
  uncompared : r.comparison = none → ∀ f ∈ r.findings, f.category ≠ .missing ∧ f.category ≠ .extra
  sections : r.sections = (Chunk.cut annotated.lines).2.length
  flows : r.flows.total = r.sections
  roles : r.roles.total = r.sections
  frameworks : r.frameworks.total = r.sections
  severities : ∀ f ∈ r.findings, ∀ v ∈ f.category.severity?, f.severity = v
  order : ∃ (duplicates missing extra : List Finding) (blocks : List (List Finding)),
    r.findings = duplicates ++ missing ++ extra ++ blocks.flatten ∧
      (∀ f ∈ duplicates, f.category = .duplicate) ∧ (∀ f ∈ missing, f.category = .missing) ∧
      (∀ f ∈ extra, f.category = .extra) ∧ List.Forall₂ Chunk.Reviewed (Chunk.cut annotated.lines).2 blocks

namespace PathCheck

theorem allOf_duplicates (paths : List Text) : Finding.AllOf .duplicate (duplicates paths) :=
  Finding.allOf_map fun _ => ⟨rfl, by simp [Finding.error, Category.severity?]⟩

theorem allOf_missing (plain annotated : List Text) : Finding.AllOf .missing (missing plain annotated) :=
  Finding.allOf_map fun _ => ⟨rfl, by simp [Finding.error, Category.severity?]⟩

theorem allOf_extra (plain annotated : List Text) : Finding.AllOf .extra (extra plain annotated) :=
  Finding.allOf_map fun _ => ⟨rfl, by simp [Finding.warning, Category.severity?]⟩

end PathCheck

namespace Reviewer

variable (r : Reviewer) (annotated : Text) (plain : Option Text) (title : Text)

/-- What is found against the plain archive, if there is one. -/
def against (annotated : Text) (plain : Option Text) (find : List Text → List Text → List Finding) : List Finding :=
  ((plain.map markerPaths).map (find · (markerPaths annotated))).getD []

theorem allOf_against {category : Category} {find : List Text → List Text → List Finding}
    (h : ∀ a b, Finding.AllOf category (find a b)) : Finding.AllOf category (against annotated plain find) := by
  cases plain with
  | none => simp [Finding.AllOf, against]
  | some p => exact h _ _

/-- The findings about paths, and the category of each. -/
def pathParts (annotated : Text) (plain : Option Text) : List (Category × List Finding) := [
  (.duplicate, PathCheck.duplicates (markerPaths annotated)), (.missing, against annotated plain PathCheck.missing),
  (.extra, against annotated plain PathCheck.extra)]

theorem allOf_of_mem_pathParts : ∀ p ∈ pathParts annotated plain, Finding.AllOf p.1 p.2 := by
  simp only [pathParts, List.forall_mem_cons, List.not_mem_nil, false_implies, implies_true, and_true]
  exact ⟨PathCheck.allOf_duplicates _, allOf_against annotated plain PathCheck.allOf_missing,
    allOf_against annotated plain PathCheck.allOf_extra⟩

/-- No check of a section finds what is wrong with paths. -/
theorem unchecked_of_mem_pathParts {p : Category × List Finding} (hp : p ∈ pathParts annotated plain) :
    p.1 ∉ Category.checked := by
  have hkeys : ∀ c ∈ [.duplicate, .missing, .extra], c ∉ Category.checked := by decide
  exact hkeys p.1 (List.mem_map_of_mem (f := (·.1)) hp)

theorem findings_eq : (r.review annotated plain title).findings =
    (pathParts annotated plain).flatMap (·.2) ++ (allIn annotated).flatMap (·.findings r.settings) := by
  simp [review, pathParts, against]

/-- The findings of a category of paths are those that the check of paths made. -/
theorem ofCategory_review {p : Category × List Finding} (hp : p ∈ pathParts annotated plain) :
    Finding.ofCategory p.1 (r.review annotated plain title).findings = p.2 := by
  have hcategory : ∀ q ∈ pathParts annotated plain, ∀ f ∈ q.2, f.category = q.1 :=
    fun q hq f hf => (allOf_of_mem_pathParts annotated plain q hq f hf).1
  have hsections : Finding.ofCategory p.1 ((allIn annotated).flatMap (·.findings r.settings)) = [] := by
    refine Finding.ofCategory_eq_nil fun f hf he => ?_
    obtain ⟨s, -, hf⟩ := List.mem_flatMap.mp hf
    exact unchecked_of_mem_pathParts annotated plain hp (he ▸ (spec_of_mem_findings hf).2.1)
  rw [findings_eq, Finding.ofCategory_append, hsections, List.append_nil]
  exact Finding.ofCategory_flatMap_parts hcategory (show [Category.duplicate, .missing, .extra].Nodup by decide) hp

/-- The findings of any other category are those that its check made in the sections. -/
theorem ofCategory_review_of_check {category : Category} (hc : category ∈ Category.checked)
    {check : AnnotatedSection → List Finding} (h : ∀ s, (category, check s) ∈ s.parts r.settings) :
    Finding.ofCategory category (r.review annotated plain title).findings = (allIn annotated).flatMap check := by
  have hpaths : Finding.ofCategory category ((pathParts annotated plain).flatMap (·.2)) = [] := by
    refine Finding.ofCategory_eq_nil fun f hf he => ?_
    obtain ⟨p, hp, hf⟩ := List.mem_flatMap.mp hf
    rw [(allOf_of_mem_pathParts annotated plain p hp f hf).1] at he
    exact unchecked_of_mem_pathParts annotated plain hp (he ▸ hc)
  rw [findings_eq, Finding.ofCategory_append, hpaths, List.nil_append, Finding.ofCategory_flatMap]
  exact List.flatMap_congr fun s _ => ofCategory_findings (h s)

theorem severity_of_mem_review {f : Finding} (h : f ∈ (r.review annotated plain title).findings) :
    ∀ v ∈ f.category.severity?, f.severity = v := by
  rw [findings_eq, List.mem_append] at h
  rcases h with h | h
  · obtain ⟨p, hp, hf⟩ := List.mem_flatMap.mp h
    obtain ⟨hcategory, hseverity⟩ := allOf_of_mem_pathParts annotated plain p hp f hf
    rwa [hcategory]
  · obtain ⟨s, -, hf⟩ := List.mem_flatMap.mp h
    exact (spec_of_mem_findings hf).2.2

theorem total_labels (label : AnnotatedSection → Option Text) (ss : List AnnotatedSection) :
    (labels label ss).total = ss.length := by
  rw [labels, Distribution.total_ofList, List.length_map]

theorem length_flatMap_eq_sumOf {α β : Type} (l : List α) (f : α → List β) :
    (l.flatMap f).length = sumOf (l.map fun a => (f a).length) := by
  induction l with
  | nil => rfl
  | cons a l ih => rw [List.flatMap_cons, List.length_append, ih, List.map_cons, sumOf]

/-- Every report is consistent with its findings. -/
theorem review_consistent : (r.review annotated plain title).Consistent annotated plain := by
  have hduplicates : (.duplicate, PathCheck.duplicates (markerPaths annotated)) ∈ pathParts annotated plain := by
    simp [pathParts]
  have hmissing : (.missing, against annotated plain PathCheck.missing) ∈ pathParts annotated plain := by
    simp [pathParts]
  have hextra : (.extra, against annotated plain PathCheck.extra) ∈ pathParts annotated plain := by simp [pathParts]
  have hall := allOf_of_mem_pathParts annotated plain
  exact {
    errors := rfl
    warnings := rfl
    findings := Finding.count_error_add_count_warning _
    typeIssues := by
      have hcheck (s : AnnotatedSection) : (.type, s.checkTypes r.settings) ∈ s.parts r.settings := by simp [parts]
      rw [ofCategory_review_of_check r annotated plain title (by decide) hcheck, length_flatMap_eq_sumOf]
      rfl
    duplicates := by
      rw [ofCategory_review r annotated plain title hduplicates]
      rfl
    comparison := by
      rw [ofCategory_review r annotated plain title hmissing, ofCategory_review r annotated plain title hextra]
      cases plain with
      | none => simp [review]
      | some p => simp [review, against]
    compared := by simp [review]
    uncompared := by
      intro hnone f hf
      have hplain : plain = none := by simpa [review] using hnone
      subst hplain
      have hempty {category : Category} (hc : (category, []) ∈ pathParts annotated none) : f.category ≠ category := by
        intro he
        have hfound := ofCategory_review r annotated none title hc
        have hmem : f ∈ Finding.ofCategory category (r.review annotated none title).findings :=
          List.mem_filter.mpr ⟨hf, decide_eq_true he⟩
        rw [hfound] at hmem
        exact absurd hmem List.not_mem_nil
      exact ⟨hempty hmissing, hempty hextra⟩
    sections := List.length_map _
    flows := total_labels _ _
    roles := total_labels _ _
    frameworks := total_labels _ _
    severities := fun f hf => severity_of_mem_review r annotated plain title hf
    order := by
      refine ⟨PathCheck.duplicates (markerPaths annotated), against annotated plain PathCheck.missing,
        against annotated plain PathCheck.extra, (allIn annotated).map (·.findings r.settings), rfl,
        fun f hf => (hall _ hduplicates f hf).1, fun f hf => (hall _ hmissing f hf).1,
        fun f hf => (hall _ hextra f hf).1, ?_⟩
      rw [allIn, List.map_map, List.forall₂_map_right_iff, List.forall₂_same]
      exact fun c _ => AnnotatedSection.reviewed_findings c r.settings }

/-! ## The number of checks -/

/-- Of the product of sections and checks per section the lower 64 bits are kept. -/
theorem totalChecks_review : (r.review annotated plain title).totalChecks =
    (r.review annotated plain title).sections * r.settings.checksPerSection.toNat % 2 ^ 64 := by
  change (UInt64.ofNat (allIn annotated).length * r.settings.checksPerSection).toNat =
    (allIn annotated).length * r.settings.checksPerSection.toNat % 2 ^ 64
  rw [UInt64.toNat_mul, UInt64.toNat_ofNat', Nat.mod_mul_mod]

/-- The number of checks is right exactly if it fits into 64 bits. -/
theorem totalChecks_review_eq_iff : (r.review annotated plain title).totalChecks =
      (r.review annotated plain title).sections * r.settings.checksPerSection.toNat ↔
    (r.review annotated plain title).sections * r.settings.checksPerSection.toNat < 2 ^ 64 := by
  rw [totalChecks_review]
  constructor
  · intro h
    rw [← h]
    exact Nat.mod_lt _ (by decide)
  · exact Nat.mod_eq_of_lt

end Reviewer

end SourceArchive
