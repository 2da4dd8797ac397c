import SourceArchive.Proofs.Agreement
import SourceArchive.Proofs.Entries
import SourceArchive.Proofs.HintCount
import SourceArchive.Proofs.RoundTrip

/-!
# The state check on annotated archives

The check of state variables counts declarations in a body that hints were inserted into, and entries in a list that
quotes types from the code.  Both counts are those of the extraction if hints are harmless and types are balanced
(`Classifier.Countable`).  A hint can be put into the middle of a declaration, and then the check finds fault with
what the analysis wrote.
-/

namespace SourceArchive

open Text Layout AnnotatedSection Evidenced

/-! ## State variables in the annotation -/

theorem StateVariable.unbracketed_of_mem_allIn {code : Text} {v : StateVariable} (h : v ∈ allIn code) :
    ∀ c ∈ v.name, Unbracketed c := by
  obtain ⟨m, hm, rfl⟩ := List.mem_map.mp h
  have hmatch : IsMatch declaration code m := Pattern.isMatch_of_mem_matchesIn hm
  have hword : ∀ a ∈ declaration.capturedAs 1, a.Within fun c => isWordChar c = true := by
    intro a ha
    obtain rfl : a = Pattern.word := List.mem_singleton.mp ha
    exact ⟨fun x hx => hx, fun x hx => hx⟩
  have hbrackets : ['(', '[', '{', '<', ')', ']', '}', '>', ','].any isWordChar = false := by decide
  intro c hc hbracket
  rw [ofDeclaration_name] at hc
  exact List.any_eq_false.mp hbrackets c hbracket (hmatch.group_within hword c hc)

namespace AnalyzedSection

/-- What the reader of annotated archives finds of the state variables of a section. -/
structure Recounted (s : AnalyzedSection) (r : AnnotatedSection) : Prop where
  declared : stateDeclarations r.code = stateDeclarations (joinLines (Hint.insert s.metadata.state s.source.body))
  listed : r.field? "State" = some (Layout.list (s.metadata.state.map fun v => v.name ++ ":" ++ v.type))

/-- The lines `trail` above the next marker end the body of a section as it is read. -/
theorem recounted_ofChunk {s : AnalyzedSection} (h : s.Avoids '\n')
    (hb : ∀ l ∈ s.source.body, statesMetadata l.trim = false) (m : Text) {trail : List Text}
    (ht : trail = [] ∨ trail = lead) : s.Recounted (ofChunk ⟨m, s.below.flatMap rows ++ trail⟩) := by
  have htrail : ∀ l ∈ trail, statesMetadata l.trim = false := by
    rcases ht with rfl | rfl
    · simp
    · decide
  have hbarred : Barred (led trail) := by
    rcases ht with rfl | rfl
    · exact barred_of_blank (by simp [led, Blank])
    · exact barred_blank_slash (b := ['\n', '\n']) (by simp [Blank, isBlank]) _
  have hsilent : stateDeclaration.places (led trail) [] = 0 := by
    rcases ht with rfl | rfl
    · rfl
    · exact places_eq_zero_of_not_mem (by decide) []
  obtain ⟨hmeta, hbody⟩ := h.ofChunk_below hb m htrail
  refine ⟨?_, ?_⟩
  · rw [AnnotatedSection.code, hbody, stateDeclarations_joinLines, stateDeclarations_joinLines, led_append, led_append,
      Pattern.places_append, places_eq_zero_of_not_mem (by decide), Nat.zero_add, Pattern.places_append, hsilent, Nat.add_zero,
      List.append_nil, places_barred hbarred]
    exact places_map_dropReturn [] _
  · have hfield : ("State".toList, Layout.list (s.metadata.state.map fun v => v.name ++ ":" ++ v.type)) ∈
        metaFields.zip s.metadata.values := by
      simp [metaFields, Metadata.values]
    exact field?_of_metaLines hmeta hfield

end AnalyzedSection

/-! ## The check -/

namespace AnnotatedSection

variable {r : AnnotatedSection} {settings : CheckSettings}

theorem checkState_eq_nil (h : (r.field? "State").map listedEntries = some (stateDeclarations r.code)) :
    r.checkState settings = [] := by
  have hdistance (n : Nat) : distance n n = 0 := by simp [distance]
  rw [checkState, h, Option.getD_some, hdistance]
  by_cases hzero : stateDeclarations r.code = 0
  · simp [hzero]
  · simp [hzero]

theorem mem_checkState_of_mem_findings {f : Finding} (hflow : r.flow?.isSome = true)
    (hfields : ∀ name ∈ metaFields, (r.field? name).isSome = true) (h : f ∈ r.findings settings)
    (hf : f.category = .state) : f ∈ r.checkState settings := by
  simp only [findings, checkMetadata_eq_nil hfields, List.append_nil, List.mem_append] at h
  rcases h with (((((h | h) | h) | h) | h) | h) | h
  · simp [(flow_of_mem_checkFlow hflow h).1] at hf
  · exact h
  · simp [category_of_mem_checkApis h] at hf
  · simp [category_of_mem_checkContexts h] at hf
  · simp [category_of_mem_checkProps h] at hf
  · simp [category_of_mem_checkTypes h] at hf
  · simp [category_of_mem_checkTree h] at hf

end AnnotatedSection

/-! ## Reviews -/

/-- What a section has to be for its state variables to be counted as they were found: its header is written on the lines
it is meant to have, its own lines state no metadata, the types of its variables are balanced, and the hints for them are
harmless. -/
structure Classifier.Countable (c : Classifier) (s : Section) : Prop where
  name_no_marker : ¬ "FILE:".toList <+: s.fileName
  captures : c.CapturesUnbroken s
  stateless : ∀ l ∈ s.body, statesMetadata l.trim = false
  balanced : ∀ v ∈ StateVariable.allIn s.code, Balanced v.type
  hints : ∀ (i : Nat) (hi : i < s.body.length), Hint.mentionsState s.body[i] = true →
    ∀ v ∈ StateVariable.allIn s.code, Hint.fits s.body[i] v = true →
      Hint.Harmless (s.body.take i) (s.body.drop i) (Hint.line s.body[i] v)

theorem Classifier.CapturesUnbroken.of_nil {c : Classifier} {s : Section}
    (hendpoints : Endpoint.allIn c.settings.knownApiHost c.settings.placeholder s.code = [])
    (hmodules : Imports.modulesIn s.code = [])
    (hbindings : Imports.bindingsIn c.settings.ignoredDefaultImports s.code = []) : c.CapturesUnbroken s where
  endpoints := by simp [hendpoints]
  modules := by simp [hmodules]
  bindings := by simp [hbindings, DependencyTree.listed]

theorem Classifier.recounted_of_mem_allIn (c : Classifier) {archive : Text} (hp : c.settings.placeholder = "\x7bparam\x7d")
    (hname : ∀ s ∈ split archive, ¬ "FILE:".toList <+: s.fileName) (hc : ∀ s ∈ split archive, c.CapturesUnbroken s)
    (hb : ∀ s ∈ split archive, ∀ l ∈ s.body, statesMetadata l.trim = false) {r : AnnotatedSection}
    (hr : r ∈ allIn (c.enhance archive).text) :
    ∃ s ∈ split archive, (c.analyze s).Stated r ∧ (c.analyze s).Recounted r := by
  have hbounded : ∀ s ∈ split archive, (c.analyze s).Bounded :=
    fun s hs => (c.safe_of_mem_enhance hp hname _ (List.mem_map_of_mem hs)).bounded
  obtain ⟨s, hs, trail, htrail, rfl⟩ := c.exists_of_mem_allIn hbounded hr
  have havoids := (Classifier.avoids_analyze_iff (wellFormed_of_mem_split hs)).mpr (hc s hs)
  exact ⟨s, hs, (c.analyze s).stated_ofChunk _ trail, AnalyzedSection.recounted_ofChunk havoids (hb s hs) _ htrail⟩

namespace Reviewer

/-- A review of an annotated archive counts as many declarations in each section as its annotation lists, and finds no
fault with the state variables. -/
theorem review_counts_state (r : Reviewer) (c : Classifier) (archive title : Text)
    (hp : c.settings.placeholder = "\x7bparam\x7d") (h : ∀ s ∈ split archive, c.Countable s) :
    (∀ a ∈ allIn (c.enhance archive).text, (a.field? "State").map listedEntries = some (stateDeclarations a.code)) ∧
      ∀ f ∈ (r.review (c.enhance archive).text (some archive) title).findings, f.category ≠ .state := by
  have hname : ∀ s ∈ split archive, ¬ "FILE:".toList <+: s.fileName := fun s hs => (h s hs).name_no_marker
  have hread {a : AnnotatedSection} (ha : a ∈ allIn (c.enhance archive).text) :
      ∃ s ∈ split archive, (c.analyze s).Stated a ∧ (c.analyze s).Recounted a :=
    c.recounted_of_mem_allIn hp hname (fun s hs => (h s hs).captures) (fun s hs => (h s hs).stateless) ha
  have hcounts : ∀ a ∈ allIn (c.enhance archive).text,
      (a.field? "State").map listedEntries = some (stateDeclarations a.code) := by
    intro a ha
    obtain ⟨s, hs, -, hrecounted⟩ := hread ha
    have hlisted := listedEntries_list (fun v hv => StateVariable.unbracketed_of_mem_allIn hv) (h s hs).balanced
    have hdeclared := Hint.stateDeclarations_insert (h s hs).hints
    rw [hrecounted.listed, Option.map_some, hrecounted.declared]
    refine congrArg some (hlisted.trans ?_)
    rw [length_allIn]
    exact hdeclared.symm
  refine ⟨hcounts, fun f hf hstate => ?_⟩
  have hpaths : markerPaths (c.enhance archive).text = markerPaths archive := c.markerPaths_enhance hp hname
  rw [r.findings_review title hpaths, List.mem_append] at hf
  rcases hf with hf | hf
  · rw [PathCheck.category_of_mem_duplicates hf] at hstate
    exact absurd hstate (by decide)
  · obtain ⟨a, ha, hf⟩ := List.mem_flatMap.mp hf
    obtain ⟨s, -, hstated, -⟩ := hread ha
    have hfields : ∀ name ∈ metaFields, (a.field? name).isSome = true := hstated.fields
    have hmem := mem_checkState_of_mem_findings (by rw [hstated.flow, Option.isSome_some]) hfields hf hstate
    rw [checkState_eq_nil (hcounts a ha)] at hmem
    exact absurd hmem List.not_mem_nil

/-- An archive whose hints quote a type with commas and an arrow, and an initializer with a declaration in it. -/
def quotedState : Text :=
  "// FILE: P.tsx\nconst [f, setF] = useState<(a: A, b: B) => C>(g);\nconst [x, setX] = useState(() => \x7b\nconst y = 0;\nreturn y;\n\x7d);\n"

theorem review_counts_state_quotedState : ∃ (r : Reviewer) (c : Classifier), r.settings = {} ∧ c.settings = {} ∧
    (split quotedState).map (fun s => (StateVariable.allIn s.code).map (·.type)) =
      [["(a: A, b: B) => C".toList, "() => \x7b const y = 0; return y; \x7d".toList]] ∧
    ∀ f ∈ (r.review (c.enhance quotedState).text (some quotedState) "t").findings, f.category ≠ .state := by
  obtain ⟨r, hr⟩ := exists_default_reviewer
  obtain ⟨c, hc⟩ := exists_default_classifier
  have hplain : ∀ s ∈ split quotedState, ¬ "FILE:".toList <+: s.fileName ∧
      ∀ l ∈ s.body, statesMetadata l.trim = false := by decide +kernel
  have hbalanced : ∀ s ∈ split quotedState, ∀ v ∈ StateVariable.allIn s.code, Balanced v.type := by decide +kernel
  have hhints : ∀ s ∈ split quotedState, ∀ (i : Nat) (hi : i < s.body.length),
      Hint.mentionsState s.body[i] = true → ∀ v ∈ StateVariable.allIn s.code, Hint.fits s.body[i] v = true →
        Hint.Harmless (s.body.take i) (s.body.drop i) (Hint.line s.body[i] v) := by decide +kernel
  have hendpoints : ∀ s ∈ split quotedState, Endpoint.allIn ({} : AnalysisSettings).knownApiHost
      ({} : AnalysisSettings).placeholder s.code = [] := by decide +kernel
  have hmodules : ∀ s ∈ split quotedState, Imports.modulesIn s.code = [] := by decide +kernel
  have hbindings : ∀ s ∈ split quotedState,
      Imports.bindingsIn ({} : AnalysisSettings).ignoredDefaultImports s.code = [] := by decide +kernel
  have hcountable : ∀ s ∈ split quotedState, c.Countable s := by
    intro s hs
    obtain ⟨hname, hstateless⟩ := hplain s hs
    have hcaptures : c.CapturesUnbroken s :=
      .of_nil (by rw [hc, hendpoints s hs]) (hmodules s hs) (by rw [hc, hbindings s hs])
    exact ⟨hname, hcaptures, hstateless, hbalanced s hs, hhints s hs⟩
  have htypes : (split quotedState).map (fun s => (StateVariable.allIn s.code).map (·.type)) =
      [["(a: A, b: B) => C".toList, "() => \x7b const y = 0; return y; \x7d".toList]] := by decide +kernel
  exact ⟨r, c, hr, hc, htypes, (r.review_counts_state c quotedState "t" (by rw [hc]) hcountable).2⟩

/-- A declaration that begins above the line that takes its hint. -/
def partedState : Text := "// FILE: a.tsx\nconst\n[a, setA] = useState(0);\n"

/-- The hint stands within the declaration, and the check no longer sees it. -/
theorem not_review_counts_state : ¬ ∀ (r : Reviewer) (c : Classifier) (archive title : Text),
    r.settings = {} → c.settings = {} → (∀ s ∈ split archive, ∀ l ∈ s.body, statesMetadata l.trim = false) →
      ∀ f ∈ (r.review (c.enhance archive).text (some archive) title).findings, f.category ≠ .state := by
  intro h
  obtain ⟨r, hr⟩ := exists_default_reviewer
  obtain ⟨c, hc⟩ := exists_default_classifier
  have hplaceholder : c.settings.placeholder = "\x7bparam\x7d" := by rw [hc]
  have hname : ∀ s ∈ split partedState, ¬ "FILE:".toList <+: s.fileName := by decide
  have hstateless : ∀ s ∈ split partedState, ∀ l ∈ s.body, statesMetadata l.trim = false := by decide
  have hcounts : ∀ s ∈ split partedState,
      stateDeclarations (joinLines (Hint.insert (StateVariable.allIn s.code) s.body)) = 0 ∧
        listedEntries (Layout.list ((StateVariable.allIn s.code).map fun v => v.name ++ ":" ++ v.type)) = 1 := by
    decide +kernel
  have hendpoints : ∀ s ∈ split partedState, Endpoint.allIn ({} : AnalysisSettings).knownApiHost
      ({} : AnalysisSettings).placeholder s.code = [] := by decide +kernel
  have hmodules : ∀ s ∈ split partedState, Imports.modulesIn s.code = [] := by decide +kernel
  have hbindings : ∀ s ∈ split partedState,
      Imports.bindingsIn ({} : AnalysisSettings).ignoredDefaultImports s.code = [] := by decide +kernel
  have hcaptures : ∀ s ∈ split partedState, c.CapturesUnbroken s := fun s hs =>
    .of_nil (by rw [hc, hendpoints s hs]) (hmodules s hs) (by rw [hc, hbindings s hs])
  have hpaths : markerPaths (c.enhance partedState).text = markerPaths partedState :=
    c.markerPaths_enhance hplaceholder hname
  obtain ⟨a, ha⟩ : ∃ a, a ∈ allIn (c.enhance partedState).text := by
    apply List.exists_mem_of_ne_nil
    intro hnil
    have hlength := congrArg List.length ((AnnotatedSection.map_path_allIn _).trans hpaths)
    rw [hnil] at hlength
    exact absurd hlength (by decide)
  obtain ⟨s, hs, -, hdeclared, hlisted⟩ := c.recounted_of_mem_allIn hplaceholder hname hcaptures hstateless ha
  obtain ⟨hnone, hone⟩ := hcounts s hs
  have hfound : a.checkState r.settings = [.error .state a.path
      ("META: State lists ".toList ++ decimal 1 ++ " vars but code has no useState/useReducer".toList)] := by
    have hlist : (a.field? "State").map listedEntries = some 1 := by
      rw [hlisted, Option.map_some]
      exact congrArg some hone
    have hcode : stateDeclarations a.code = 0 := hdeclared.trans hnone
    rw [checkState, hlist, hcode]
    rfl
  have hmem : ∀ f ∈ a.checkState r.settings, f ∈ (r.review (c.enhance partedState).text (some partedState) "t").findings := by
    intro f hf
    rw [r.findings_review "t" hpaths]
    refine List.mem_append_right _ (List.mem_flatMap.mpr ⟨a, ha, ?_⟩)
    simp [findings, hf]
  rw [hfound] at hmem
  exact h r c partedState "t" hr hc hstateless _ (hmem _ List.mem_cons_self) rfl

end Reviewer

end SourceArchive
