import SourceArchive.Check.Section
import SourceArchive.Proofs.RoundTrip

/-!
# What an empty field says

An empty list is written as `[none]`, and so is the list whose only item is the word `none`.  No other list is taken for
an empty one: items are never empty, and two items have a comma between them.  Endpoints begin with a slash or
in capitals, so for them the written form is unambiguous; a parameter, a context and a module can have that name, and
then the checks read that there is none.
-/

namespace SourceArchive

open Text Pattern Layout AnnotatedSection

/-! ## Written lists -/

theorem Layout.brackets_join_eq_iff {items : List Text} {x : Text} (hne : items ≠ []) (hx : ',' ∉ x) :
    "[".toList ++ Text.join ", " items ++ "]".toList = "[".toList ++ x ++ "]".toList ↔ items = [x] := by
  rw [List.append_cancel_right_eq, List.append_cancel_left_eq]
  constructor
  · intro h
    obtain ⟨a, rest, rfl⟩ := List.exists_cons_of_ne_nil hne
    cases rest with
    | nil => rw [← h, join_singleton]
    | cons b rest =>
      rw [← h, join_cons_cons] at hx
      exact absurd (by simp) hx
  · rintro rfl
    exact join_singleton _ _

/-- A written list reads as an empty one if it is empty, or if it has one item that is written like that. -/
theorem Layout.reads_empty_iff (items : List Text) :
    (Layout.list items = noneListed ∨ Layout.list items = "[]".toList) ↔
      items = [] ∨ items = ["none".toList] ∨ items = [[]] := by
  by_cases hne : items = []
  · simp [hne, Layout.list]
  · have hlist : Layout.list items = "[".toList ++ Text.join ", " items ++ "]".toList := by
      simp [Layout.list, hne]
    have hnone := brackets_join_eq_iff (x := "none") hne (by decide)
    have hempty := brackets_join_eq_iff (x := []) hne (by simp)
    rw [hlist, ← hnone, ← hempty]
    simp only [hne, false_or]
    rfl

/-! ## Items -/

theorem Contexts.ne_nil_of_mem_allIn {code x : Text} (h : x ∈ allIn code) : x ≠ [] := by
  rcases List.mem_append.mp (mem_distinct.mp h) with h | h
  · obtain ⟨m, hm, rfl⟩ := List.mem_map.mp h
    have hword : m.group 1 ∈ word.language := (isMatch_of_mem_matchesIn hm).group_mem_kept (by decide) rfl
    exact (mem_language_word.mp hword).1
  · obtain ⟨a, ha, rfl⟩ := List.mem_map.mp h
    have hall : ∀ a ∈ knownAccessors, a.context ≠ [] := by decide
    exact hall a (List.mem_filter.mp ha).1

theorem Imports.ne_nil_of_mem_modulesIn {code x : Text} (h : x ∈ modulesIn code) : x ≠ [] := by
  obtain ⟨p, -, hp⟩ := List.mem_flatMap.mp (mem_distinct.mp h)
  obtain ⟨m, -, hid⟩ := List.mem_filterMap.mp hp
  simp only [moduleId?, Option.ite_none_left_eq_some, Option.some.injEq] at hid
  obtain ⟨hno, rfl⟩ := hid
  rintro he
  exact hno (Or.inl (List.isEmpty_iff.mpr he))

namespace Endpoint

/-- The text begins with a slash. -/
def Rooted (t : Text) : Prop := ∃ r, t = '/' :: r

theorem rooted_of_mem_language {t w : Text} {ps : List Pattern} (h : w ∈ (sequence (lit ('/' :: t) :: ps)).language) :
    Rooted w := by
  rw [language_sequence_cons] at h
  obtain ⟨x, hx, y, -, rfl⟩ := Language.mem_mul.mp h
  rw [mem_language_lit.mp hx]
  exact ⟨t ++ y, rfl⟩

theorem rooted_of_mem_groupsIn {p : Pattern} (hp : p ∈ [fetchAppPath, fetchBaseAddress, axiosPath, axiosBaseAddress])
    {code path : Text} (h : path ∈ groupsIn p code) : Rooted path := by
  obtain ⟨m, hm, rfl⟩ := List.mem_map.mp h
  have hmatch := isMatch_of_mem_matchesIn hm
  simp only [List.mem_cons, List.not_mem_nil, or_false] at hp
  rcases hp with rfl | rfl | rfl | rfl
  · exact rooted_of_mem_language (hmatch.group_mem_kept (n := 1) (by decide) rfl)
  · exact rooted_of_mem_language (hmatch.group_mem_kept (n := 1) (by decide) rfl)
  · exact rooted_of_mem_language (hmatch.group_mem_kept (n := 1) (by decide) rfl)
  · exact rooted_of_mem_language (hmatch.group_mem_kept (n := 1) (by decide) rfl)

theorem rooted_of_mem_absoluteIn {code host path : Text} (h : (host, path) ∈ absoluteIn code) : Rooted path := by
  obtain ⟨m, hm, he⟩ := List.mem_map.mp h
  obtain ⟨-, rfl⟩ : m.group 1 = host ∧ m.group 2 = path := by simpa using he
  exact rooted_of_mem_language ((isMatch_of_mem_matchesIn hm).group_mem_kept (n := 2) (by decide) rfl)

/-- The slash in front is no interpolation. -/
theorem Rooted.normalize {path : Text} (h : Rooted path) (placeholder : Text) : Rooted (normalize placeholder path) := by
  obtain ⟨r, rfl⟩ := h
  rw [Endpoint.normalize, replaceIn, replaceFrom]
  rcases hs : interpolation.search (.start ('/' :: r)) with _ | m
  · exact ⟨r, rfl⟩
  · obtain ⟨⟨w, hw⟩, hm⟩ := search_spec hs
    obtain ⟨v, hv, hread⟩ := reads_language_of_mem_outcomes hm
    have hahead : '/' :: r = w ++ (v ++ m.closed.spot.ahead) := by
      rw [← hread.ahead_eq, ← hw.ahead_eq]
      rfl
    dsimp only
    rw [hw.take_eq]
    cases w with
    | nil =>
      -- an interpolation would begin where the slash is
      rw [interpolation, language_sequence_cons] at hv
      obtain ⟨x, hx, y, -, rfl⟩ := Language.mem_mul.mp hv
      rw [mem_language_lit.mp hx] at hahead
      exact absurd (List.cons.inj hahead).1 (by decide)
    | cons c w =>
      rw [← (List.cons.inj hahead).1]
      exact ⟨_, rfl⟩

theorem Rooted.ofPath {path : Text} (h : Rooted path) (placeholder : Text) : Rooted (ofPath placeholder path).label := by
  simp only [Endpoint.ofPath]
  split
  · exact h
  · exact h.normalize placeholder

/-- A label is a path, or it begins with the name of its kind. -/
theorem head_of_mem_allIn {ownHost placeholder code : Text} {e : Endpoint} (h : e ∈ allIn ownHost placeholder code) :
    ∃ c ∈ ['/', 'E', 'H'], ∃ r, e.label = c :: r := by
  have hpath {p : Pattern} (hp : p ∈ [fetchAppPath, fetchBaseAddress, axiosPath, axiosBaseAddress]) {path : Text}
      (h : path ∈ groupsIn p code) : ∃ c ∈ ['/', 'E', 'H'], ∃ r, (ofPath placeholder path).label = c :: r := by
    obtain ⟨r, hr⟩ := (rooted_of_mem_groupsIn hp h).ofPath placeholder
    exact ⟨'/', by simp, r, hr⟩
  simp only [allIn, mem_distinct, List.partition_eq_filter_filter, List.mem_append, List.mem_map, List.mem_filter,
    Prod.exists] at h
  rcases h with (((((⟨path, hp, rfl⟩ | ⟨path, hp, rfl⟩) | ⟨host, path, ⟨hm, -⟩, rfl⟩) | ⟨host, path, ⟨hm, -⟩, rfl⟩) |
    ⟨path, hp, rfl⟩) | ⟨path, hp, rfl⟩) | ⟨verb, -, rfl⟩
  · exact hpath (by simp) hp
  · exact hpath (by simp) hp
  · obtain ⟨r, hr⟩ := (rooted_of_mem_absoluteIn hm).ofPath placeholder
    exact ⟨'/', by simp, r, hr⟩
  · exact ⟨'E', by simp, _, rfl⟩
  · exact hpath (by simp) hp
  · exact hpath (by simp) hp
  · exact ⟨'H', by simp, _, rfl⟩

end Endpoint

/-! ## The section that is read -/

namespace Metadata

/-- The values of the fields hold no line feeds. -/
def Unbroken (m : Metadata) : Prop := ∀ v ∈ m.values, '\n' ∉ v

theorem rows_of_mem_lines {m : Metadata} (h : m.Unbroken) {l : Text} (hl : l ∈ m.lines) : rows l = [l] := by
  have hline : '\n' ∉ l := (forall_mem_lines_iff (Or.inl rfl)).mpr h l hl
  have hend : EndsInked l := by
    obtain ⟨htrim, hstates, -⟩ := trim_of_mem_lines hl
    refine endsInked_of_trim_eq ?_ htrim
    rintro rfl
    exact absurd hstates (by decide)
  have hreturn : dropReturn l = l := by
    refine (dropReturn_eq_or l).elim id fun he => ?_
    obtain ⟨r, c, hc, hinked⟩ := hend
    obtain ⟨-, hlast⟩ := List.append_inj' (he.symm.trans hc) rfl
    rw [← (List.cons.inj hlast).1] at hinked
    exact absurd hinked (by decide)
  rw [rows_of_not_mem hline, hreturn]

theorem isMarker_of_mem_lines {m : Metadata} {l : Text} (hl : l ∈ m.lines) : isMarker l = false := by
  rw [lines_eq_map] at hl
  obtain ⟨q, -, rfl⟩ := List.mem_map.mp hl
  rw [metaLine, List.append_assoc, List.append_assoc, List.append_assoc]
  exact foreign_metaStart.isMarker_eq_false _

end Metadata

namespace AnalyzedSection

/-- The first section that is read of a written one has its path and states the value of each field, whatever its body and
its tree hold. -/
theorem exists_first {s : AnalyzedSection} (hpath : '\n' ∉ s.source.path) (hvalues : s.metadata.Unbroken) :
    ∃ r rest, allIn (Text.endLines s.lines) = r :: rest ∧ r.path = s.source.path.trim ∧
      ∀ p ∈ metaFields.zip s.metadata.values, r.field? p.1 = some p.2 := by
  obtain ⟨more, hmore⟩ : ∃ more, s.belowFlow = s.metadata.lines ++ more :=
    ⟨_, (List.append_assoc _ _ _).trans rfl⟩
  have hfields : s.metadata.lines.flatMap rows = s.metadata.lines := by
    calc s.metadata.lines.flatMap rows = s.metadata.lines.flatMap (fun l => [l]) :=
        List.flatMap_congr fun l hl => Metadata.rows_of_mem_lines hvalues hl
      _ = s.metadata.lines := List.flatMap_singleton' _
  -- the lines down to the last field, which hold no marker
  let fields := separatorLine :: flowLine s.metadata.flow :: [] :: s.metadata.lines
  have hplain : ∀ l ∈ fields, isMarker l = false := by
    simp only [fields, List.forall_mem_cons]
    refine ⟨by decide, ?_, by decide, fun l hl => Metadata.isMarker_of_mem_lines hl⟩
    cases s.metadata.flow <;> decide
  have hlines : (Text.endLines s.lines).lines = lead ++ dropReturn s.marker :: (fields ++ more.flatMap rows) := by
    have hlead : lead.flatMap rows = lead := by decide
    rw [lines_endLines, lines_eq, List.flatMap_append, hlead, List.flatMap_cons, rows_marker hpath,
      flatMap_rows_below, hmore, List.flatMap_append, hfields]
    rfl
  have hmarked : isMarker (dropReturn s.marker) = true := by
    rw [isMarker_dropReturn]
    exact isMarker_of_markerPath? (markerPath?_marker s.source.path)
  have hcut : (Chunk.cut (Text.endLines s.lines).lines).2 =
      ⟨dropReturn s.marker, fields ++ (Chunk.cut (more.flatMap rows)).1⟩ :: (Chunk.cut (more.flatMap rows)).2 := by
    have hlead : ∀ l ∈ lead, isMarker l = false := by decide
    rw [hlines, Chunk.cut_of_markerless hlead, Chunk.cut, Chunk.cut_of_markerless hplain]
    simp [hmarked]
  obtain ⟨rest, hrest⟩ : ∃ rest, (ofChunk ⟨dropReturn s.marker, fields ++ (Chunk.cut (more.flatMap rows)).1⟩).metaLines =
      flowLine s.metadata.flow :: s.metadata.lines ++ rest := by
    have hsep : isSeparator separatorLine = true := by decide
    have hflow : isSeparator (flowLine s.metadata.flow) = false := by cases s.metadata.flow <;> decide
    obtain ⟨hstates, hne⟩ := statesMetadata_flowLine s.metadata.flow
    have htrim : s.metadata.lines.map trim = s.metadata.lines := by
      calc s.metadata.lines.map trim = s.metadata.lines.map id :=
          List.map_congr_left fun l hl => (Metadata.trim_of_mem_lines hl).1
        _ = s.metadata.lines := List.map_id _
    simp only [ofChunk, fields, List.cons_append, List.dropWhile_cons, hsep, hflow, if_true, Bool.false_eq_true,
      if_false, sort_of_states hstates hne, sort_nil_cons, trim_flowLine,
      sort_fields fun l hl => (Metadata.trim_of_mem_lines hl).2, htrim]
    exact ⟨_, rfl⟩
  refine ⟨_, _, (by rw [allIn, hcut, List.map_cons]), ?_, fun p hp => field?_of_metaLines hrest hp⟩
  change (markerPath? (dropReturn s.marker)).getD [] = _
  rw [markerPath?_dropReturn, marker, markerPath?_marker, Option.getD_some]

end AnalyzedSection

namespace AnnotatedSection

variable {r : AnnotatedSection}

theorem fieldIsEmpty_iff_of_list {name : Text} {items : List Text} (h : r.field? name = some (Layout.list items))
    (hne : ∀ x ∈ items, x ≠ []) : r.fieldIsEmpty name = true ↔ items = [] ∨ items = ["none".toList] := by
  have hone : items ≠ [[]] := by
    rintro rfl
    exact hne [] (by simp) rfl
  have hread := Layout.reads_empty_iff items
  simp only [fieldIsEmpty, h, Bool.or_eq_true, beq_iff_eq]
  rw [hread]
  simp only [hone, or_false]

/-- A check that looks for what an empty field denies is silent if the field is not empty. -/
theorem check_eq_nil {name : Text} {p : Prop} [Decidable p] {f : Finding} (h : ¬ r.fieldIsEmpty name = true) :
    (if p ∧ r.fieldIsEmpty name = true then [f] else []) = [] := if_neg fun hp => h hp.2

/-- The lists that a section was written with, as the reader and the checks take them. -/
structure ReadsLists (m : Metadata) (r : AnnotatedSection) : Prop where
  props : r.fieldIsEmpty "Props" = true ↔ m.props = [] ∨ m.props = ["none".toList]
  contexts : r.fieldIsEmpty "Context" = true ↔ m.contexts = [] ∨ m.contexts = ["none".toList]
  endpoints : r.fieldIsEmpty "APIs" = true ↔ m.endpoints = []
  imports : r.fieldIsEmpty "Dependencies" = true ↔ m.imports = [] ∨ m.imports = ["none".toList]
  checkProps : m.props ≠ [] → m.props ≠ ["none".toList] → r.checkProps = []
  checkContexts : m.contexts ≠ [] → m.contexts ≠ ["none".toList] → ∀ settings, r.checkContexts settings = []
  checkApis : m.endpoints ≠ [] → r.checkApis = []

end AnnotatedSection

namespace Classifier

variable (c : Classifier) {s : Section}

theorem unbroken_analyze (hendpoints : ∀ e ∈ (c.analyze s).metadata.endpoints, '\n' ∉ e.label)
    (himports : ∀ x ∈ (c.analyze s).metadata.imports, '\n' ∉ x) : (c.analyze s).metadata.Unbroken :=
  (Metadata.forall_mem_values_iff (Or.inl rfl)).mpr
    ⟨fun _ hv => StateVariable.name_type_of_mem_allIn hv,
      fun _ hx => not_mem_of_isIdentifier (Props.isIdentifier_of_mem_allIn hx),
      fun _ hx => Contexts.not_mem_of_mem_allIn hx, hendpoints, himports⟩

/-- Of an analyzed section that is written and read again, a list field is taken to be empty exactly if its list is
empty or names only `none`; the list of endpoints only if it is empty. -/
theorem reads_lists_analyze (hpath : '\n' ∉ s.path)
    (hendpoints : ∀ e ∈ (c.analyze s).metadata.endpoints, '\n' ∉ e.label)
    (himports : ∀ x ∈ (c.analyze s).metadata.imports, '\n' ∉ x) :
    ∃ r rest, allIn (Text.endLines (c.analyze s).lines) = r :: rest ∧ r.path = s.path.trim ∧
      ReadsLists (c.analyze s).metadata r := by
  obtain ⟨r, rest, hread, hrpath, hfields⟩ :=
    AnalyzedSection.exists_first hpath (c.unbroken_analyze hendpoints himports)
  have hprops : r.fieldIsEmpty "Props" = true ↔ _ :=
    fieldIsEmpty_iff_of_list (hfields ("Props", Layout.list (c.analyze s).metadata.props) (by simp [metaFields, Metadata.values]))
      fun x hx => ne_nil_of_isIdentifier (Props.isIdentifier_of_mem_allIn hx)
  have hcontexts : r.fieldIsEmpty "Context" = true ↔ _ :=
    fieldIsEmpty_iff_of_list (hfields ("Context", Layout.list (c.analyze s).metadata.contexts)
      (by simp [metaFields, Metadata.values])) fun x hx => Contexts.ne_nil_of_mem_allIn hx
  have hmodules : r.fieldIsEmpty "Dependencies" = true ↔ _ :=
    fieldIsEmpty_iff_of_list (hfields ("Dependencies", Layout.list (c.analyze s).metadata.imports)
      (by simp [metaFields, Metadata.values])) fun x hx => Imports.ne_nil_of_mem_modulesIn hx
  have happs : r.fieldIsEmpty "APIs" = true ↔ (c.analyze s).metadata.endpoints = [] := by
    have hhead {e : Endpoint} (he : e ∈ (c.analyze s).metadata.endpoints) := Endpoint.head_of_mem_allIn he
    have hlist := fieldIsEmpty_iff_of_list (r := r)
      (hfields ("APIs", Layout.list ((c.analyze s).metadata.endpoints.map (·.label))) (by simp [metaFields, Metadata.values]))
      (by
        rw [List.forall_mem_map]
        intro e he
        obtain ⟨x, -, y, hlabel⟩ := hhead he
        simp [hlabel])
    rw [hlist, List.map_eq_nil_iff, or_iff_left]
    intro hnone
    obtain ⟨e, hes, hlabel⟩ := List.map_eq_singleton_iff.mp hnone
    obtain ⟨x, hx, y, hcons⟩ := hhead (e := e) (by rw [hes]; exact List.mem_singleton_self e)
    rw [hcons] at hlabel
    obtain rfl : x = 'n' := (List.cons.inj hlabel).1
    exact absurd hx (by decide)
  refine ⟨r, rest, hread, hrpath, hprops, hcontexts, happs, hmodules, ?_, ?_, ?_⟩
  · exact fun hne hnone => check_eq_nil (by rw [hprops]; exact not_or.mpr ⟨hne, hnone⟩)
  · exact fun hne hnone _ => check_eq_nil (by rw [hcontexts]; exact not_or.mpr ⟨hne, hnone⟩)
  · exact fun hne => check_eq_nil (by rw [happs]; exact hne)

end Classifier

/-- A section with a parameter, a context and a module that are called `none`. -/
def noneSection : Section where
  path := "a.tsx"
  header := []
  body := ["function F(\x7b none \x7d) \x7b", "  useContext(none);", "import x from 'none';", "fetch('/api/none');"]

/-- The lists of this section name something. -/
theorem lists_of_noneSection : Props.allIn noneSection.code = ["none".toList] ∧
    Contexts.allIn noneSection.code = ["none".toList] ∧ Imports.modulesIn noneSection.code = ["none".toList] ∧
      Endpoint.allIn "api.dltpays.com" "\x7bparam\x7d" noneSection.code = [.literal "/api/none"] := by
  decide +kernel

/-- The reader denies what was listed, but for the endpoint. -/
theorem Classifier.reads_lists_noneSection : ∃ (c : Classifier) (r : AnnotatedSection) (rest : List AnnotatedSection),
    c.settings = {} ∧ allIn (Text.endLines (c.analyze noneSection).lines) = r :: rest ∧
      r.fieldIsEmpty "Props" = true ∧ r.fieldIsEmpty "Context" = true ∧ r.fieldIsEmpty "Dependencies" = true ∧
        r.fieldIsEmpty "APIs" = false ∧ r.checkApis = [] := by
  obtain ⟨c, hc⟩ := exists_default_classifier
  obtain ⟨hprops, hcontexts, hmodules, hendpoints⟩ := lists_of_noneSection
  have hfound : (c.analyze noneSection).metadata.endpoints = [.literal "/api/none"] := by
    rw [← hendpoints]
    change Endpoint.allIn c.settings.knownApiHost c.settings.placeholder noneSection.code = _
    rw [hc]
  have himports : (c.analyze noneSection).metadata.imports = ["none".toList] := hmodules
  obtain ⟨r, rest, hread, -, h⟩ := c.reads_lists_analyze (s := noneSection) (by decide)
    (by rw [hfound]; decide) (by rw [himports]; decide)
  have hlisted : (c.analyze noneSection).metadata.endpoints ≠ [] := by simp [hfound]
  refine ⟨c, r, rest, hc, hread, h.props.mpr (Or.inr hprops), h.contexts.mpr (Or.inr hcontexts),
    h.imports.mpr (Or.inr hmodules), ?_, h.checkApis hlisted⟩
  rw [Bool.eq_false_iff, ne_eq, h.endpoints]
  exact hlisted

/-- A parameter called `none` is listed, and the reader takes the field to be empty. -/
theorem Classifier.not_reads_lists : ¬ ∀ (c : Classifier) (s : Section), c.settings = {} → s.WellFormed →
    c.CapturesUnbroken s → (∀ l ∈ s.body, statesMetadata l.trim = false) →
      ∀ r ∈ allIn (Text.endLines (c.analyze s).lines),
        (r.fieldIsEmpty "Props" = true ↔ (c.analyze s).metadata.props = []) := by
  intro h
  obtain ⟨c, hc⟩ := exists_default_classifier
  obtain ⟨hprops, -, hmodules, hendpoints⟩ := lists_of_noneSection
  have hbindings : Imports.bindingsIn ({} : AnalysisSettings).ignoredDefaultImports noneSection.code =
      [⟨"x", "none"⟩] := by decide +kernel
  have hwell : noneSection.WellFormed := ⟨by decide, by decide, by decide, by decide⟩
  have hcaptures : c.CapturesUnbroken noneSection := by
    have hendpoints' : Endpoint.allIn c.settings.knownApiHost c.settings.placeholder noneSection.code =
        [.literal "/api/none"] := by rw [hc]; exact hendpoints
    refine ⟨?_, ?_, ?_⟩
    · rw [hendpoints']
      decide
    · rw [hmodules]
      decide
    · rw [hc, hbindings]
      decide
  have hunbroken := c.unbroken_analyze hcaptures.endpoints hcaptures.modules
  obtain ⟨r, rest, hread, -, hfields⟩ :=
    AnalyzedSection.exists_first (s := c.analyze noneSection) hwell.path_unbroken hunbroken
  have hfield : r.field? "Props" = some "[none]".toList := by
    have hvalue : ("Props".toList, Layout.list (Props.allIn noneSection.code)) ∈
        metaFields.zip (c.analyze noneSection).metadata.values := by
      simp [metaFields, Metadata.values, analyze, Facts.of]
    rw [hfields _ hvalue, hprops]
    rfl
  have hempty : r.fieldIsEmpty "Props" = true := by
    simp only [fieldIsEmpty, hfield]
    rfl
  have hstateless : ∀ l ∈ noneSection.body, statesMetadata l.trim = false := by decide
  have hnone := (h c noneSection hc hwell hcaptures hstateless r (by rw [hread]; exact List.mem_cons_self)).mp hempty
  have hlisted : (c.analyze noneSection).metadata.props = ["none".toList] := hprops
  rw [hlisted] at hnone
  contradiction

end SourceArchive
