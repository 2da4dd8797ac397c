import SourceArchive.Proofs.Boundaries

/-!
# Line ends in written lines

A written line is one physical line if it holds no line feed.  The lines of an annotated section hold a line end
exactly if one of the texts that they state does (`AnalyzedSection.not_mem_lines_iff`).  When a section is analyzed,
most of these texts cannot: what is left are endpoints, modules, and the bound names that the dependency tree lists.
All three are stated as they were captured.
-/

namespace SourceArchive

open Text Layout

namespace Text

theorem length_splitAt (sep : Char) (t : Text) : (splitAt sep t).length = t.count sep + 1 := by
  induction t with
  | nil => rfl
  | cons c r ih =>
    obtain ⟨piece, pieces, h⟩ := List.exists_cons_of_ne_nil (splitWhen_ne_nil (· == sep) r)
    rw [splitAt, h, List.length_cons] at ih
    rw [splitAt, splitWhen, h, List.count_cons]
    by_cases hc : c = sep
    · simp [hc]
      omega
    · simp [hc]
      omega

theorem not_mem_append_iff {c : Char} {a b : Text} (h : c ∉ a) : c ∉ a ++ b ↔ c ∉ b := by
  rw [List.mem_append, not_or]
  exact ⟨And.right, fun hb => ⟨h, hb⟩⟩

theorem length_rows (l : Text) : (rows l).length = l.count '\n' + 1 := by
  rw [rows, List.length_map, length_splitAt]

/-- Written lines are read back as many exactly if none holds a line feed. -/
theorem length_lines_endLines_iff {ls : List Text} :
    (lines (endLines ls)).length = ls.length ↔ ∀ l ∈ ls, '\n' ∉ l := by
  have hle (ls : List Text) : ls.length ≤ (ls.flatMap rows).length := by
    induction ls with
    | nil => simp
    | cons l ls ih =>
      rw [List.flatMap_cons, List.length_append, length_rows, List.length_cons]
      omega
  rw [lines_endLines]
  induction ls with
  | nil => simp
  | cons l ls ih =>
    have hls := hle ls
    have hcount : '\n' ∉ l ↔ l.count '\n' = 0 := List.count_eq_zero.symm
    rw [List.flatMap_cons, List.length_append, length_rows, List.length_cons, List.forall_mem_cons, hcount]
    constructor
    · intro h
      exact ⟨by omega, ih.mp (by omega)⟩
    · rintro ⟨h, hrest⟩
      have hlen := ih.mpr hrest
      omega

end Text

section LineEnd

variable {c : Char} (hc : c = '\n' ∨ c = '\r')

include hc

theorem Layout.not_mem_list_iff {items : List Text} : c ∉ Layout.list items ↔ ∀ x ∈ items, c ∉ x := by
  have hsep : c ∉ ", ".toList ∧ c ∉ noneListed ∧ c ∉ "[".toList ∧ c ∉ "]".toList := by
    rcases hc with rfl | rfl <;> decide
  obtain ⟨hcomma, hnone, hopen, hclose⟩ := hsep
  rw [Layout.list.eq_def]
  split
  · rename_i h
    simp [List.isEmpty_iff.mp h, hnone]
  · rw [List.append_assoc, List.mem_append, List.mem_append]
    constructor
    · intro h x hx hm
      exact h (Or.inr (Or.inl ((infix_join hx).subset hm)))
    · rintro h (hm | hm | hm)
      · exact hopen hm
      · exact not_mem_join hcomma h hm
      · exact hclose hm

/-! ## Metadata -/

namespace Metadata

theorem not_mem_labels (r : Role) (f : Flow) (k : Framework) : c ∉ r.label ∧ c ∉ f.label ∧ c ∉ k.label := by
  rcases hc with rfl | rfl
  · exact ⟨not_mem_role r, not_mem_flow f, not_mem_framework k⟩
  · refine ⟨?_, ?_, ?_⟩
    · cases r <;> decide
    · cases f <;> decide
    · cases k <;> decide

theorem forall_mem_values_iff {m : Metadata} : (∀ v ∈ m.values, c ∉ v) ↔
    (∀ v ∈ m.state, c ∉ v.name ∧ c ∉ v.type) ∧ (∀ x ∈ m.props, c ∉ x) ∧ (∀ x ∈ m.contexts, c ∉ x) ∧
      (∀ e ∈ m.endpoints, c ∉ e.label) ∧ ∀ x ∈ m.imports, c ∉ x := by
  obtain ⟨hr, hf, hk⟩ := not_mem_labels hc m.role m.flow m.framework
  have hcolon : c ≠ ':' := by rcases hc with rfl | rfl <;> decide
  have hpair (v : StateVariable) : c ∉ v.name ++ ":".toList ++ v.type ↔ c ∉ v.name ∧ c ∉ v.type := by
    simp [hcolon]
  simp only [values, List.forall_mem_cons, List.not_mem_nil, false_implies, implies_true, and_true, hr, hf, hk,
    not_false_eq_true, true_and, not_mem_list_iff hc, List.forall_mem_map, hpair]

theorem forall_mem_lines_iff {m : Metadata} : (∀ l ∈ m.lines, c ∉ l) ↔ ∀ v ∈ m.values, c ∉ v := by
  have hframe : ∀ f ∈ metaFields, c ∉ metaStart ++ " ".toList ++ f ++ ": ".toList := by
    rcases hc with rfl | rfl <;> decide
  have hline {f : Text} (hf : f ∈ metaFields) (v : Text) : c ∉ metaLine f v ↔ c ∉ v :=
    not_mem_append_iff (hframe f hf)
  rw [lines_eq_map, List.forall_mem_map]
  constructor
  · intro h v hv
    obtain ⟨f, hmem⟩ := exists_field hv
    exact (hline (List.of_mem_zip hmem).1 v).mp (h (f, v) hmem)
  · rintro h ⟨f, v⟩ hmem
    obtain ⟨hf, hv⟩ := List.of_mem_zip hmem
    exact (hline hf v).mpr (h v hv)

end Metadata

/-! ## Dependency trees and hints -/

namespace DependencyTree

theorem forall_mem_bucketLines_iff {bs : List (Text × List Text)} (hlabel : ∀ b ∈ bs, c ∉ b.1) :
    (∀ l ∈ bucketLines bs, c ∉ l) ↔ ∀ b ∈ bs, ∀ x ∈ b.2, c ∉ x := by
  have hsep : c ∉ ", ".toList := by rcases hc with rfl | rfl <;> decide
  have hjoin (items : List Text) : c ∉ Text.join ", " items ↔ ∀ x ∈ items, c ∉ x :=
    ⟨fun h x hx hm => h ((infix_join hx).subset hm), not_mem_join hsep⟩
  have hframe {connector : Text} (h : connector = treeBranch ∨ connector = treeLast) :
      c ∉ "// ".toList ++ connector ∧ c ∉ ": ".toList := by
    rcases h with rfl | rfl <;> rcases hc with rfl | rfl <;> decide
  have hline {connector label : Text} (h : connector = treeBranch ∨ connector = treeLast) (hl : c ∉ label)
      (items : List Text) :
      c ∉ "// ".toList ++ connector ++ label ++ ": ".toList ++ Text.join ", " items ↔ ∀ x ∈ items, c ∉ x := by
    obtain ⟨hstart, hcolon⟩ := hframe h
    have hbefore : c ∉ "// ".toList ++ connector ++ label ++ ": ".toList := by
      rw [List.mem_append, List.mem_append, not_or, not_or]
      exact ⟨⟨hstart, hl⟩, hcolon⟩
    exact (not_mem_append_iff hbefore).trans (hjoin items)
  fun_induction bucketLines bs with
  | case1 => simp
  | case2 label items =>
    rw [List.forall_mem_singleton, List.forall_mem_singleton]
    exact hline (Or.inr rfl) (hlabel _ List.mem_cons_self) items
  | case3 label items rest _ ih =>
    have hrest := ih fun b hb => hlabel b (List.mem_cons_of_mem _ hb)
    rw [List.forall_mem_cons, List.forall_mem_cons]
    exact and_congr (hline (Or.inl rfl) (hlabel _ List.mem_cons_self) items) hrest

theorem forall_mem_lines_iff {t : DependencyTree} :
    (∀ l ∈ t.lines, c ∉ l) ↔ c ∉ t.name ∧ ∀ x ∈ t.items, c ∉ x := by
  have hstart : c ∉ "// ".toList := by rcases hc with rfl | rfl <;> decide
  have hlabels : ∀ f ∈ DependencyTree.bucketLabels, c ∉ f := by
    rcases hc with rfl | rfl <;> decide
  rw [lines, List.forall_mem_cons, forall_mem_bucketLines_iff hc fun b hb => hlabels _ (mem_buckets hb).1]
  refine and_congr (not_mem_append_iff hstart) ?_
  · constructor
    · intro h x hx
      obtain ⟨b, hb, hxb⟩ := List.mem_flatMap.mp hx
      exact h b hb x hxb
    · exact fun h b hb x hx => h x ((mem_buckets hb).2 x hx)

end DependencyTree

namespace Hint

omit hc in
theorem subset_insert (unused : List StateVariable) (body : List Text) : body ⊆ insert unused body := by
  induction body generalizing unused with
  | nil => exact List.Subset.refl _
  | cons k rest ih =>
    intro l hl
    rw [insert]
    split
    · rcases List.mem_cons.mp hl with rfl | hl
      · exact List.mem_cons_self
      · exact List.mem_cons_of_mem _ (ih unused hl)
    · rename_i v _
      rcases List.mem_cons.mp hl with rfl | hl
      · exact List.mem_cons_of_mem _ List.mem_cons_self
      · exact List.mem_cons_of_mem _ (List.mem_cons_of_mem _ (ih _ hl))

theorem not_mem_line {above : Text} {v : StateVariable} (ha : c ∉ above) (hv : c ∉ v.type) : c ∉ line above v := by
  have hi : c ∉ above.indentation := fun hm => ha ((List.takeWhile_prefix _).subset hm)
  have htype : c ∉ typeStart ++ " ".toList := by rcases hc with rfl | rfl <;> decide
  rw [line, List.append_assoc, List.append_assoc, not_mem_append_iff hi, ← List.append_assoc]
  exact (not_mem_append_iff htype).mpr hv

theorem forall_mem_insert_iff {unused : List StateVariable} {body : List Text} (hv : ∀ v ∈ unused, c ∉ v.type) :
    (∀ l ∈ insert unused body, c ∉ l) ↔ ∀ l ∈ body, c ∉ l := by
  constructor
  · exact fun h l hl => h l (subset_insert unused body hl)
  · intro h l hl
    rcases mem_insert hl with hl | ⟨above, ha, v, hm, rfl⟩
    · exact h l hl
    · exact not_mem_line hc (h above ha) (hv v hm)

end Hint

/-! ## Sections -/

namespace AnalyzedSection

/-- No text that the annotation of a section states holds a character. -/
structure Avoids (c : Char) (s : AnalyzedSection) : Prop where
  path : c ∉ s.source.path
  state : ∀ v ∈ s.metadata.state, c ∉ v.name ∧ c ∉ v.type
  props : ∀ x ∈ s.metadata.props, c ∉ x
  contexts : ∀ x ∈ s.metadata.contexts, c ∉ x
  endpoints : ∀ e ∈ s.metadata.endpoints, c ∉ e.label
  imports : ∀ x ∈ s.metadata.imports, c ∉ x
  name : c ∉ s.tree.name
  items : ∀ x ∈ s.tree.items, c ∉ x
  body : ∀ l ∈ s.source.body, c ∉ l

/-- A line end in an annotated section comes from a text that is stated in it. -/
theorem forall_mem_lines_iff {s : AnalyzedSection} : (∀ l ∈ s.lines, c ∉ l) ↔ s.Avoids c := by
  have hflow : c ∉ flowLine s.metadata.flow := by
    have hstart : c ∉ flowStart ++ " ".toList := by rcases hc with rfl | rfl <;> decide
    exact (not_mem_append_iff hstart).mpr (Metadata.not_mem_labels hc s.metadata.role _ s.metadata.framework).2.1
  have hmarker : c ∉ s.marker ↔ c ∉ s.source.path := by
    have hstart : c ∉ fileMarker ++ " ".toList := by rcases hc with rfl | rfl <;> decide
    exact not_mem_append_iff hstart
  have hfixed : c ∉ separatorLine ∧ c ∉ treeHeader := by rcases hc with rfl | rfl <;> decide
  simp only [lines_eq, lead, below, List.forall_mem_append, List.forall_mem_cons, List.not_mem_nil, false_implies,
    implies_true, not_false_eq_true, hfixed, hflow, hmarker, Metadata.forall_mem_lines_iff hc,
    Metadata.forall_mem_values_iff hc, DependencyTree.forall_mem_lines_iff hc, and_true, true_and]
  constructor
  · rintro ⟨hpath, ⟨⟨hstate, hprops, hcontexts, hendpoints, himports⟩, hname, hitems⟩, hbody⟩
    have hplain := (Hint.forall_mem_insert_iff hc fun v hv => (hstate v hv).2).mp hbody
    exact ⟨hpath, hstate, hprops, hcontexts, hendpoints, himports, hname, hitems, hplain⟩
  · rintro ⟨hpath, hstate, hprops, hcontexts, hendpoints, himports, hname, hitems, hplain⟩
    have hbody := (Hint.forall_mem_insert_iff hc fun v hv => (hstate v hv).2).mpr hplain
    exact ⟨hpath, ⟨⟨hstate, hprops, hcontexts, hendpoints, himports⟩, hname, hitems⟩, hbody⟩

end AnalyzedSection

end LineEnd

/-! ## Analyzed sections -/

namespace Classifier

/-- The texts that are stated as they were captured hold no line feed. -/
structure CapturesUnbroken (c : Classifier) (s : Section) : Prop where
  endpoints : ∀ e ∈ Endpoint.allIn c.settings.knownApiHost c.settings.placeholder s.code, '\n' ∉ e.label
  modules : ∀ x ∈ Imports.modulesIn s.code, '\n' ∉ x
  bindings : ∀ x ∈ DependencyTree.listed c.settings.maxTreeLibs
    (Imports.bindingsIn c.settings.ignoredDefaultImports s.code), '\n' ∉ x

theorem avoids_analyze_iff {c : Classifier} {s : Section} (hs : s.WellFormed) :
    (c.analyze s).Avoids '\n' ↔ c.CapturesUnbroken s := by
  constructor
  · intro h
    have hbindings : ∀ x ∈ DependencyTree.listed c.settings.maxTreeLibs
        (Imports.bindingsIn c.settings.ignoredDefaultImports s.code), '\n' ∉ x :=
      fun x hx => h.items x (DependencyTree.mem_items_of.mpr (Or.inl hx))
    exact ⟨h.endpoints, h.imports, hbindings⟩
  · intro h
    have hitems : ∀ x ∈ (c.analyze s).tree.items, '\n' ∉ x := by
      intro x hx
      rcases DependencyTree.mem_items_of.mp hx with hx | hx
      · exact h.bindings x hx
      · exact DependencyTree.not_mem_of_mem_calledHooks hx
    -- the other facts are words, identifiers or texts on one line
    exact {
      path := hs.path_unbroken
      state := fun v hv => StateVariable.name_type_of_mem_allIn hv
      props := fun x hx => not_mem_of_isIdentifier (Props.isIdentifier_of_mem_allIn hx)
      contexts := fun x hx => Contexts.not_mem_of_mem_allIn hx
      endpoints := h.endpoints
      imports := h.modules
      name := DependencyTree.not_mem_displayName hs.path_unbroken _
      items := hitems
      body := hs.body_unbroken }

/-- Every line of an annotated section is one physical line exactly if no endpoint, no module and no bound name that
the tree lists holds a line feed. -/
theorem lines_unbroken_iff (c : Classifier) {archive : Text} {s : Section} (hs : s ∈ split archive) :
    ((∀ l ∈ (c.analyze s).lines, '\n' ∉ l) ↔ c.CapturesUnbroken s) ∧
      ((Text.endLines (c.analyze s).lines).lines.length = (c.analyze s).lines.length ↔ c.CapturesUnbroken s) := by
  have hlines : (∀ l ∈ (c.analyze s).lines, '\n' ∉ l) ↔ c.CapturesUnbroken s :=
    (AnalyzedSection.forall_mem_lines_iff (Or.inl rfl)).trans (avoids_analyze_iff (wellFormed_of_mem_split hs))
  exact ⟨hlines, length_lines_endLines_iff.trans hlines⟩

end Classifier

/-- The first section of `brokenFacts`. -/
def brokenSection : Section where
  path := "src/a.ts"
  header := ["// FILE: src/a.ts"]
  body := ["fetch('/api/a", "// b')", "import \x7bp, // c", " q\x7d from './x", "y'"]

theorem brokenSection_mem : brokenSection ∈ split brokenFacts := by decide

/-- The endpoint, a bound name and the module of this section all hold line feeds. -/
theorem captures_of_brokenSection :
    .literal "/api/a\n// b" ∈ Endpoint.allIn "api.dltpays.com" "\x7bparam\x7d" brokenSection.code ∧
      "// c\n q".toList ∈ DependencyTree.listed 8 (Imports.bindingsIn ["React", "type"] brokenSection.code) ∧
      "x\ny".toList ∈ Imports.modulesIn brokenSection.code := by
  decide +kernel

theorem Classifier.not_lines_unbroken : ¬ ∀ (c : Classifier) (archive : Text), c.settings = {} →
    ∀ s ∈ split archive, ∀ l ∈ (c.analyze s).lines, '\n' ∉ l := by
  intro h
  obtain ⟨c, hc⟩ := exists_default_classifier
  have hlines := h c brokenFacts hc brokenSection brokenSection_mem
  have havoids := (AnalyzedSection.forall_mem_lines_iff (Or.inl rfl)).mp hlines
  exact havoids.imports "x\ny" captures_of_brokenSection.2.2 (by decide)

theorem Classifier.lines_unbroken_iff_brokenSection : ∃ c : Classifier, c.settings = {} ∧
    (Text.endLines (c.analyze brokenSection).lines).lines.length ≠ (c.analyze brokenSection).lines.length := by
  obtain ⟨c, hc⟩ := exists_default_classifier
  refine ⟨c, hc, fun hlen => ?_⟩
  have hunbroken := (c.lines_unbroken_iff brokenSection_mem).2.mp hlen
  exact hunbroken.modules "x\ny" captures_of_brokenSection.2.2 (by decide)

end SourceArchive
