import SourceArchive.Proofs.LineEnds
import SourceArchive.Proofs.Reader

/-!
# Written sections are read back

What the writer states about a section can be read off the annotated archive again, for any number of sections and
any bodies, if no text holds a line end and no text looks like a line of the format (`AnalyzedSection.Readable`).
The reader has one bit of state, and each stretch of written lines has its own law: fields leave the bit down, the
header of the tree puts it up, and the blank line behind the tree takes it down before the body begins.
-/

namespace SourceArchive

open Text Layout AnnotatedSection

/-! ## Stated values -/

namespace Metadata

/-- The values are written without blanks at their ends. -/
theorem inked_of_mem_values {m : Metadata} {v : Text} (h : v ∈ m.values) : StartsInked v ∧ EndsInked v := by
  have hlist (items : List Text) : StartsInked (Layout.list items) ∧ EndsInked (Layout.list items) := by
    rw [Layout.list.eq_def]
    split
    · decide
    · exact ⟨⟨'[', _, rfl, by decide⟩, ⟨_, ']', rfl, by decide⟩⟩
  simp only [values, List.mem_cons, List.not_mem_nil, or_false] at h
  rcases h with rfl | rfl | rfl | rfl | rfl | rfl | rfl | rfl
  · cases m.role <;> decide
  · cases m.flow <;> decide
  · cases m.framework <;> decide
  · exact hlist _
  · exact hlist _
  · exact hlist _
  · exact hlist _
  · exact hlist _

theorem trim_of_mem_values {m : Metadata} {v : Text} (h : v ∈ m.values) : v.trim = v :=
  trim_eq_self (inked_of_mem_values h).1 (inked_of_mem_values h).2

/-- A metadata line is written trimmed, and it is taken for one. -/
theorem trim_of_mem_lines {m : Metadata} {l : Text} (h : l ∈ m.lines) :
    l.trim = l ∧ statesMetadata l.trim = true ∧ l.trim ≠ treeHeader := by
  rw [lines_eq_map] at h
  obtain ⟨⟨field, value⟩, hmem, rfl⟩ := List.mem_map.mp h
  obtain ⟨-, hvalue⟩ := List.of_mem_zip hmem
  have hend := (inked_of_mem_values hvalue).2.append " ".toList
  have htrim : trim (metaLine field value) = metaLine field value := by
    rw [trim_metaLine, hend.trimEnd_eq]
    simp [metaLine]
  exact ⟨htrim, statesMetadata_metaLine field value⟩

end Metadata

theorem lookup_zip {fs vs : List Text} (hn : fs.Nodup) {p : Text × Text} (h : p ∈ fs.zip vs) :
    (fs.zip vs).lookup p.1 = some p.2 := by
  induction fs generalizing vs with
  | nil => simp at h
  | cons f fs ih =>
    cases vs with
    | nil => simp at h
    | cons v vs =>
      obtain ⟨hf, hfs⟩ := List.nodup_cons.mp hn
      rw [List.zip_cons_cons, List.lookup_cons]
      rcases List.mem_cons.mp h with rfl | h
      · simp
      · have hne : p.1 ≠ f := by
          intro he
          exact hf (he ▸ (List.of_mem_zip h).1)
        have hb : (p.1 == f) = false := by simpa using hne
        rw [hb]
        exact ih hfs h

/-! ## Lines of the tree -/

namespace DependencyTree

theorem prefix_trim_of_mem_lines {t : DependencyTree} {l : Text} (h : l ∈ t.lines) : "//".toList <+: l.trim := by
  have hp (x : Text) : "//".toList <+: trim ("//".toList ++ x) := by
    rw [trim_append_inked (by decide) (by decide)]
    exact List.prefix_append _ _
  rcases List.mem_cons.mp h with rfl | h
  · exact hp (" ".toList ++ t.name)
  · obtain ⟨b, -, connector, -, rfl⟩ := mem_bucketLines h
    exact hp (" ".toList ++ connector ++ b.1 ++ ": ".toList ++ Text.join ", " b.2)

/-- The lines of buckets that are not empty give back the items of the buckets. -/
theorem itemsOn_bucketLines {bs : List (Text × List Text)} (hlabel : ∀ b ∈ bs, ':' ∉ b.1) (hne : ∀ b ∈ bs, b.2 ≠ [])
    (h : ∀ b ∈ bs, ∀ x ∈ b.2, x ≠ [] ∧ x.trim = x ∧ ',' ∉ x) :
    ((bucketLines bs).map trim).flatMap itemsOn = bs.flatMap (·.2) := by
  fun_induction bucketLines bs with
  | case1 => rfl
  | case2 label items =>
    have hitems := itemsOn_bucketLine (Or.inr rfl) (hlabel _ List.mem_cons_self) (hne _ List.mem_cons_self)
      (h _ List.mem_cons_self)
    rw [List.map_singleton, List.flatMap_singleton, List.flatMap_singleton]
    exact hitems
  | case3 label items rest _ ih =>
    have hitems := itemsOn_bucketLine (Or.inl rfl) (hlabel _ List.mem_cons_self) (hne _ List.mem_cons_self)
      (h _ List.mem_cons_self)
    have hrest := ih (fun b hb => hlabel b (List.mem_cons_of_mem _ hb)) (fun b hb => hne b (List.mem_cons_of_mem _ hb))
      fun b hb => h b (List.mem_cons_of_mem _ hb)
    rw [List.map_cons, List.flatMap_cons, List.flatMap_cons, hrest]
    exact congrArg (· ++ _) hitems

end DependencyTree

theorem Hint.statesMetadata_line (above : Text) (v : StateVariable) : statesMetadata (trim (line above v)) = false := by
  have hp : typeStart <+: trim (line above v) := by
    rw [prefix_trim_iff (by decide), line, List.append_assoc, List.append_assoc,
      trimStart_blank_append (blank_indentation above), (foreign_typeStart.inked.append _).trimStart_eq]
    exact List.prefix_append _ _
  have hclash {start : Text} (h : ¬ start <+: typeStart) (h' : ¬ typeStart <+: start) :
      startsWith (trim (line above v)) start = false := by
    rw [Bool.eq_false_iff, ne_eq, startsWith_iff]
    exact fun hs => (prefix_total hs hp).elim h h'
  have hheader : (trim (line above v) == treeHeader) = false := by
    rw [beq_eq_false_iff_ne]
    intro he
    rw [he] at hp
    exact absurd hp (by decide)
  rw [statesMetadata, hclash (by decide) (by decide), hclash (by decide) (by decide), hheader]
  rfl

theorem Hint.stateless_insert {unused : List StateVariable} {body : List Text}
    (h : ∀ l ∈ body, statesMetadata l.trim = false) : ∀ l ∈ insert unused body, statesMetadata l.trim = false := by
  intro l hl
  rcases mem_insert hl with hl | ⟨above, -, v, -, rfl⟩
  · exact h l hl
  · exact statesMetadata_line above v

/-! ## Sections -/

namespace AnalyzedSection

/-- The annotation of a section can be told from its body: its texts hold no line ends, and no line of the body looks
like a line of the format. -/
structure Writable (s : AnalyzedSection) : Prop where
  trim_path : s.source.path.trim = s.source.path
  no_lineFeed : s.Avoids '\n'
  no_return : s.Avoids '\r'
  body_markerless : ∀ l ∈ s.source.body, isMarker l = false
  body_stateless : ∀ l ∈ s.source.body, statesMetadata l.trim = false
  name_no_marker : ¬ "FILE:".toList <+: s.tree.name

/-- The annotation of a section can be read back: it can be told from the body, and neither the name nor an item of the
tree looks like a line of the tree where it is written. -/
structure Readable (s : AnalyzedSection) : Prop extends s.Writable where
  name_no_branch : ¬ "├──".toList <+: s.tree.name.trimStart
  name_no_last : ¬ "└──".toList <+: s.tree.name.trimStart
  items : ∀ x ∈ s.tree.items, x ≠ [] ∧ x.trim = x ∧ ',' ∉ x

theorem Avoids.bounded {s : AnalyzedSection} (h : s.Avoids '\n') (hpath : s.source.path.trim = s.source.path)
    (hbody : ∀ l ∈ s.source.body, isMarker l = false) (hname : ¬ "FILE:".toList <+: s.tree.name) : s.Bounded := by
  have hsafe : s.Safe :=
    { source := ⟨hpath, h.path, h.body, hbody⟩
      plain := ⟨h.state, h.props, h.contexts⟩
      endpoints := fun e he => unmarked_of_not_mem (h.endpoints e he)
      imports := fun x hx => unmarked_of_not_mem (h.imports x hx)
      name_unbroken := h.name
      name_no_marker := hname
      items := fun x hx => unmarked_of_not_mem (h.items x hx) }
  exact hsafe.bounded

theorem Writable.bounded {s : AnalyzedSection} (h : s.Writable) : s.Bounded :=
  h.no_lineFeed.bounded h.trim_path h.body_markerless h.name_no_marker

theorem belowFlow_subset (s : AnalyzedSection) : s.belowFlow ⊆ s.lines := by
  intro l hl
  rw [lines_eq]
  refine List.mem_append_right _ (List.mem_cons_of_mem _ ?_)
  simp only [belowFlow, below, List.mem_append, List.mem_cons] at hl ⊢
  tauto

theorem flatMap_rows_belowFlow {s : AnalyzedSection} (h : s.Avoids '\n') :
    s.belowFlow.flatMap rows = s.belowFlow.map dropReturn := by
  have hlines := (forall_mem_lines_iff (Or.inl rfl)).mpr h
  rw [List.map_eq_flatMap]
  exact List.flatMap_congr fun l hl => rows_of_not_mem (hlines l (s.belowFlow_subset hl))

theorem Writable.not_mem_belowFlow {s : AnalyzedSection} (h : s.Writable) {l : Text} (hl : l ∈ s.belowFlow) :
    '\n' ∉ l ∧ '\r' ∉ l :=
  ⟨(forall_mem_lines_iff (Or.inl rfl)).mpr h.no_lineFeed l (s.belowFlow_subset hl),
    (forall_mem_lines_iff (Or.inr rfl)).mpr h.no_return l (s.belowFlow_subset hl)⟩

theorem Writable.flatMap_rows {s : AnalyzedSection} (h : s.Writable) : s.belowFlow.flatMap rows = s.belowFlow :=
  flatMap_rows_of_not_mem fun _ hl => h.not_mem_belowFlow hl

/-- The lines below the flow are sorted into what is stated and the body, whatever stateless lines stand behind. -/
theorem sort_map_dropReturn {s : AnalyzedSection} (hb : ∀ l ∈ s.source.body, statesMetadata l.trim = false)
    {trail : List Text} (ht : ∀ l ∈ trail, statesMetadata l.trim = false) :
    sort false (s.belowFlow.map dropReturn ++ trail) =
      (s.metadata.lines ++ treeHeader :: s.tree.lines.map trim,
        [] :: [] :: ((Hint.insert s.metadata.state s.source.body).map dropReturn ++ trail)) := by
  have hbody : ∀ l ∈ (Hint.insert s.metadata.state s.source.body).map dropReturn ++ trail,
      statesMetadata l.trim = false := by
    intro l hl
    rcases List.mem_append.mp hl with hl | hl
    · obtain ⟨k, hk, rfl⟩ := List.mem_map.mp hl
      rw [trim_dropReturn]
      exact Hint.stateless_insert hb k hk
    · exact ht l hl
  have hfields : ∀ l ∈ s.metadata.lines.map dropReturn, statesMetadata l.trim = true ∧ l.trim ≠ treeHeader := by
    intro l hl
    obtain ⟨k, hk, rfl⟩ := List.mem_map.mp hl
    rw [trim_dropReturn]
    exact (Metadata.trim_of_mem_lines hk).2
  have htree : ∀ l ∈ s.tree.lines.map dropReturn, "//".toList <+: l.trim := by
    intro l hl
    obtain ⟨k, hk, rfl⟩ := List.mem_map.mp hl
    rw [trim_dropReturn]
    exact DependencyTree.prefix_trim_of_mem_lines hk
  have htrim (ls : List Text) : (ls.map dropReturn).map trim = ls.map trim := by
    rw [List.map_map]
    exact List.map_congr_left fun l _ => trim_dropReturn l
  have hmeta : s.metadata.lines.map trim = s.metadata.lines := by
    calc s.metadata.lines.map trim = s.metadata.lines.map id :=
        List.map_congr_left fun l hl => (Metadata.trim_of_mem_lines hl).1
      _ = s.metadata.lines := List.map_id _
  have hheader : dropReturn treeHeader = treeHeader := by decide
  have hblank : dropReturn [] = [] := rfl
  have hsplit : s.belowFlow.map dropReturn ++ trail = s.metadata.lines.map dropReturn ++ ([] :: treeHeader ::
      (s.tree.lines.map dropReturn ++ [] :: ((Hint.insert s.metadata.state s.source.body).map dropReturn ++ trail))) := by
    simp [belowFlow, hheader, hblank]
  rw [hsplit, sort_fields_tree hfields htree, sort_body hbody, htrim, htrim, hmeta, List.append_nil]

/-- What is read of a section below its marker, but for carriage returns at the ends of its lines. -/
theorem Avoids.ofChunk_below {s : AnalyzedSection} (h : s.Avoids '\n')
    (hb : ∀ l ∈ s.source.body, statesMetadata l.trim = false) (m : Text) {trail : List Text}
    (ht : ∀ l ∈ trail, statesMetadata l.trim = false) :
    (ofChunk ⟨m, s.below.flatMap rows ++ trail⟩).metaLines =
        flowLine s.metadata.flow :: s.metadata.lines ++ treeHeader :: s.tree.lines.map trim ∧
      (ofChunk ⟨m, s.below.flatMap rows ++ trail⟩).body =
        [[], [], []] ++ ((Hint.insert s.metadata.state s.source.body).map dropReturn ++ trail) := by
  have hread := AnalyzedSection.ofChunk_below s m trail
  rwa [flatMap_rows_belowFlow h, sort_map_dropReturn hb ht] at hread

theorem Readable.sort_belowFlow {s : AnalyzedSection} (h : s.Readable) {trail : List Text}
    (ht : ∀ l ∈ trail, statesMetadata l.trim = false) :
    sort false (s.belowFlow ++ trail) =
      (s.metadata.lines ++ treeHeader :: s.tree.lines.map trim,
        [] :: [] :: (Hint.insert s.metadata.state s.source.body ++ trail)) := by
  have hsorted := sort_map_dropReturn h.body_stateless ht
  have hbody : ∀ l ∈ Hint.insert s.metadata.state s.source.body, l ∈ s.belowFlow := fun l hl => by
    simp [belowFlow, hl]
  have hreturn : ∀ l ∈ s.belowFlow, dropReturn l = l := fun l hl => dropReturn_of_not_mem (h.toWritable.not_mem_belowFlow hl).2
  have hmap {ls : List Text} (hls : ∀ l ∈ ls, dropReturn l = l) : ls.map dropReturn = ls := by
    rw [List.map_congr_left hls]
    exact List.map_id _
  rwa [hmap hreturn, hmap fun l hl => hreturn l (hbody l hl)] at hsorted

/-- What is read back of a section: everything that was written.  The lines `trail` stand behind it. -/
structure ReadBack (s : AnalyzedSection) (trail : List Text) (r : AnnotatedSection) : Prop where
  path : r.path = s.source.path
  metaLines : r.metaLines =
    flowLine s.metadata.flow :: s.metadata.lines ++ treeHeader :: s.tree.lines.map trim
  flow : r.flow? = some s.metadata.flow.label
  fields : ∀ p ∈ metaFields.zip s.metadata.values, r.field? p.1 = some p.2
  items : r.treeItems = s.tree.items
  body : r.body = [[], [], []] ++ Hint.insert s.metadata.state s.source.body ++ trail

/-- Each field is read off its own line, whatever stands behind these lines. -/
theorem field?_of_metaLines {s : AnalyzedSection} {r : AnnotatedSection} {rest : List Text}
    (hm : r.metaLines = flowLine s.metadata.flow :: s.metadata.lines ++ rest) {p : Text × Text}
    (hp : p ∈ metaFields.zip s.metadata.values) : r.field? p.1 = some p.2 := by
  obtain ⟨hfield, hvalue⟩ := List.of_mem_zip hp
  have hlines : s.metadata.lines.findSome? (fieldOn? p.1) = some p.2 := by
    have hmap : s.metadata.lines = (metaFields.zip s.metadata.values).map fun q => trim (metaLine q.1 q.2) := by
      rw [Metadata.lines_eq_map]
      refine List.map_congr_left fun q hq => ?_
      have hq' : metaLine q.1 q.2 ∈ s.metadata.lines := List.mem_map_of_mem hq
      exact (Metadata.trim_of_mem_lines hq').1.symm
    rw [hmap, findSome?_fieldOn? hfield fun q hq => (List.of_mem_zip hq).1, lookup_zip (by decide) hp,
      Option.map_some, Metadata.trim_of_mem_values hvalue]
  rw [field?, hm, List.cons_append, List.findSome?_cons, fieldOn?_flowLine]
  dsimp only
  rw [List.findSome?_append, hlines, Option.some_or]

/-- Only the lines of the tree list items. -/
theorem treeItems_of_metaLines {s : AnalyzedSection} {r : AnnotatedSection}
    (hm : r.metaLines = flowLine s.metadata.flow :: s.metadata.lines ++ treeHeader :: s.tree.lines.map trim)
    (hbranch : ¬ "├──".toList <+: s.tree.name.trimStart) (hlast : ¬ "└──".toList <+: s.tree.name.trimStart)
    (hitems : ∀ x ∈ s.tree.items, x ≠ [] ∧ x.trim = x ∧ ',' ∉ x) : r.treeItems = s.tree.items := by
  have hheader : itemsOn treeHeader = [] := by decide
  have hfields : s.metadata.lines.flatMap itemsOn = [] := by
    rw [List.flatMap_eq_nil_iff]
    intro l hl
    have htrim := (Metadata.trim_of_mem_lines hl).1
    rw [Metadata.lines_eq_map] at hl
    obtain ⟨p, -, rfl⟩ := List.mem_map.mp hl
    rw [← htrim, itemsOn_metaLine]
  have hname : itemsOn (trim ("// ".toList ++ s.tree.name)) = [] :=
    itemsOn_of_not_prefix hbranch hlast
  have hbuckets : ((DependencyTree.bucketLines s.tree.buckets).map trim).flatMap itemsOn = s.tree.items := by
    have hlabels : ∀ f ∈ DependencyTree.bucketLabels, ':' ∉ f := by decide
    refine DependencyTree.itemsOn_bucketLines (fun b hb => hlabels _ (DependencyTree.mem_buckets hb).1) ?_ ?_
    · intro b hb
      have hfull := (List.mem_filter.mp hb).2
      simpa using hfull
    · exact fun b hb x hx => hitems x ((DependencyTree.mem_buckets hb).2 x hx)
  rw [treeItems, hm]
  simp only [DependencyTree.lines, List.map_cons, List.flatMap_cons, List.flatMap_append, List.cons_append,
    itemsOn_flowLine, hheader, hfields, hbuckets, List.nil_append]
  rw [hname, List.nil_append]

theorem Readable.readBack {s : AnalyzedSection} (h : s.Readable) {trail : List Text}
    (ht : ∀ l ∈ trail, statesMetadata l.trim = false) :
    s.ReadBack trail (ofChunk ⟨dropReturn s.marker, s.below.flatMap rows ++ trail⟩) := by
  obtain ⟨hmeta, hbody⟩ := ofChunk_below s (dropReturn s.marker) trail
  rw [h.toWritable.flatMap_rows, h.sort_belowFlow ht] at hmeta hbody
  exact {
    path := h.toWritable.bounded.path_marker _
    metaLines := hmeta
    flow := flow?_of_flowLine hmeta
    fields := fun p hp => field?_of_metaLines hmeta hp
    items := treeItems_of_metaLines hmeta h.name_no_branch h.name_no_last h.items
    body := by simpa using hbody }

/-- Annotated sections are read back: as many, in order, each with all that was stated about it and with its
body, behind which only the lines above the next marker stand. -/
theorem allIn_endLines {ss : List AnalyzedSection} (h : ∀ s ∈ ss, s.Readable) :
    (allIn (Text.endLines (ss.flatMap lines))).length = ss.length ∧
      ∀ (i : Nat) (s : AnalyzedSection), ss[i]? = some s →
        ∃ r, (allIn (Text.endLines (ss.flatMap lines)))[i]? = some r ∧
          s.ReadBack (if i + 1 = ss.length then [] else [[], separatorLine]) r := by
  have hcut : allIn (Text.endLines (ss.flatMap lines)) = (chunks ss).map ofChunk := by
    rw [allIn, cut_text fun s hs => (h s hs).toWritable.bounded]
  have hlead : ∀ l ∈ lead, statesMetadata l.trim = false := by decide
  constructor
  · have hpaths := congrArg List.length (map_path_chunks fun s hs => (h s hs).toWritable.bounded)
    rw [hcut, List.length_map]
    simpa using hpaths
  · intro i s hi
    have htrail : ∀ l ∈ (if i + 1 = ss.length then [] else lead), statesMetadata l.trim = false := by
      split
      · simp
      · exact hlead
    refine ⟨_, ?_, (h s (List.mem_of_getElem? hi)).readBack htrail⟩
    rw [hcut, List.getElem?_map, getElem?_chunks, hi]
    rfl

/-- A section whose body begins with a comment and ends with a separator. -/
def panel : AnalyzedSection where
  source := {
    path := "src/Panel.tsx"
    header := []
    body := ["// Opens and closes.", "", "  const [open, setOpen] = useState(false);", "// ===="] }
  metadata := {
    role := .uiComponent
    flow := .shared
    framework := .clientComponent
    state := [⟨"open", "setOpen", "boolean", "false", .useState⟩]
    props := ["title", "children"]
    contexts := []
    endpoints := [.literal "/api/a"]
    imports := ["react", "log"] }
  tree := { name := "Panel", hooks := ["useA", "useB"], uses := [], services := ["log"], libs := [] }

theorem readable_panel : panel.Readable where
  trim_path := by decide
  no_lineFeed := ⟨by decide, by decide, by decide, by decide, by decide, by decide, by decide, by decide, by decide⟩
  no_return := ⟨by decide, by decide, by decide, by decide, by decide, by decide, by decide, by decide, by decide⟩
  body_markerless := by decide
  body_stateless := by decide
  name_no_marker := by decide
  name_no_branch := by decide
  name_no_last := by decide
  items := by decide

theorem allIn_endLines_panel : ∃ r, (allIn (Text.endLines ([panel, panel].flatMap lines)))[0]? = some r ∧
    panel.ReadBack [[], separatorLine] r := by
  have hreadable : ∀ s ∈ [panel, panel], s.Readable := by
    intro s hs
    obtain rfl : s = panel := by simpa using hs
    exact readable_panel
  exact (allIn_endLines hreadable).2 0 panel rfl

end AnalyzedSection

end SourceArchive
