import SourceArchive.Proofs.Sections

/-!
# How the reader sorts written lines

The reader of annotated archives goes through the lines below a marker with one bit of state: whether a dependency tree
is open.  The laws of `sort` say what one stretch of lines does to it.  The laws of `fieldOn?` and `itemsOn` say what
is read off a written metadata line and a written tree line.
-/

namespace SourceArchive

open Text Layout

/-! ## Written lines, trimmed -/

namespace Text

theorem trim_append_inked {a : Text} (hs : StartsInked a) (he : EndsInked a) (b : Text) :
    (a ++ b).trim = a ++ b.trimEnd := by
  rw [trim, (hs.append b).trimStart_eq, trimEnd_append_inked he]

theorem trim_trimEnd_space (x : Text) : (trimEnd (" ".toList ++ x)).trim = x.trim := by
  rw [trim_trimEnd, trim, trimStart_blank_append blank_space, ← trim]

end Text

namespace AnnotatedSection

/-! ## Sorting -/

theorem statesMetadata_trim {start x : Text} (h : start = flowStart ∨ start = metaStart) :
    statesMetadata (trim (start ++ x)) = true ∧ trim (start ++ x) ≠ treeHeader := by
  have hs : StartsInked start ∧ EndsInked start ∧ ¬ start <+: treeHeader := by
    rcases h with rfl | rfl
    · exact ⟨foreign_flowStart.inked, ⟨"// FLOW".toList, ':', rfl, rfl⟩, by decide⟩
    · exact ⟨foreign_metaStart.inked, ⟨"// META".toList, ':', rfl, rfl⟩, by decide⟩
  obtain ⟨hstart, hend, hheader⟩ := hs
  have hp : start <+: trim (start ++ x) := by
    rw [trim_append_inked hstart hend]
    exact List.prefix_append _ _
  constructor
  · rcases h with rfl | rfl <;> simp [statesMetadata, hp]
  · intro he
    rw [he] at hp
    exact hheader hp

theorem sort_of_states {l : Text} (h : statesMetadata l.trim = true) (hne : l.trim ≠ treeHeader) (rest : List Text) :
    sort false (l :: rest) = (l.trim :: (sort false rest).1, (sort false rest).2) := by
  have hb : (l.trim == treeHeader) = false := by simpa using hne
  simp [sort, h, hb]

theorem sort_treeHeader (rest : List Text) :
    sort false (treeHeader :: rest) = (treeHeader :: (sort true rest).1, (sort true rest).2) := by
  have ht : trim treeHeader = treeHeader := by decide
  have hs : statesMetadata treeHeader = true := by decide
  simp [sort, ht, hs]

/-- A blank line belongs to the body and ends a tree. -/
theorem sort_nil_cons (inTree : Bool) (rest : List Text) :
    sort inTree ([] :: rest) = ((sort false rest).1, [] :: (sort false rest).2) := by
  have hc : (inTree && startsWith (trim []) "//" || statesMetadata (trim [])) = false := by
    cases inTree <;> decide
  rw [sort]
  simp only [hc, Bool.false_eq_true, if_false]

theorem sort_fields {ls : List Text} (h : ∀ l ∈ ls, statesMetadata l.trim = true ∧ l.trim ≠ treeHeader)
    (rest : List Text) : sort false (ls ++ rest) = (ls.map trim ++ (sort false rest).1, (sort false rest).2) := by
  induction ls with
  | nil => rfl
  | cons l ls ih =>
    obtain ⟨hl, hne⟩ := h l List.mem_cons_self
    rw [List.cons_append, sort_of_states hl hne, ih fun x hx => h x (List.mem_cons_of_mem _ hx)]
    rfl

theorem sort_tree {ls : List Text} (h : ∀ l ∈ ls, "//".toList <+: l.trim) (rest : List Text) :
    sort true (ls ++ rest) = (ls.map trim ++ (sort true rest).1, (sort true rest).2) := by
  induction ls with
  | nil => rfl
  | cons l ls ih =>
    have hl : startsWith l.trim "//" = true := startsWith_iff.mpr (h l List.mem_cons_self)
    rw [List.cons_append, sort]
    simp only [hl, Bool.and_self, Bool.true_or, if_true, ih fun x hx => h x (List.mem_cons_of_mem _ hx)]
    rfl

theorem sort_body {ls : List Text} (h : ∀ l ∈ ls, statesMetadata l.trim = false) : sort false ls = ([], ls) := by
  induction ls with
  | nil => rfl
  | cons l ls ih =>
    have hl := h l List.mem_cons_self
    rw [sort, ih fun x hx => h x (List.mem_cons_of_mem _ hx)]
    simp [hl]

/-- Fields, a tree and the blank line behind it are sorted the same way whatever stands below. -/
theorem sort_fields_tree {fields tree : List Text} (hf : ∀ l ∈ fields, statesMetadata l.trim = true ∧ l.trim ≠ treeHeader)
    (ht : ∀ l ∈ tree, "//".toList <+: l.trim) (rest : List Text) :
    sort false (fields ++ [] :: treeHeader :: (tree ++ [] :: rest)) =
      (fields.map trim ++ treeHeader :: (tree.map trim ++ (sort false rest).1), [] :: [] :: (sort false rest).2) := by
  rw [sort_fields hf, sort_nil_cons, sort_treeHeader, sort_tree ht, sort_nil_cons]

/-- A line that states metadata is found wherever it stands. -/
theorem trim_mem_sort {ls : List Text} {l : Text} (hl : l ∈ ls) (h : statesMetadata l.trim = true) (inTree : Bool) :
    l.trim ∈ (sort inTree ls).1 := by
  induction ls generalizing inTree with
  | nil => simp at hl
  | cons k ls ih =>
    rcases List.mem_cons.mp hl with rfl | hl
    · simp [sort, h]
    · rw [sort]
      dsimp only
      split
      · exact List.mem_cons_of_mem _ (ih hl _)
      · exact ih hl _

/-! ## Metadata lines -/

theorem trim_metaLine (field value : Text) :
    trim (metaLine field value) = metaStart ++ " ".toList ++ field ++ ":".toList ++ trimEnd (" ".toList ++ value) := by
  have hs : StartsInked (metaStart ++ " ".toList ++ field ++ ":".toList) := ⟨'/', _, rfl, rfl⟩
  have he : EndsInked (metaStart ++ " ".toList ++ field ++ ":".toList) := ⟨_, ':', rfl, rfl⟩
  rw [← trim_append_inked hs he]
  simp [metaLine]

theorem statesMetadata_metaLine (field value : Text) :
    statesMetadata (trim (metaLine field value)) = true ∧ trim (metaLine field value) ≠ treeHeader := by
  simp only [metaLine, List.append_assoc]
  exact statesMetadata_trim (Or.inr rfl)

/-- A metadata line states its value for its own field and for no other. -/
theorem fieldOn?_metaLine {name field : Text} (hn : ':' ∉ name) (hf : ':' ∉ field) (hs : StartsInked field)
    (value : Text) :
    fieldOn? name (trim (metaLine field value)) = if field = name then some value.trim else none := by
  have hbehind : trimStart (" ".toList ++ field ++ ":".toList ++ trimEnd (" ".toList ++ value)) =
      field ++ ':' :: trimEnd (" ".toList ++ value) := by
    rw [List.append_assoc, List.append_assoc, trimStart_append_of_inked blank_space (hs.append _)]
    rfl
  have hstart : after? (trim (metaLine field value)) metaStart =
      some (" ".toList ++ field ++ ":".toList ++ trimEnd (" ".toList ++ value)) := by
    rw [trim_metaLine, after?_eq_some_iff]
    simp
  simp only [fieldOn?, hstart, Option.bind_eq_bind, Option.bind_some, hbehind]
  split
  · rename_i h
    rw [h, after?_append]
    change (after? (":".toList ++ trimEnd (" ".toList ++ value)) ":").bind _ = _
    rw [after?_append, Option.bind_some, trim_trimEnd_space]
  · rename_i h
    rw [Option.bind_eq_none_iff]
    intro rest hrest
    rw [Option.bind_eq_none_iff]
    intro v hv
    exfalso
    -- both texts are cut at the first colon
    obtain rfl := after?_eq_some_iff.mp hv
    have hcut := congrArg (cutAt? ':') (after?_eq_some_iff.mp hrest)
    have hname : cutAt? ':' (name ++ (":".toList ++ v)) = some (name, v) := cutAt?_append hn v
    rw [hname, cutAt?_append hf] at hcut
    exact h (Prod.mk.inj (Option.some.inj hcut)).1.symm

/-! ## Tree lines -/

/-- What stands behind the comment sign decides whether a line has a connector. -/
theorem afterConnector?_trim (x : Text) :
    afterConnector? (trim ("// ".toList ++ x)) = (after? x.trim "├──").or (after? x.trim "└──") := by
  have hs : StartsInked "//".toList := ⟨'/', _, rfl, by decide⟩
  have he : EndsInked "//".toList := ⟨['/'], '/', rfl, by decide⟩
  have ht : trim ("// ".toList ++ x) = "//".toList ++ trimEnd (" ".toList ++ x) := by
    rw [← trim_append_inked hs he]
    rfl
  have hx : trimStart (trimEnd (" ".toList ++ x)) = x.trim := by
    rw [trimStart_trimEnd, trim, trimStart_blank_append blank_space, ← trim]
  rw [afterConnector?, ht]
  simp only [after?_append, Option.bind_eq_bind, Option.bind_some, hx]

theorem endsInked_connector {connector : Text} (h : connector = "├──".toList ∨ connector = "└──".toList) :
    EndsInked connector := by
  rcases h with rfl | rfl
  · exact ⟨"├─".toList, '─', rfl, by decide⟩
  · exact ⟨"└─".toList, '─', rfl, by decide⟩

theorem itemsOn_of_not_prefix {x : Text} (hb : ¬ "├──".toList <+: x.trimStart) (hl : ¬ "└──".toList <+: x.trimStart) :
    itemsOn (trim ("// ".toList ++ x)) = [] := by
  have hb' : after? x.trim "├──" = none := by
    rw [after?_eq_none_iff, prefix_trim_iff (endsInked_connector (Or.inl rfl))]
    exact hb
  have hl' : after? x.trim "└──" = none := by
    rw [after?_eq_none_iff, prefix_trim_iff (endsInked_connector (Or.inr rfl))]
    exact hl
  rw [itemsOn, afterConnector?_trim, hb', hl']
  rfl

/-- A metadata line lists no items, whatever its value. -/
theorem itemsOn_metaLine (field value : Text) : itemsOn (trim (metaLine field value)) = [] := by
  have hsplit : metaLine field value = "// ".toList ++ ('M' :: ("ETA: ".toList ++ field ++ ": ".toList ++ value)) := rfl
  have hinked : StartsInked ('M' :: ("ETA: ".toList ++ field ++ ": ".toList ++ value)) := ⟨'M', _, rfl, by decide⟩
  rw [hsplit]
  apply itemsOn_of_not_prefix
  · rw [hinked.trimStart_eq]
    exact fun hp => absurd (List.cons_prefix_cons.mp hp).1 (by decide)
  · rw [hinked.trimStart_eq]
    exact fun hp => absurd (List.cons_prefix_cons.mp hp).1 (by decide)

/-- Listed items are cut at commas again. -/
theorem splitAt_space_join {items : List Text} (hne : items ≠ []) (h : ∀ x ∈ items, ',' ∉ x) :
    Text.splitAt ',' (" ".toList ++ Text.join ", " items) = items.map (" ".toList ++ ·) := by
  obtain ⟨a, rest, rfl⟩ := List.exists_cons_of_ne_nil hne
  have hjoin : " ".toList ++ Text.join ", " (a :: rest) =
      Text.join [','] ((" ".toList ++ a) :: rest.map (" ".toList ++ ·)) := by
    rw [join_cons, join_cons, List.flatMap_map, List.append_assoc]
    rfl
  have hspace {x : Text} (hx : ',' ∉ x) : ',' ∉ " ".toList ++ x := by simpa using hx
  rw [hjoin, splitAt_join (hspace (h a List.mem_cons_self))]
  · rfl
  · intro t ht
    obtain ⟨x, hx, rfl⟩ := List.mem_map.mp ht
    exact hspace (h x (List.mem_cons_of_mem _ hx))

theorem endsInked_of_trim_eq {x : Text} (hne : x ≠ []) (h : x.trim = x) : EndsInked x := by
  rcases blank_or_exists_trim x with hb | ⟨a, m, b, rfl, ha, hs, he, hb⟩
  · rw [hb.trim_eq] at h
    exact absurd h.symm hne
  · rw [trim_of_parts ha hs he hb] at h
    rwa [← h]

theorem endsInked_join {sep : Text} {items : List Text} (hne : items ≠ []) (h : ∀ x ∈ items, EndsInked x) :
    EndsInked (Text.join sep items) := by
  induction items with
  | nil => exact absurd rfl hne
  | cons a rest ih =>
    cases rest with
    | nil =>
      rw [join_singleton]
      exact h a List.mem_cons_self
    | cons b rest =>
      rw [join_cons_cons]
      exact (ih (by simp) fun x hx => h x (List.mem_cons_of_mem _ hx)).append _

/-- A connector is a sign that the reader knows, and a space. -/
theorem exists_sign {connector : Text} (h : connector = treeBranch ∨ connector = treeLast) :
    ∃ sign : Text, connector = sign ++ " ".toList ∧
      ∀ y : Text, StartsInked (sign ++ y) ∧ (after? (sign ++ y) "├──").or (after? (sign ++ y) "└──") = some y := by
  rcases h with rfl | rfl
  · refine ⟨"├──".toList, rfl, fun y => ⟨⟨'├', _, rfl, by decide⟩, ?_⟩⟩
    rw [after?_append, Option.some_or]
  · refine ⟨"└──".toList, rfl, fun y => ⟨⟨'└', _, rfl, by decide⟩, ?_⟩⟩
    have hn : after? ("└──".toList ++ y) "├──" = none := rfl
    rw [hn, after?_append, Option.none_or]

/-- A written tree line gives back the items that it lists. -/
theorem itemsOn_bucketLine {connector label : Text} {items : List Text}
    (hc : connector = treeBranch ∨ connector = treeLast) (hlabel : ':' ∉ label) (hne : items ≠ [])
    (h : ∀ x ∈ items, x ≠ [] ∧ x.trim = x ∧ ',' ∉ x) :
    itemsOn (trim ("// ".toList ++ connector ++ label ++ ": ".toList ++ Text.join ", " items)) = items := by
  obtain ⟨c, hcon, hafter⟩ := exists_sign hc
  have hitem : ∀ x ∈ items, EndsInked x := fun x hx => endsInked_of_trim_eq (h x hx).1 (h x hx).2.1
  have hend : EndsInked (c ++ (" ".toList ++ label ++ ':' :: (" ".toList ++ Text.join ", " items))) := by
    have hjoin : EndsInked (Text.join ", " items) := endsInked_join hne hitem
    have happend := hjoin.append (c ++ " ".toList ++ label ++ ": ".toList)
    simpa using happend
  have hline : "// ".toList ++ connector ++ label ++ ": ".toList ++ Text.join ", " items =
      "// ".toList ++ (c ++ (" ".toList ++ label ++ ':' :: (" ".toList ++ Text.join ", " items))) := by
    simp [hcon]
  have hcolon : ':' ∉ " ".toList ++ label := by simpa using hlabel
  have htrim : ∀ x ∈ items, trim (" ".toList ++ x) = x := by
    intro x hx
    rw [← trim_trimEnd, trim_trimEnd_space, (h x hx).2.1]
  rw [hline, itemsOn, afterConnector?_trim, trim_eq_self (hafter _).1 hend, (hafter _).2, Option.bind_some,
    cutAt?_append hcolon]
  dsimp only
  rw [splitAt_space_join hne fun x hx => (h x hx).2.2, List.map_map]
  have hmap : items.map (trim ∘ (" ".toList ++ ·)) = items := by
    calc items.map (trim ∘ (" ".toList ++ ·)) = items.map id := List.map_congr_left htrim
      _ = items := List.map_id items
  rw [hmap, List.filter_eq_self]
  intro x hx
  simpa using (h x hx).1

/-! ## The flow and the fields of a section -/

theorem trim_flowLine (f : Flow) : (flowLine f).trim = flowLine f := by cases f <;> decide

theorem statesMetadata_flowLine (f : Flow) :
    statesMetadata (flowLine f).trim = true ∧ (flowLine f).trim ≠ treeHeader := by
  rw [flowLine, List.append_assoc]
  exact statesMetadata_trim (Or.inl rfl)

theorem itemsOn_flowLine (f : Flow) : itemsOn (flowLine f) = [] := by cases f <;> decide

theorem flow?_of_flowLine {s : AnnotatedSection} {f : Flow} {rest : List Text} (h : s.metaLines = flowLine f :: rest) :
    s.flow? = some f.label := by
  have ht : trim (" ".toList ++ f.label) = f.label := by cases f <;> decide
  rw [flow?, h, List.findSome?_cons, flowLine, List.append_assoc, after?_append, Option.map_some]
  exact congrArg some ht

theorem fieldOn?_flowLine (name : Text) (f : Flow) : fieldOn? name (flowLine f) = none := by
  have hn : after? (flowLine f) metaStart = none := by cases f <;> decide
  simp [fieldOn?, hn]

theorem metaFields_spec {f : Text} (h : f ∈ metaFields) : ':' ∉ f ∧ StartsInked f := by
  have hall : ∀ f ∈ metaFields, ':' ∉ f ∧ f.head?.any (!isBlank ·) = true := by decide
  obtain ⟨hcolon, hhead⟩ := hall f h
  cases f with
  | nil => simp at hhead
  | cons c r => exact ⟨hcolon, c, r, rfl, by simpa using hhead⟩

/-- Of metadata lines with different fields, the one with the name of the field gives its value. -/
theorem findSome?_fieldOn? {name : Text} (hn : name ∈ metaFields) {fs : List (Text × Text)}
    (h : ∀ p ∈ fs, p.1 ∈ metaFields) :
    (fs.map fun p => trim (metaLine p.1 p.2)).findSome? (fieldOn? name) = (fs.lookup name).map trim := by
  induction fs with
  | nil => rfl
  | cons p fs ih =>
    obtain ⟨hcolon, hinked⟩ := metaFields_spec (h p List.mem_cons_self)
    rw [List.map_cons, List.findSome?_cons, fieldOn?_metaLine (metaFields_spec hn).1 hcolon hinked,
      List.lookup_cons]
    by_cases he : p.1 = name
    · simp [he]
    · have hb : (name == p.1) = false := by simpa using Ne.symm he
      simp [he, hb, ih fun q hq => h q (List.mem_cons_of_mem _ hq)]

end AnnotatedSection

/-! ## Written sections -/

namespace AnalyzedSection

open AnnotatedSection

/-- The lines below the flow and the blank line behind it. -/
def belowFlow (s : AnalyzedSection) : List Text :=
  s.metadata.lines ++ ([] :: treeHeader :: s.tree.lines) ++ [] :: Hint.insert s.metadata.state s.source.body

theorem flatMap_rows_below (s : AnalyzedSection) :
    s.below.flatMap rows = separatorLine :: flowLine s.metadata.flow :: [] :: s.belowFlow.flatMap rows := by
  have hsep : rows separatorLine = [separatorLine] := by decide
  have hflow : rows (flowLine s.metadata.flow) = [flowLine s.metadata.flow] := by
    cases s.metadata.flow <;> decide
  have hblank : rows [] = [[]] := by decide
  have hbelow : s.below = separatorLine :: flowLine s.metadata.flow :: [] :: s.belowFlow := by
    simp [below, belowFlow, flowLine]
  rw [hbelow, List.flatMap_cons, List.flatMap_cons, List.flatMap_cons, hsep, hflow, hblank]
  rfl

/-- The separator below a marker is dropped, and the flow is the first that is stated. -/
theorem ofChunk_below (s : AnalyzedSection) (m : Text) (trail : List Text) :
    let sorted := sort false (s.belowFlow.flatMap rows ++ trail)
    (ofChunk ⟨m, s.below.flatMap rows ++ trail⟩).metaLines = flowLine s.metadata.flow :: sorted.1 ∧
      (ofChunk ⟨m, s.below.flatMap rows ++ trail⟩).body = [] :: sorted.2 := by
  have hsep : isSeparator separatorLine = true := by decide
  have hflow : isSeparator (flowLine s.metadata.flow) = false := by cases s.metadata.flow <;> decide
  obtain ⟨hstates, hne⟩ := statesMetadata_flowLine s.metadata.flow
  rw [flatMap_rows_below]
  simp only [ofChunk, List.cons_append, List.dropWhile_cons, hsep, hflow, if_true, Bool.false_eq_true, if_false,
    sort_of_states hstates hne, sort_nil_cons, trim_flowLine, and_self]

end AnalyzedSection

end SourceArchive
