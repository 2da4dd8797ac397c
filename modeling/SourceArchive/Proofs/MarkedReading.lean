import SourceArchive.Proofs.Marking
import SourceArchive.Proofs.RoundTrip

/-!
# Annotations can be read behind the mark pass

A mark is a comment, and the reader takes every comment that follows a dependency tree for a part of the tree.  But all
lines above a body are comments or blank and take no marks, and the blank line behind the tree ends it before the
first mark can come (`ofChunk_aboveBody`).  So the reader finds the same annotations before and after the mark pass,
and the pass does to the bodies that are read what it does to the archive (`allIn_archive`).
-/

namespace SourceArchive

open Layout Text MarkedLine Mark AnnotatedSection

/-! ## Chunks of a marked archive -/

/-- The chunk with marks above its lines. -/
def Chunk.marked (c : Chunk) : Chunk := { c with lines := (pass (some []) c.lines).flatMap written }

theorem Chunk.proper_marked {c : Chunk} (h : c.Proper) : c.marked.Proper where
  marked := h.marked
  markerless := by
    intro l hl
    rcases mem_written hl with hl | ⟨m, hl⟩
    · exact h.markerless l hl
    · exact (lines_spec l hl).1

theorem Chunk.cut_written (ls : List Text) :
    cut ((pass none ls).flatMap written) = ((cut ls).1, (cut ls).2.map Chunk.marked) := by
  obtain ⟨hbefore, hchunks⟩ := markerless_and_proper_cut ls
  have hmarked : ∀ c ∈ (cut ls).2.map Chunk.marked, c.Proper := by
    intro c hc
    obtain ⟨d, hd, rfl⟩ := List.mem_map.mp hc
    exact proper_marked (hchunks d hd)
  have huncut : (pass none ls).flatMap written = uncut (cut ls).1 ((cut ls).2.map Chunk.marked) := by
    rw [pass_eq_cut, List.flatMap_append, flatMap_written_bare, List.flatMap_assoc, uncut, List.flatMap_map]
    rfl
  rw [huncut, cut_uncut hbefore hmarked]

/-! ## Annotations -/

theorem Mark.stateless_lines {m : Mark} : ∀ k ∈ m.lines, statesMetadata k.trim = false := by
  cases m <;> decide

theorem Mark.stateless_written {ls : List Text} (h : ∀ l ∈ ls, statesMetadata l.trim = false) :
    ∀ k ∈ (pass (some []) ls).flatMap written, statesMetadata k.trim = false := by
  intro k hk
  rcases mem_written hk with hk | ⟨m, hk⟩
  · exact h k hk
  · exact stateless_lines k hk

theorem Mark.isPassive_of_statesMetadata {t : Text} (h : statesMetadata t = true) : isPassive t = true := by
  simp only [statesMetadata, Bool.or_eq_true, startsWith_iff, beq_iff_eq] at h
  rcases h with (h | h) | rfl
  · exact isPassive_of_comment (List.IsPrefix.trans (by decide) h)
  · exact isPassive_of_comment (List.IsPrefix.trans (by decide) h)
  · decide

namespace AnalyzedSection

variable {s : AnalyzedSection}

/-- The lines between the marker and the body. -/
def aboveBody (s : AnalyzedSection) : List Text :=
  [separatorLine, flowLine s.metadata.flow, []] ++
    (s.metadata.lines ++ [] :: treeHeader :: (s.tree.lines ++ [[]]))

theorem isPassive_of_mem_aboveBody {l : Text} (h : l ∈ s.aboveBody) : isPassive l.trim = true := by
  simp only [aboveBody, List.mem_append, List.mem_cons, List.not_mem_nil, or_false] at h
  rcases h with (rfl | rfl | rfl) | h | rfl | rfl | h | rfl
  · decide
  · exact isPassive_of_statesMetadata (statesMetadata_flowLine _).1
  · decide
  · exact isPassive_of_statesMetadata (Metadata.trim_of_mem_lines h).2.1
  · decide
  · decide
  · exact isPassive_of_comment (DependencyTree.prefix_trim_of_mem_lines h)
  · decide

/-- What an annotation states does not depend on the lines below it, and these lines are the body, if none of them states
metadata of its own. -/
theorem ofChunk_aboveBody (s : AnalyzedSection) (m : Text) {ls : List Text}
    (h : ∀ l ∈ ls, statesMetadata l.trim = false) :
    ofChunk ⟨m, s.aboveBody ++ ls⟩ =
      { path := Chunk.path ⟨m, []⟩
        metaLines := flowLine s.metadata.flow :: (s.metadata.lines.map trim ++ treeHeader :: s.tree.lines.map trim)
        body := [[], [], []] ++ ls } := by
  have hsep : isSeparator separatorLine = true := by decide
  have hflow : isSeparator (flowLine s.metadata.flow) = false := by cases s.metadata.flow <;> decide
  obtain ⟨hstates, hne⟩ := statesMetadata_flowLine s.metadata.flow
  have hlines : s.aboveBody ++ ls = separatorLine :: flowLine s.metadata.flow :: [] ::
      (s.metadata.lines ++ [] :: treeHeader :: (s.tree.lines ++ [] :: ls)) := by
    simp [aboveBody]
  have hsorted := sort_fields_tree (fun l hl => (Metadata.trim_of_mem_lines (m := s.metadata) hl).2)
    (fun l hl => DependencyTree.prefix_trim_of_mem_lines (t := s.tree) hl) ls
  rw [sort_body h, List.append_nil] at hsorted
  rw [ofChunk, hlines, List.dropWhile_cons_of_pos hsep, List.dropWhile_cons_of_neg (by simp [hflow]),
    sort_of_states hstates hne, sort_nil_cons, hsorted, trim_flowLine]
  rfl

/-- A section that was written is an annotation above a body. -/
theorem Writable.below_eq (h : s.Writable) (trail : List Text) :
    s.below.flatMap rows ++ trail = s.aboveBody ++ (Hint.insert s.metadata.state s.source.body ++ trail) := by
  rw [flatMap_rows_below, h.flatMap_rows, belowFlow, aboveBody]
  simp

/-- Marks do not reach the annotation. -/
theorem Writable.ofChunk_marked (h : s.Writable) {m : Text} {trail : List Text}
    (ht : ∀ l ∈ trail, statesMetadata l.trim = false)
    (hproper : Chunk.Proper ⟨m, s.below.flatMap rows ++ trail⟩) :
    let r := ofChunk ⟨m, s.below.flatMap rows ++ trail⟩
    ofChunk (Chunk.marked ⟨m, s.below.flatMap rows ++ trail⟩) =
      { r with body := (pass (some []) r.body).flatMap written } := by
  have hmarkerless := hproper.markerless
  rw [h.below_eq] at hmarkerless ⊢
  have hbody : ∀ l ∈ Hint.insert s.metadata.state s.source.body ++ trail, statesMetadata l.trim = false := by
    intro l hl
    exact (List.mem_append.mp hl).elim (Hint.stateless_insert h.body_stateless l) (ht l)
  have habove : ∀ l ∈ s.aboveBody, isPassive l.trim = true ∧ isMarker l = false := fun l hl =>
    ⟨isPassive_of_mem_aboveBody hl, hmarkerless l (List.mem_append_left _ hl)⟩
  have hblank : ∀ l ∈ ([[], [], []] : List Text), isPassive l.trim = true ∧ isMarker l = false := by decide
  rw [Chunk.marked]
  dsimp only
  rw [pass_passive habove, List.flatMap_append, flatMap_written_bare,
    ofChunk_aboveBody s m (stateless_written hbody), ofChunk_aboveBody s m hbody]
  dsimp only
  rw [pass_passive hblank, List.flatMap_append, flatMap_written_bare]

/-! ## Annotated archives -/

theorem not_mem_endLines {ss : List AnalyzedSection} (h : ∀ s ∈ ss, s.Writable) :
    '\r' ∉ Text.endLines (ss.flatMap lines) := by
  intro hm
  obtain ⟨l, hl, hm⟩ := List.mem_flatMap.mp hm
  obtain ⟨s, hs, hl⟩ := List.mem_flatMap.mp hl
  have hline : '\r' ∉ l := (forall_mem_lines_iff (Or.inr rfl)).mpr (h s hs).no_return l hl
  rcases List.mem_append.mp hm with hm | hm
  · exact hline hm
  · exact absurd (List.mem_singleton.mp hm) (by decide)

/-- Reading and marking can be done in either order. -/
theorem allIn_archive {ss : List AnalyzedSection} (h : ∀ s ∈ ss, s.Writable) :
    allIn (Mark.archive (Text.endLines (ss.flatMap lines))) =
      (allIn (Text.endLines (ss.flatMap lines))).map fun r =>
        { r with body := (pass (some []) r.body).flatMap written } := by
  have hbounded : ∀ s ∈ ss, s.Bounded := fun s hs => (h s hs).bounded
  have hlead : ∀ l ∈ lead, statesMetadata l.trim = false := by decide
  rw [allIn, (lines_archive (not_mem_endLines h)).1, Chunk.cut_written, allIn, cut_text hbounded, List.map_map,
    List.map_map]
  refine List.map_congr_left fun c hc => ?_
  have hproper := proper_chunks hbounded c hc
  obtain ⟨s, hs, trail, htrail, rfl⟩ := exists_of_mem_chunks hc
  refine (h s hs).ofChunk_marked ?_ hproper
  rcases htrail with rfl | rfl
  · simp
  · exact hlead

/-- Marking an annotated archive leaves its annotations as they are: the reader finds as many sections, in order, with
the same paths and the same stated lines, and so with the same flow, fields and items; without the lines that were
inserted the bodies are the same. -/
theorem marking_keeps_annotations {ss : List AnalyzedSection} (h : ∀ s ∈ ss, s.Writable) :
    let annotated := Text.endLines (ss.flatMap lines)
    (allIn (Mark.archive annotated)).length = (allIn annotated).length ∧
      ∀ (i : Nat) (r : AnnotatedSection), (allIn annotated)[i]? = some r →
        ∃ r', (allIn (Mark.archive annotated))[i]? = some r' ∧ r'.path = r.path ∧ r'.metaLines = r.metaLines ∧
          r'.flow? = r.flow? ∧ (∀ name, r'.field? name = r.field? name) ∧ r'.treeItems = r.treeItems ∧
            r'.body = (pass (some []) r.body).flatMap written ∧ (pass (some []) r.body).map (·.text) = r.body := by
  intro annotated
  have hread := allIn_archive h
  constructor
  · rw [hread, List.length_map]
  · intro i r hi
    refine ⟨{ r with body := (pass (some []) r.body).flatMap written }, ?_, rfl, rfl, rfl, fun _ => rfl, rfl, rfl,
      map_text_pass _ _⟩
    rw [hread, List.getElem?_map, hi]
    rfl

/-- A section whose body takes a mark on its first line. -/
def card : AnalyzedSection where
  source := {
    path := "src/Card.tsx"
    header := []
    body := ["import log", "export function Card() \x7b", "  const [open, setOpen] = useState(false);"] }
  metadata := panel.metadata
  tree := { name := "Card", hooks := ["useA"], uses := [], services := ["log"], libs := [] }

theorem writable_card : card.Writable where
  trim_path := by decide
  no_lineFeed := ⟨by decide, by decide, by decide, by decide, by decide, by decide, by decide, by decide, by decide⟩
  no_return := ⟨by decide, by decide, by decide, by decide, by decide, by decide, by decide, by decide, by decide⟩
  body_markerless := by decide
  body_stateless := by decide
  name_no_marker := by decide

theorem marking_keeps_annotations_card : ∃ r,
    (allIn (Mark.archive (Text.endLines ([card, card].flatMap lines))))[1]? = some r ∧
      r.treeItems = ["useA".toList, "log".toList] ∧ r.field? "State" = some "[open:boolean]".toList := by
  have hwritable : ∀ s ∈ [card, card], s.Writable := by
    intro s hs
    obtain rfl : s = card := by simpa using hs
    exact writable_card
  have hitems : (allIn (Text.endLines ([card, card].flatMap lines)))[1]?.map treeItems =
      some ["useA".toList, "log".toList] := by decide +kernel
  have hstate : (allIn (Text.endLines ([card, card].flatMap lines)))[1]?.bind (·.field? "State") =
      some "[open:boolean]".toList := by decide +kernel
  obtain ⟨r, hr, hr_items⟩ := Option.map_eq_some_iff.mp hitems
  rw [hr, Option.bind_some] at hstate
  obtain ⟨r', hr', -, -, -, hfield, hitems', -⟩ := (marking_keeps_annotations hwritable).2 1 r hr
  exact ⟨r', hr', hitems'.trans hr_items, (hfield _).trans hstate⟩

end AnalyzedSection

end SourceArchive
