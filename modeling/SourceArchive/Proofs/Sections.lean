import SourceArchive.Annotated.Reader
import SourceArchive.Enhancement
import SourceArchive.Proofs.Markerless

/-!
# Sections and their chunks

Cutting a text into chunks finds the marker lines and nothing else, so both readers of an archive see one section
for each marker line, in order.  A written archive is cut into the chunks that were written
(`AnalyzedSection.cut_text`), provided that no row behind a marker is a marker itself.
-/

namespace SourceArchive

open Text Layout

/-! ## Cutting -/

namespace Chunk

/-- The chunk begins with a marker and has no other. -/
structure Proper (c : Chunk) : Prop where
  marked : isMarker c.marker = true
  markerless : ∀ l ∈ c.lines, isMarker l = false

/-- The marker of a proper chunk carries its path. -/
theorem Proper.markerPath?_marker {c : Chunk} (h : c.Proper) : markerPath? c.marker = some c.path := by
  obtain ⟨path, hpath⟩ := Option.isSome_iff_exists.mp ((isMarker_eq_isSome c.marker).symm.trans h.marked)
  rw [Chunk.path, hpath, Option.getD_some]

theorem cut_of_markerless {ls : List Text} (h : ∀ l ∈ ls, isMarker l = false) (rest : List Text) :
    cut (ls ++ rest) = (ls ++ (cut rest).1, (cut rest).2) := by
  induction ls with
  | nil => rfl
  | cons l ls ih =>
    have hl := h l List.mem_cons_self
    have hls := ih fun x hx => h x (List.mem_cons_of_mem _ hx)
    simp [cut, hls, hl]

/-- Cutting undoes the putting together of a preamble and proper chunks. -/
theorem cut_uncut {preamble : List Text} {chunks : List Chunk} (hp : ∀ l ∈ preamble, isMarker l = false)
    (hc : ∀ c ∈ chunks, c.Proper) : cut (uncut preamble chunks) = (preamble, chunks) := by
  have hchunks : cut (chunks.flatMap fun c => c.marker :: c.lines) = ([], chunks) := by
    induction chunks with
    | nil => rfl
    | cons c chunks ih =>
      obtain ⟨hm, hl⟩ := hc c List.mem_cons_self
      have hrest := ih fun x hx => hc x (List.mem_cons_of_mem _ hx)
      rw [List.flatMap_cons, List.cons_append, cut, cut_of_markerless hl, hrest]
      simp [hm]
  rw [uncut, cut_of_markerless hp, hchunks, List.append_nil]

theorem markerless_and_proper_cut (ls : List Text) :
    (∀ l ∈ (cut ls).1, isMarker l = false) ∧ ∀ c ∈ (cut ls).2, c.Proper := by
  induction ls with
  | nil => simp [cut]
  | cons line rest ih =>
    obtain ⟨hbefore, hchunks⟩ := ih
    by_cases hm : isMarker line = true
    · simp only [cut, hm, if_true, List.not_mem_nil, false_implies, implies_true, List.mem_cons, true_and]
      rintro c (rfl | hc)
      · exact ⟨hm, hbefore⟩
      · exact hchunks c hc
    · have hf : isMarker line = false := by simpa using hm
      simp only [cut, hf, Bool.false_eq_true, if_false, List.mem_cons]
      refine ⟨?_, hchunks⟩
      rintro l (rfl | hl)
      · exact hf
      · exact hbefore l hl

theorem proper_of_mem_cut {ls : List Text} : ∀ c ∈ (cut ls).2, c.Proper := (markerless_and_proper_cut ls).2

theorem mem_of_mem_cut {ls : List Text} {c : Chunk} (h : c ∈ (cut ls).2) :
    c.marker ∈ ls ∧ ∀ l ∈ c.lines, l ∈ ls := by
  have hu := uncut_cut ls
  have hmem : ∀ l ∈ c.marker :: c.lines, l ∈ ls := by
    intro l hl
    rw [← hu, uncut, List.mem_append, List.mem_flatMap]
    exact Or.inr ⟨c, h, hl⟩
  exact ⟨hmem _ List.mem_cons_self, fun l hl => hmem l (List.mem_cons_of_mem _ hl)⟩

/-- The chunks carry the paths of the marker lines, in order. -/
theorem map_path_cut (ls : List Text) : (cut ls).2.map path = ls.filterMap markerPath? := by
  induction ls with
  | nil => rfl
  | cons line rest ih =>
    rcases hp : markerPath? line with _ | p
    · have hm : isMarker line = false := markerPath?_eq_none_iff.mp hp
      simp [cut, hm, hp, ih]
    · have hm : isMarker line = true := isMarker_of_markerPath? hp
      simp [cut, hm, hp, ih, path]

end Chunk

/-! ## The readers -/

theorem map_path_sectionsOf (lead : List Text) (chunks : List Chunk) :
    (sectionsOf lead chunks).map (·.path) = chunks.map (·.path) := by
  induction chunks generalizing lead with
  | nil => rfl
  | cons c rest ih =>
    rw [sectionsOf]
    split
    · rename_i h
      rw [List.isEmpty_iff.mp h]
      rfl
    · rw [List.map_cons, List.map_cons, ih]

/-- A section has the path of a chunk, and its body is made of lines of that chunk. -/
theorem exists_chunk_of_mem_sectionsOf {lead : List Text} {chunks : List Chunk} {s : Section}
    (h : s ∈ sectionsOf lead chunks) : ∃ c ∈ chunks, s.path = c.path ∧ ∀ l ∈ s.body, l ∈ c.lines := by
  induction chunks generalizing lead with
  | nil => simp [sectionsOf] at h
  | cons c rest ih =>
    have hdrop : ∀ l ∈ c.lines.dropWhile isSeparator, l ∈ c.lines := fun l hl => (List.dropWhile_suffix _).subset hl
    rw [sectionsOf] at h
    split at h
    · obtain rfl := List.mem_singleton.mp h
      exact ⟨c, List.mem_cons_self, rfl, hdrop⟩
    · rcases List.mem_cons.mp h with rfl | h
      · refine ⟨c, List.mem_cons_self, rfl, fun l hl => hdrop l ?_⟩
        have happ := dropTrailing_append_takeTrailing isSeparator (c.lines.dropWhile isSeparator)
        rw [← happ]
        exact List.mem_append_left _ hl
      · obtain ⟨d, hd, hs⟩ := ih h
        exact ⟨d, List.mem_cons_of_mem _ hd, hs⟩

/-- Splitting an archive gives one section for each marker line. -/
theorem map_path_split (archive : Text) : (split archive).map (·.path) = markerPaths archive := by
  rw [split, map_path_sectionsOf]
  exact Chunk.map_path_cut _

/-- So does the reader of annotated archives. -/
theorem AnnotatedSection.map_path_allIn (archive : Text) : (allIn archive).map (·.path) = markerPaths archive := by
  have hpath : (fun c => (ofChunk c).path) = Chunk.path := rfl
  rw [allIn, List.map_map, Function.comp_def, hpath]
  exact Chunk.map_path_cut _

/-- What is known of a section that was read from an archive. -/
structure Section.WellFormed (s : Section) : Prop where
  trim_path : s.path.trim = s.path
  path_unbroken : '\n' ∉ s.path
  body_unbroken : ∀ l ∈ s.body, '\n' ∉ l
  body_markerless : ∀ l ∈ s.body, isMarker l = false

theorem wellFormed_of_mem_split {archive : Text} {s : Section} (h : s ∈ split archive) : s.WellFormed := by
  obtain ⟨c, hc, hpath, hbody⟩ := exists_chunk_of_mem_sectionsOf h
  have hproper := Chunk.proper_of_mem_cut c hc
  obtain ⟨hmarker, hlines⟩ := Chunk.mem_of_mem_cut hc
  have hp : markerPath? c.marker = some s.path := by rw [hpath, hproper.markerPath?_marker]
  exact {
    trim_path := trim_of_markerPath? hp
    path_unbroken := fun hm => not_mem_of_mem_lines hmarker ((infix_of_markerPath? hp).subset hm)
    body_unbroken := fun l hl => not_mem_of_mem_lines (hlines l (hbody l hl))
    body_markerless := fun l hl => hproper.markerless l (hbody l hl) }

/-- The code of a section holds no marker behind a line feed. -/
theorem Section.WellFormed.unmarked_code {s : Section} (h : s.WellFormed) : Unmarked s.code :=
  unmarked_joinLines fun l hl => ⟨h.body_unbroken l hl, h.body_markerless l hl⟩

/-! ## Written sections -/

/-- The line that states a flow. -/
def Layout.flowLine (f : Flow) : Text := flowStart ++ " " ++ f.label

/-- The line that states the value of a field. -/
def Layout.metaLine (field value : Text) : Text := metaStart ++ " " ++ field ++ ": " ++ value

theorem Metadata.lines_eq_map (m : Metadata) :
    m.lines = (metaFields.zip m.values).map fun p => metaLine p.1 p.2 := rfl

namespace AnalyzedSection

/-- The lines above the marker. -/
def lead : List Text := [[], separatorLine]

/-- The marker of a written section. -/
def marker (s : AnalyzedSection) : Text := fileMarker ++ " " ++ s.source.path

/-- The lines below the marker. -/
def below (s : AnalyzedSection) : List Text :=
  [separatorLine, flowLine s.metadata.flow, []] ++ s.metadata.lines ++ [[], treeHeader]
    ++ s.tree.lines ++ [[]] ++ Hint.insert s.metadata.state s.source.body

theorem lines_eq (s : AnalyzedSection) : s.lines = lead ++ s.marker :: s.below := by
  simp [lines, Annotated.lines, Annotated.header, lead, marker, below, flowLine]

/-- Only the marker of a written section is read as one, and it carries the path. -/
structure Bounded (s : AnalyzedSection) : Prop where
  trim_path : s.source.path.trim = s.source.path
  path_unbroken : '\n' ∉ s.source.path
  below_markerless : ∀ l ∈ s.below, Markerless l

/-- The chunks that are read from written sections; the lines above a marker end the chunk before it. -/
def chunks : List AnalyzedSection → List Chunk
  | [] => []
  | [s] => [⟨dropReturn s.marker, s.below.flatMap rows⟩]
  | s :: rest => ⟨dropReturn s.marker, s.below.flatMap rows ++ lead⟩ :: chunks rest

theorem rows_marker {s : AnalyzedSection} (h : '\n' ∉ s.source.path) : rows s.marker = [dropReturn s.marker] := by
  apply rows_of_not_mem
  simp only [marker, List.mem_append, not_or]
  exact ⟨⟨by decide, by decide⟩, h⟩

theorem uncut_chunks {ss : List AnalyzedSection} (h : ∀ s ∈ ss, s.Bounded) :
    Chunk.uncut (if ss.isEmpty then [] else lead) (chunks ss) = (ss.flatMap lines).flatMap rows := by
  have hlead : lead.flatMap rows = lead := by decide
  induction ss with
  | nil => rfl
  | cons s rest ih =>
    have hrest := ih fun x hx => h x (List.mem_cons_of_mem _ hx)
    have hmarker := rows_marker (h s List.mem_cons_self).path_unbroken
    -- the lines above the marker of `s` are the preamble, those above the next marker end the chunk of `s`
    rw [List.flatMap_cons, List.flatMap_append, ← hrest, lines_eq, List.flatMap_append, List.flatMap_cons, hmarker,
      hlead]
    cases rest with
    | nil => simp [Chunk.uncut, chunks]
    | cons t rest => simp [Chunk.uncut, chunks]

theorem proper_chunks {ss : List AnalyzedSection} (h : ∀ s ∈ ss, s.Bounded) : ∀ c ∈ chunks ss, c.Proper := by
  have hmarked (s : AnalyzedSection) : isMarker (dropReturn s.marker) = true := by
    rw [isMarker_dropReturn]
    exact isMarker_of_markerPath? (markerPath?_marker s.source.path)
  have hbelow {s : AnalyzedSection} (hs : s.Bounded) : ∀ l ∈ s.below.flatMap rows, isMarker l = false := by
    intro row hrow
    obtain ⟨l, hl, hr⟩ := List.mem_flatMap.mp hrow
    exact hs.below_markerless l hl row hr
  have hlead : ∀ l ∈ lead, isMarker l = false := by decide
  fun_induction chunks ss with
  | case1 => simp
  | case2 s =>
    intro c hc
    obtain rfl := List.mem_singleton.mp hc
    exact ⟨hmarked s, hbelow (h s List.mem_cons_self)⟩
  | case3 s rest _ ih =>
    intro c hc
    rcases List.mem_cons.mp hc with rfl | hc
    · refine ⟨hmarked s, fun l hl => ?_⟩
      exact (List.mem_append.mp hl).elim (hbelow (h s List.mem_cons_self) l) (hlead l)
    · exact ih (fun x hx => h x (List.mem_cons_of_mem _ hx)) c hc

/-- Written sections are cut into the chunks that were written. -/
theorem cut_text {ss : List AnalyzedSection} (h : ∀ s ∈ ss, s.Bounded) :
    (Chunk.cut (Text.endLines (ss.flatMap lines)).lines).2 = chunks ss := by
  have hlead : ∀ l ∈ (if ss.isEmpty then [] else lead), isMarker l = false := by
    cases ss with
    | nil => simp
    | cons s rest =>
      change ∀ l ∈ lead, isMarker l = false
      decide
  rw [lines_endLines, ← uncut_chunks h, Chunk.cut_uncut hlead (proper_chunks h)]

theorem Bounded.path_marker {s : AnalyzedSection} (h : s.Bounded) (ls : List Text) :
    Chunk.path ⟨dropReturn s.marker, ls⟩ = s.source.path := by
  rw [Chunk.path, markerPath?_dropReturn, marker, markerPath?_marker, Option.getD_some, h.trim_path]

/-- The chunk of a section holds its lines; all chunks but the last hold the lines above the next marker too. -/
theorem getElem?_chunks (ss : List AnalyzedSection) (i : Nat) :
    (chunks ss)[i]? = ss[i]?.map fun s =>
      ⟨dropReturn s.marker, s.below.flatMap rows ++ if i + 1 = ss.length then [] else lead⟩ := by
  fun_induction chunks ss generalizing i with
  | case1 => rfl
  | case2 s =>
    cases i with
    | zero => simp
    | succ i => rfl
  | case3 s rest hrest ih =>
    cases i with
    | zero =>
      have hne : rest ≠ [] := hrest
      simp [hne]
    | succ i => simp [ih i]

theorem exists_of_mem_chunks {ss : List AnalyzedSection} {c : Chunk} (h : c ∈ chunks ss) :
    ∃ s ∈ ss, ∃ trail, (trail = [] ∨ trail = lead) ∧ c = ⟨dropReturn s.marker, s.below.flatMap rows ++ trail⟩ := by
  obtain ⟨i, hi⟩ := List.getElem?_of_mem h
  rw [getElem?_chunks, Option.map_eq_some_iff] at hi
  obtain ⟨s, hs, rfl⟩ := hi
  exact ⟨s, List.mem_of_getElem? hs, _, ite_eq_or_eq _ _ _, rfl⟩

/-- What can be read off a chunk whatever stands behind the section is read off all of them. -/
theorem map_chunks {α : Type} {f : Chunk → α} {g : AnalyzedSection → α} {ss : List AnalyzedSection}
    (h : ∀ s ∈ ss, ∀ trail, f ⟨dropReturn s.marker, s.below.flatMap rows ++ trail⟩ = g s) :
    (chunks ss).map f = ss.map g := by
  apply List.ext_getElem?
  intro i
  rw [List.getElem?_map, List.getElem?_map, getElem?_chunks]
  rcases hs : ss[i]? with _ | s
  · rfl
  · exact congrArg some (h s (List.mem_of_getElem? hs) _)

theorem map_path_chunks {ss : List AnalyzedSection} (h : ∀ s ∈ ss, s.Bounded) :
    (chunks ss).map (·.path) = ss.map (·.source.path) := map_chunks fun s hs _ => (h s hs).path_marker _

end AnalyzedSection

end SourceArchive
