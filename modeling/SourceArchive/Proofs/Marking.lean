import SourceArchive.Proofs.Marks
import SourceArchive.Proofs.Splitting

/-!
# Marking inserts lines and nothing else

The mark pass puts lines of marks above lines of bodies.  Without them the text is the text that was marked, down to
its last line feed, and the marked text is cut into the same sections: their headers are the same, and a body is the
old body, marked by itself.  That no separator changes sides follows from `Partition.marked`, since the partition
into sections is the only one.
-/

namespace SourceArchive

open Layout Text MarkedLine Mark

/-! ## Inserted lines -/

namespace Mark

theorem lines_ne_nil (m : Mark) : m.lines ≠ [] := List.append_ne_nil_of_right_ne_nil _ (List.cons_ne_nil _ _)

/-- The lines of a mark are neither markers nor separators, and they are lines. -/
theorem lines_spec {m : Mark} : ∀ k ∈ m.lines, isMarker k = false ∧ isSeparator k = false ∧ '\n' ∉ k ∧ '\r' ∉ k := by
  cases m <;> decide

theorem mem_written {seen : Option (List Mark)} {ls : List Text} {k : Text} (h : k ∈ (pass seen ls).flatMap written) :
    k ∈ ls ∨ ∃ m : Mark, k ∈ m.lines := by
  obtain ⟨l, hl, hk⟩ := List.mem_flatMap.mp h
  rcases List.mem_append.mp hk with hk | hk
  · obtain ⟨m, -, hk⟩ := List.mem_flatMap.mp hk
    exact Or.inr ⟨m, hk⟩
  · left
    rw [← map_text_pass seen ls, List.mem_singleton.mp hk]
    exact List.mem_map_of_mem hl

theorem mem_head?_written {seen : Option (List Mark)} {ls : List Text} {k : Text}
    (h : k ∈ ((pass seen ls).flatMap written).head?) : k ∈ ls.head? ∨ ∃ m : Mark, k ∈ m.lines := by
  cases ls with
  | nil => simp [pass] at h
  | cons line rest =>
    rw [pass, List.flatMap_cons, written] at h
    cases hmarks : above seen line with
    | nil => exact Or.inl (by simpa [hmarks] using h)
    | cons m ms =>
      right
      rw [hmarks, List.flatMap_cons, List.append_assoc, List.append_assoc,
        List.head?_append_of_ne_nil _ (lines_ne_nil m)] at h
      exact ⟨m, List.mem_of_mem_head? h⟩

theorem getLast?_written (seen : Option (List Mark)) (ls : List Text) :
    ((pass seen ls).flatMap written).getLast? = ls.getLast? := by
  rcases List.eq_nil_or_concat' ls with rfl | ⟨a, l, rfl⟩
  · rfl
  · simp [pass_append, pass, written]

theorem flatMap_written_eq_nil_iff {seen : Option (List Mark)} {ls : List Text} :
    (pass seen ls).flatMap written = [] ↔ ls = [] := by
  rw [← List.getLast?_eq_none_iff, getLast?_written, List.getLast?_eq_none_iff]

/-- A line has the marks that the lines before it leave for it. -/
theorem marks_eq_above {seen : Option (List Mark)} {ls : List Text} {before behind : List MarkedLine} {l : MarkedLine}
    (h : pass seen ls = before ++ l :: behind) : l.marks = above ((before.map (·.text)).foldl next seen) l.text := by
  have hls : ls = before.map (·.text) ++ l.text :: behind.map (·.text) := by
    rw [← map_text_pass seen ls, h, List.map_append, List.map_cons]
  rw [hls, pass_append, pass] at h
  have hlength : (pass seen (before.map (·.text))).length = before.length := by
    have htext := congrArg List.length (map_text_pass seen (before.map (·.text)))
    simpa using htext
  obtain ⟨-, hrest⟩ := List.append_inj h hlength
  rw [← (List.cons.inj hrest).1]

theorem foldl_next_none {ls : List Text} (h : ∀ l ∈ ls, isMarker l = false) : ls.foldl next none = none := by
  induction ls with
  | nil => rfl
  | cons line rest ih =>
    have hnext : next none line = none := by simp [next, h line List.mem_cons_self]
    rw [List.foldl_cons, hnext, ih fun l hl => h l (List.mem_cons_of_mem _ hl)]

/-- Marks stand above lines of code behind a marker, and above no others. -/
theorem marks_eq_nil {ls : List Text} {before behind : List MarkedLine} {l : MarkedLine}
    (h : pass none ls = before ++ l :: behind)
    (hl : (∀ k ∈ before, isMarker k.text = false) ∨ isMarker l.text = true ∨ isSeparator l.text = true ∨
      isPassive l.text.trim = true) : l.marks = [] := by
  rw [marks_eq_above h]
  rcases hl with hl | hl | hl | hl
  · rw [foldl_next_none (List.forall_mem_map.mpr hl)]
    rfl
  · exact above_of_isPassive (isPassive_of_isMarker hl) _
  · exact above_of_isPassive (isPassive_of_isSeparator hl) _
  · exact above_of_isPassive hl _

end Mark

/-! ## Sections of a marked text -/

section Sections

variable {ls preamble : List Text} {ss : List Section} {s t : Section}

/-- The section with marks in its body. -/
def Section.marked (s : Section) : Section := { s with body := (pass (some []) s.body).flatMap written }

theorem pass_separators {ls : List Text} (h : ∀ l ∈ ls, isSeparator l = true) (seen : Option (List Mark))
    (rest : List Text) : pass seen (ls ++ rest) = ls.map bare ++ pass seen rest :=
  pass_passive (fun l hl => ⟨isPassive_of_isSeparator (h l hl), isMarker_of_isSeparator (h l hl)⟩) seen rest

/-- The header of a section takes no marks, and the marks of its body are those of the body by itself. -/
theorem Section.Framed.pass_lines (h : s.Framed) (seen : Option (List Mark)) (rest : List Text) :
    pass seen (s.lines ++ rest) =
      s.header.map bare ++ pass (some []) s.body ++ pass (s.body.foldl next (some [])) rest := by
  obtain ⟨marker, below, hheader, hpath, hbelow⟩ := h.header
  have hmarked : isMarker marker = true := isMarker_of_markerPath? hpath
  have habove : ∀ l ∈ s.above, isSeparator l = true := fun l hl => eq_true_of_mem_takeWhile hl
  have hlines : s.lines ++ rest = s.above ++ marker :: (below ++ (s.body ++ rest)) := by
    rw [Section.lines, hheader]
    simp
  rw [hlines, pass_separators habove, pass_marker hmarked, pass_separators hbelow, pass_append]
  conv_rhs => rw [hheader]
  simp

theorem pass_sections (h : ∀ s ∈ ss, s.Framed) (seen : Option (List Mark)) :
    pass seen (ss.flatMap Section.lines) = ss.flatMap fun s => s.header.map bare ++ pass (some []) s.body := by
  induction ss generalizing seen with
  | nil => rfl
  | cons s rest ih =>
    rw [List.flatMap_cons, (h s List.mem_cons_self).pass_lines, ih fun x hx => h x (List.mem_cons_of_mem _ hx),
      List.flatMap_cons]

theorem Partition.pass_eq (h : Partition ls preamble ss) :
    pass none ls = preamble.map bare ++ ss.flatMap fun s => s.header.map bare ++ pass (some []) s.body := by
  rw [h.lines_eq, pass_none h.preamble_markerless, pass_sections h.framed]

theorem Section.Framed.marked (h : s.Framed) : s.marked.Framed where
  header := h.header
  body_markerless := by
    intro l hl
    rcases mem_written hl with hl | ⟨m, hl⟩
    · exact h.body_markerless l hl
    · exact (lines_spec l hl).1
  body_start := by
    intro l hl
    rcases mem_head?_written hl with hl | ⟨m, hl⟩
    · exact h.body_start l hl
    · exact (lines_spec l hl).2.1

theorem Section.Precedes.marked (h : s.Precedes t) : s.marked.Precedes t.marked where
  body_end := by
    rw [Section.marked, getLast?_written]
    exact h.body_end
  above_nil := fun hnil => h.above_nil (flatMap_written_eq_nil_iff.mp hnil)

/-- The partition of a marked text is that of the text, with marks in the bodies. -/
theorem Partition.marked (h : Partition ls preamble ss) :
    Partition ((pass none ls).flatMap written) preamble (ss.map Section.marked) where
  lines_eq := by
    rw [h.pass_eq, List.flatMap_append, flatMap_written_bare, List.flatMap_assoc, List.flatMap_map]
    congr 1
    refine List.flatMap_congr fun s _ => ?_
    rw [List.flatMap_append, flatMap_written_bare]
    rfl
  preamble_markerless := h.preamble_markerless
  preamble_end := fun hne => h.preamble_end (by simpa using hne)
  framed := by
    intro m hm
    obtain ⟨s, hs, rfl⟩ := List.mem_map.mp hm
    exact (h.framed s hs).marked
  adjacent := by
    rw [List.isChain_map]
    exact h.adjacent.imp fun _ _ hst => hst.marked

end Sections

/-! ## Marked archives -/

namespace Mark

/-- The lines of a marked archive are those that were written, and it ends as the archive did. -/
theorem lines_archive {t : Text} (h : '\r' ∉ t) :
    (archive t).lines = (pass none t.lines).flatMap written ∧
      ((archive t).getLast? = some '\n' ↔ t.getLast? = some '\n') := by
  rw [archive_eq]
  refine lines_joinLike (getLast?_written none t.lines) fun k hk => ?_
  rcases mem_written hk with hk | ⟨m, hk⟩
  · exact ⟨not_mem_of_mem_lines hk, fun hm => h ((infix_of_mem_lines hk).subset hm)⟩
  · exact (lines_spec k hk).2.2

/-- Marking inserts the lines of marks above lines of code behind a marker.  Without them the lines are those of the
archive, and so is the text with its last line feed; the sections have the headers that they had, and their bodies too
when the marks are left out. -/
theorem archive_inserts (t : Text) (h : '\r' ∉ t) :
    (archive t).lines = (pass none t.lines).flatMap written ∧
      (pass none t.lines).map (·.text) = t.lines ∧
      (∀ before l behind, pass none t.lines = before ++ l :: behind →
        (∀ k ∈ before, isMarker k.text = false) ∨ isMarker l.text = true ∨ isSeparator l.text = true ∨
          isPassive l.text.trim = true → l.marks = []) ∧
      joinLike (archive t) ((pass none t.lines).map (·.text)) = t ∧
      markerPaths (archive t) = markerPaths t ∧
      split (archive t) = (split t).map (fun s => { s with body := (pass (some []) s.body).flatMap written }) ∧
      (∀ s ∈ split t, (pass (some []) s.body).map (·.text) = s.body) ∧
      ∃ preamble : List Text, pass none t.lines =
        preamble.map bare ++ (split t).flatMap fun s => s.header.map bare ++ pass (some []) s.body := by
  obtain ⟨hlines, hend⟩ := lines_archive h
  obtain ⟨preamble, hpartition⟩ := exists_partition_split t
  have hmarked := hpartition.marked
  rw [← hlines] at hmarked
  have hsplit : split (archive t) = (split t).map Section.marked := hmarked.eq_sectionsOf.symm
  refine ⟨hlines, map_text_pass _ _, fun _ _ _ => marks_eq_nil, ?_, ?_, hsplit, fun s _ => map_text_pass _ _,
    preamble, hpartition.pass_eq⟩
  · rw [map_text_pass]
    conv_rhs => rw [← joinLike_lines h]
    simp only [joinLike, hend]
  · rw [← map_path_split, ← map_path_split, hsplit, List.map_map]
    rfl

/-- A preamble, separators inside a body and at its end, and a line that would be marked inside a component. -/
def guarded : Text :=
  "use it\n// FILE: a.ts\n// ====\nimport a\n\n// ====\nfunction B() \x7b\n// ====\n// FILE: b.ts\n  useState(0)"

theorem archive_inserts_guarded : '\r' ∉ guarded ∧ (split (archive guarded)).map (·.code) =
    ["// MARK: - Imports & Dependencies\nimport a\n\n// ====\n\n// MARK: - Component Definition\nfunction B() \x7b".toList,
      "  useState(0)".toList] := by
  have hreturn : '\r' ∉ guarded := by decide
  obtain ⟨-, -, -, -, -, hsplit, -⟩ := archive_inserts guarded hreturn
  refine ⟨hreturn, ?_⟩
  rw [hsplit]
  decide +kernel

end Mark

end SourceArchive
