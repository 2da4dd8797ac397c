import SourceArchive.Proofs.Boundaries
import SourceArchive.Proofs.Marking
import SourceArchive.Proofs.Tallies

/-!
# Archives one behind the other

Nothing is carried over from one section to the next, so an archive that is put behind another one is read, annotated,
counted and marked as if it stood alone.  This takes a `Seam`: the first text ends a line, which is no separator that a
marker could claim and no marker that separators could follow, and the second text has no lines above its first header.
-/

namespace SourceArchive

open Layout Text MarkedLine Mark

/-! ## Seams -/

/-- A text that ends with a line of a body, and one that begins with a header. -/
structure Seam (front back : Text) : Prop where
  ended : front.getLast? = some '\n'
  last : ∀ l ∈ front.lines.getLast?, isMarker l = false ∧ isSeparator l = false
  opening : ∃ separators marker rest, back.lines = separators ++ marker :: rest ∧
    (∀ l ∈ separators, isSeparator l = true) ∧ isMarker marker = true

section Partitions

variable {front back preamble : List Text} {ss ts : List Section} {s : Section}

theorem Section.Framed.body_ne_nil (h : s.Framed)
    (hlast : ∀ l ∈ s.lines.getLast?, isMarker l = false ∧ isSeparator l = false) : s.body ≠ [] := by
  intro hnil
  obtain ⟨marker, below, hheader, hpath, hbelow⟩ := h.header
  have hmarked : isMarker marker = true := isMarker_of_markerPath? hpath
  rw [Section.lines, hnil, List.append_nil, hheader] at hlast
  rcases List.eq_nil_or_concat' below with rfl | ⟨below, l, rfl⟩
  · obtain ⟨hl, -⟩ := hlast marker (by simp)
    rw [hmarked] at hl
    contradiction
  · have hend : (s.above ++ marker :: (below ++ [l])).getLast? = some l := by
      rw [← List.cons_append, ← List.append_assoc, List.getLast?_concat]
    obtain ⟨-, hl⟩ := hlast l hend
    rw [hbelow l (by simp)] at hl
    contradiction

/-- Lines that end with a line of a body, and lines that begin with a header: their sections stand side by side. -/
theorem Partition.append (hs : Partition front preamble ss) (ht : Partition back [] ts)
    (hlast : ∀ l ∈ front.getLast?, isMarker l = false ∧ isSeparator l = false) :
    Partition (front ++ back) preamble (ss ++ ts) where
  lines_eq := by rw [hs.lines_eq, ht.lines_eq, List.flatMap_append, List.nil_append, List.append_assoc]
  preamble_markerless := hs.preamble_markerless
  preamble_end := by
    intro _
    by_cases hnil : ss = []
    · have hlines := hs.lines_eq
      rw [hnil, List.flatMap_nil, List.append_nil] at hlines
      rw [← hlines]
      exact fun l hl => (hlast l hl).2
    · exact hs.preamble_end hnil
  framed := fun s hm => (List.mem_append.mp hm).elim (hs.framed s) (ht.framed s)
  adjacent := by
    refine List.isChain_append.mpr ⟨hs.adjacent, ht.adjacent, fun s hm t _ => ?_⟩
    obtain ⟨before, rfl⟩ := List.getLast?_eq_some_iff.mp hm
    have hframed : s.Framed := hs.framed s (by simp)
    have hne : s.lines ≠ [] := by
      obtain ⟨marker, below, hheader, -⟩ := hframed.header
      rw [Section.lines, hheader]
      simp
    have hend : front.getLast? = s.lines.getLast? := by
      rw [hs.lines_eq, List.flatMap_append, List.flatMap_singleton, ← List.append_assoc,
        List.getLast?_append_of_ne_nil _ hne]
    rw [hend] at hlast
    have hbody : s.body ≠ [] := hframed.body_ne_nil hlast
    rw [Section.lines, List.getLast?_append_of_ne_nil _ hbody] at hlast
    exact ⟨fun l hl => (hlast l hl).2, fun hnil => absurd hnil hbody⟩

/-- Lines that begin with a header have no preamble. -/
theorem Partition.preamble_eq_nil {separators rest : List Text} {marker : Text} (h : Partition back preamble ss)
    (hback : back = separators ++ marker :: rest) (hseparators : ∀ l ∈ separators, isSeparator l = true)
    (hmarker : isMarker marker = true) : preamble = [] := by
  have hmem : marker ∉ preamble := by
    intro hm
    rw [h.preamble_markerless marker hm] at hmarker
    contradiction
  have hlines : preamble ++ ss.flatMap Section.lines = separators ++ marker :: rest := by rw [← hback, h.lines_eq]
  have hwithin : preamble <+: separators := by
    rcases List.append_eq_append_iff.mp hlines with ⟨r, hr, -⟩ | ⟨r, hr, hrest⟩
    · exact ⟨r, hr.symm⟩
    · cases r with
      | nil => exact ⟨[], by rw [hr, List.append_nil, List.append_nil]⟩
      | cons l r =>
        rw [List.cons_append, List.cons.injEq] at hrest
        exact absurd (by simp [hr, hrest.1]) hmem
  have hss : ss ≠ [] := by
    rintro rfl
    rw [List.flatMap_nil, List.append_nil] at hlines
    exact hmem (by simp [hlines])
  rcases List.eq_nil_or_concat' preamble with hnil | ⟨before, l, rfl⟩
  · exact hnil
  · have hl := h.preamble_end hss l (by simp)
    rw [hseparators l (hwithin.subset (by simp))] at hl
    contradiction

end Partitions

namespace Seam

variable {front back : Text}

theorem lines_append (h : Seam front back) : (front ++ back).lines = front.lines ++ back.lines :=
  lines_append_of_ended h.ended back

theorem split_append (h : Seam front back) : split (front ++ back) = split front ++ split back := by
  obtain ⟨separators, marker, rest, hback, hseparators, hmarker⟩ := h.opening
  obtain ⟨preamble, hfront⟩ := exists_partition_split front
  obtain ⟨none, hpartition⟩ := exists_partition_split back
  obtain rfl := hpartition.preamble_eq_nil hback hseparators hmarker
  have happend := hfront.append hpartition h.last
  rw [← h.lines_append] at happend
  exact happend.eq_sectionsOf.symm

/-- The marks that the first text has set are forgotten at the marker that the second one begins with. -/
theorem pass_append (h : Seam front back) :
    pass none (front ++ back).lines = pass none front.lines ++ pass none back.lines := by
  obtain ⟨separators, marker, rest, hback, hseparators, hmarker⟩ := h.opening
  have hforget (seen : Option (List Mark)) :
      pass seen back.lines = separators.map bare ++ bare marker :: pass (some []) rest := by
    rw [hback, pass_separators hseparators, pass_marker hmarker]
  rw [h.lines_append, Mark.pass_append, hforget, hforget]

theorem archive_append (h : Seam front back) :
    Mark.archive (front ++ back) = Mark.archive front ++ Mark.archive back := by
  have hwritten {t : Text} (ht : t.lines ≠ []) : (pass none t.lines).flatMap written ≠ [] :=
    fun hnil => ht (flatMap_written_eq_nil_iff.mp hnil)
  have hfront : front.lines ≠ [] := by
    rcases ended_or_inked_last front with ⟨-, hne⟩ | ⟨hend, -⟩
    · exact hne
    · exact absurd h.ended hend
  have hback : back.lines ≠ [] := by
    obtain ⟨separators, marker, rest, hlines, -⟩ := h.opening
    simp [hlines]
  have hne : back ≠ [] := by
    rintro rfl
    exact hback rfl
  rw [archive_eq, archive_eq, archive_eq, h.pass_append, List.flatMap_append,
    joinLike_of_ended h.ended (hwritten hfront), joinLike_append front _ hne (hwritten hback)]

end Seam

/-! ## Totals -/

/-- The totals `s` are those of `a` and `b` together, and every label is counted as often as in both. -/
structure Statistics.Sums (s a b : Statistics) : Prop where
  sections : s.sections = a.sections + b.sections
  roles (label : Text) : s.roles.count label = a.roles.count label + b.roles.count label
  flows (label : Text) : s.flows.count label = a.flows.count label + b.flows.count label
  frameworks (label : Text) : s.frameworks.count label = a.frameworks.count label + b.frameworks.count label
  stateVariables : s.stateVariables = a.stateVariables + b.stateVariables
  props : s.props = a.props + b.props
  endpoints : s.endpoints = a.endpoints + b.endpoints
  contexts : s.contexts = a.contexts + b.contexts

theorem sumOf_map_append (a b : List Metadata) (f : Metadata → Nat) :
    sumOf ((a ++ b).map f) = sumOf (a.map f) + sumOf (b.map f) := by rw [List.map_append, sumOf_append]

theorem count_map_append (a b : List Metadata) (f : Metadata → Text) (label : Text) :
    (Distribution.ofList ((a ++ b).map f)).count label =
      (Distribution.ofList (a.map f)).count label + (Distribution.ofList (b.map f)).count label := by
  rw [List.map_append, Distribution.count_ofList, List.count_append, ← Distribution.count_ofList,
    ← Distribution.count_ofList]

theorem Statistics.sums_of_append (a b : List Metadata) : Sums (of (a ++ b)) (of a) (of b) := by
  rw [of_eq, of_eq a, of_eq b]
  exact {
    sections := List.length_append
    roles := count_map_append a b _
    flows := count_map_append a b _
    frameworks := count_map_append a b _
    stateVariables := sumOf_map_append a b _
    props := sumOf_map_append a b _
    endpoints := sumOf_map_append a b _
    contexts := sumOf_map_append a b _ }

/-! ## Independence -/

/-- At a seam two archives are independent of each other: their sections, their annotations and their marks stand side
by side, and their totals add up. -/
theorem Seam.independent {front back : Text} (h : Seam front back) (c : Classifier) :
    split (front ++ back) = split front ++ split back ∧
      (c.enhance (front ++ back)).text = (c.enhance front).text ++ (c.enhance back).text ∧
      (c.enhance (front ++ back)).statistics.Sums (c.enhance front).statistics (c.enhance back).statistics ∧
      Mark.archive (front ++ back) = Mark.archive front ++ Mark.archive back := by
  have hsections : (c.enhance (front ++ back)).sections = (c.enhance front).sections ++ (c.enhance back).sections := by
    simp only [Classifier.enhance, h.split_append, List.map_append]
  refine ⟨h.split_append, ?_, ?_, h.archive_append⟩
  · rw [Enhanced.text, hsections, List.flatMap_append]
    rfl
  · rw [Enhanced.statistics, hsections, List.map_append]
    exact Statistics.sums_of_append _ _

/-- An archive that ends inside a component. -/
def leftOpen : Text := "intro\n// FILE: a.tsx\n\nfunction A() \x7b\n  useState(0);\n"

/-- An archive that begins with a separator and would set a mark if it went on with the component. -/
def headed : Text := "// ====\n// FILE: b.tsx\n// ====\nuseState(1);"

theorem seam_leftOpen_headed : Seam leftOpen headed where
  ended := by decide
  last := by decide
  opening := ⟨["// ====".toList], "// FILE: b.tsx".toList, ["// ====".toList, "useState(1);".toList], by decide, by decide,
    by decide⟩

theorem independent_leftOpen_headed : ∃ c : Classifier, c.settings = {} ∧
    (split (leftOpen ++ headed)).map (·.path) = ["a.tsx".toList, "b.tsx".toList] ∧
    (c.enhance (leftOpen ++ headed)).statistics.sections = 2 ∧
    Mark.archive (leftOpen ++ headed) =
      "intro\n// FILE: a.tsx\n\n\n// MARK: - Component Definition\nfunction A() \x7b\n\n// MARK: - State Management\n  useState(0);\n".toList
        ++ headed := by
  obtain ⟨c, hc⟩ := exists_default_classifier
  obtain ⟨hsplit, -, htotals, hmarks⟩ := seam_leftOpen_headed.independent c
  refine ⟨c, hc, ?_, ?_, ?_⟩
  · rw [hsplit]
    decide
  · rw [htotals.sections]
    rfl
  · rw [hmarks]
    decide +kernel

end SourceArchive
