import SourceArchive.Archive.Layout
import SourceArchive.Proofs.Text

/-!
# Written lines without markers

A written line may hold line feeds, and then it is read back as several rows.  None of them is a marker if the
line begins as no marker does (`Layout.Foreign`) and no marker stands behind one of its line feeds
(`Layout.Unmarked`).  The second condition passes to every stretch of a text and to lists of texts, since the commas
and brackets of a list cannot complete a marker.  It is true of the code of a section, whose lines are no markers.
-/

namespace SourceArchive

namespace Layout

open Text

/-! ## Marker lines -/

theorem endsInked_fileMarker : EndsInked fileMarker := ⟨"// FILE".toList, ':', rfl, rfl⟩

theorem isMarker_iff {line : Text} : isMarker line = true ↔ fileMarker <+: line.trimStart := by
  rw [isMarker, startsWith_iff, prefix_trim_iff endsInked_fileMarker]

@[simp] theorem isMarker_dropReturn (line : Text) : isMarker (dropReturn line) = isMarker line := by
  rw [isMarker, trim_dropReturn, isMarker]

@[simp] theorem markerPath?_dropReturn (line : Text) : markerPath? (dropReturn line) = markerPath? line := by
  rw [markerPath?, trim_dropReturn, markerPath?]

theorem markerPath?_eq_none_iff {line : Text} : markerPath? line = none ↔ isMarker line = false := by
  rw [isMarker_eq_isSome, Option.isSome_eq_false_iff, Option.isNone_iff_eq_none]

theorem isMarker_of_markerPath? {line path : Text} (h : markerPath? line = some path) : isMarker line = true := by
  rw [isMarker_eq_isSome, h, Option.isSome_some]

/-- The path on a marker line has no blanks at its ends. -/
theorem trim_of_markerPath? {line path : Text} (h : markerPath? line = some path) : path.trim = path := by
  obtain ⟨rest, -, rfl⟩ := Option.map_eq_some_iff.mp h
  exact trim_trim rest

theorem infix_of_markerPath? {line path : Text} (h : markerPath? line = some path) : path <:+: line := by
  obtain ⟨rest, hr, rfl⟩ := Option.map_eq_some_iff.mp h
  have hrest : rest <:+: line.trim := by
    rw [← after?_eq_some_iff.mp hr]
    exact (List.suffix_append _ _).isInfix
  exact ((trim_isInfix rest).trans hrest).trans (trim_isInfix line)

/-- The marker of a path carries the path. -/
theorem markerPath?_marker (path : Text) : markerPath? (fileMarker ++ " " ++ path) = some path.trim := by
  have hs : StartsInked (fileMarker ++ (" ".toList ++ path)) := .append ⟨'/', _, rfl, rfl⟩ _
  have ht : (fileMarker ++ (" ".toList ++ path)).trim = fileMarker ++ trimEnd (" ".toList ++ path) := by
    rw [trim, hs.trimStart_eq, trimEnd_append_inked endsInked_fileMarker]
  have hp : trim (" ".toList ++ path) = path.trim := by
    rw [trim, trimStart_blank_append blank_space, ← trim]
  rw [List.append_assoc]
  change (after? (fileMarker ++ (" ".toList ++ path)).trim fileMarker).map trim = _
  rw [ht, after?_append, Option.map_some, trim_trimEnd, hp]

/-! ## Beginnings that no marker has -/

/-- A beginning of a line that no marker has. -/
structure Foreign (start : Text) : Prop where
  inked : StartsInked start
  not_prefix : ¬ start <+: fileMarker
  not_extends : ¬ fileMarker <+: start
  unbroken : '\n' ∉ start

theorem Foreign.isMarker_eq_false {start : Text} (h : Foreign start) (rest : Text) :
    isMarker (start ++ rest) = false := by
  rw [Bool.eq_false_iff]
  intro hm
  rw [isMarker_iff, (h.inked.append rest).trimStart_eq] at hm
  exact (prefix_total hm (List.prefix_append start rest)).elim h.not_extends h.not_prefix

theorem foreign_separatorLine : Foreign separatorLine :=
  ⟨⟨'/', _, rfl, rfl⟩, by decide, by decide, by decide⟩

theorem foreign_flowStart : Foreign flowStart := ⟨⟨'/', _, rfl, rfl⟩, by decide, by decide, by decide⟩

theorem foreign_metaStart : Foreign metaStart := ⟨⟨'/', _, rfl, rfl⟩, by decide, by decide, by decide⟩

theorem foreign_treeHeader : Foreign treeHeader := ⟨⟨'/', _, rfl, rfl⟩, by decide, by decide, by decide⟩

theorem foreign_typeStart : Foreign typeStart := ⟨⟨'/', _, rfl, rfl⟩, by decide, by decide, by decide⟩

/-! ## Markers behind line feeds -/

/-- Behind no line feed of a text stands a marker. -/
def Unmarked (x : Text) : Prop := ∀ r : Text, '\n' :: r <:+ x → ¬ fileMarker <+: r.trimStart

theorem unmarked_of_not_mem {x : Text} (h : '\n' ∉ x) : Unmarked x :=
  fun _ hr => absurd (hr.subset List.mem_cons_self) h

theorem Unmarked.of_isInfix {x y : Text} (hx : Unmarked x) (h : y <:+: x) : Unmarked y := by
  obtain ⟨a, b, rfl⟩ := h
  rintro r hr hm
  obtain ⟨s, hs⟩ := hr
  have hne : r.trimStart ≠ [] := by
    intro h
    rw [h] at hm
    exact absurd hm (by decide)
  refine hx (r ++ b) ⟨a ++ s, by simp [← hs]⟩ ?_
  rw [trimStart_append hne]
  exact hm.trans (List.prefix_append _ _)

/-- A text that begins with a character that no marker holds completes no marker in front of it. -/
theorem Unmarked.append {x y : Text} {c : Char} (hx : Unmarked x) (hy : Unmarked (c :: y)) (hb : isBlank c = false)
    (hc : c ∉ fileMarker) : Unmarked (x ++ c :: y) := by
  rintro r ⟨s, hs⟩ hm
  rcases List.append_eq_append_iff.mp hs with ⟨z, rfl, hz⟩ | ⟨z, rfl, hz⟩
  · cases z with
    | nil => exact hy r ⟨[], by simpa using hz⟩ hm
    | cons d z =>
      obtain ⟨rfl, rfl⟩ : '\n' = d ∧ r = z ++ c :: y := by simpa using hz
      rw [trimStart_append_inked z ⟨c, y, rfl, hb⟩] at hm
      -- the marker ends before `c`, so it stands in `z` already
      rcases prefix_total hm (List.prefix_append (trimStart z) (c :: y)) with h | ⟨t, ht⟩
      · exact hx z (List.suffix_append _ _) h
      · cases t with
        | nil => exact hx z (List.suffix_append _ _) ⟨[], by simpa using ht.symm⟩
        | cons e t =>
          rw [← ht, List.prefix_append_right_inj] at hm
          obtain rfl : e = c := (List.cons_prefix_cons.mp hm).1
          exact hc (by rw [← ht]; simp)
  · exact hy r ⟨z, hz.symm⟩ hm

theorem Unmarked.prepend {x y : Text} (hx : '\n' ∉ x) (hy : Unmarked y) : Unmarked (x ++ y) := by
  rintro r ⟨s, hs⟩
  rcases List.append_eq_append_iff.mp hs with ⟨z, rfl, hz⟩ | ⟨z, rfl, hz⟩
  · cases z with
    | nil => exact hy r ⟨[], by simpa using hz⟩
    | cons d z =>
      obtain ⟨rfl, -⟩ : '\n' = d ∧ r = z ++ y := by simpa using hz
      simp at hx
  · exact hy r ⟨z, hz.symm⟩

theorem Unmarked.join {items : List Text} (h : ∀ x ∈ items, Unmarked x) : Unmarked (Text.join ", " items) := by
  induction items with
  | nil => exact unmarked_of_not_mem (by simp)
  | cons a rest ih =>
    have ha := h a List.mem_cons_self
    have hrest := ih fun x hx => h x (List.mem_cons_of_mem _ hx)
    cases rest with
    | nil => rwa [join_singleton]
    | cons b rest =>
      rw [join_cons_cons, List.append_assoc]
      exact ha.append (.prepend (x := ", ".toList) (by decide) hrest) (by decide) (by decide)

/-- A written list whose items hold no markers behind line feeds holds none. -/
theorem Unmarked.list {items : List Text} (h : ∀ x ∈ items, Unmarked x) : Unmarked (Layout.list items) := by
  rw [Layout.list.eq_def]
  split
  · exact unmarked_of_not_mem (by decide)
  · rw [List.append_assoc]
    refine .prepend (by decide) ?_
    exact (Unmarked.join h).append (c := ']') (y := []) (unmarked_of_not_mem (by decide)) (by decide) (by decide)

/-- Lines that are no markers hold none behind the line feeds that join them. -/
theorem unmarked_flatMap {ls : List Text} (h : ∀ l ∈ ls, '\n' ∉ l ∧ isMarker l = false) :
    Unmarked (ls.flatMap ('\n' :: ·)) := by
  induction ls with
  | nil => exact unmarked_of_not_mem (by simp)
  | cons l rest ih =>
    obtain ⟨hl, hm⟩ := h l List.mem_cons_self
    have hrest := ih fun x hx => h x (List.mem_cons_of_mem _ hx)
    intro r hr hp
    rw [List.flatMap_cons, List.cons_append] at hr
    rcases List.suffix_cons_iff.mp hr with he | hs
    · obtain rfl : r = l ++ rest.flatMap ('\n' :: ·) := by simpa using he
      by_cases hb : l.trimStart = []
      · -- a blank line is skipped, and the next line feed decides
        rw [trimStart_blank_append (trimStart_eq_nil_iff.mp hb)] at hp
        cases rest with
        | nil => exact absurd hp (by decide)
        | cons k rest =>
          rw [List.flatMap_cons, List.cons_append] at hp hrest
          exact hrest _ (List.suffix_refl _) hp
      · rw [trimStart_append hb] at hp
        rcases prefix_total hp (List.prefix_append _ _) with h | ⟨t, ht⟩
        · rw [isMarker_iff.mpr h] at hm
          contradiction
        · rw [← ht, List.prefix_append_right_inj] at hp
          cases t with
          | nil =>
            rw [isMarker_iff.mpr ⟨[], by simpa using ht.symm⟩] at hm
            contradiction
          | cons e t =>
            cases rest with
            | nil => simp at hp
            | cons k rest =>
              obtain rfl : e = '\n' := (List.cons_prefix_cons.mp hp).1
              have hmem : '\n' ∈ fileMarker := by rw [← ht]; simp
              exact absurd hmem (by decide)
    · exact Unmarked.prepend hl hrest r hs hp

/-- The code of a body holds no marker behind its line feeds. -/
theorem unmarked_joinLines {body : List Text} (h : ∀ l ∈ body, '\n' ∉ l ∧ isMarker l = false) :
    Unmarked (joinLines body) := by
  cases body with
  | nil => exact unmarked_of_not_mem (by simp [joinLines])
  | cons l rest =>
    rw [joinLines, join_cons]
    exact .prepend (h l List.mem_cons_self).1 (unmarked_flatMap fun x hx => h x (List.mem_cons_of_mem _ hx))

/-! ## Rows -/

/-- No row of a written line is a marker. -/
def Markerless (l : Text) : Prop := ∀ row ∈ l.rows, isMarker row = false

theorem markerless_of_not_mem {l : Text} (hn : '\n' ∉ l) (hm : isMarker l = false) : Markerless l := by
  rw [Markerless, rows_of_not_mem hn]
  simpa using hm

theorem markerless_of_start {start x : Text} (hs : Foreign start) (hx : Unmarked x) : Markerless (start ++ x) := by
  obtain ⟨first, others, hf⟩ := List.exists_cons_of_ne_nil (splitWhen_ne_nil (· == '\n') x)
  change Text.splitAt '\n' x = first :: others at hf
  intro row hrow
  rw [Text.rows, splitAt_append_of_not_mem hs.unbroken hf] at hrow
  obtain ⟨piece, hp, rfl⟩ := List.mem_map.mp hrow
  rw [isMarker_dropReturn]
  rcases List.mem_cons.mp hp with rfl | hp
  · exact hs.isMarker_eq_false first
  · obtain ⟨before, behind, rfl⟩ := List.append_of_mem hp
    have hj := join_splitAt '\n' x
    rw [hf, join_cons, List.flatMap_append, List.flatMap_cons] at hj
    rw [Bool.eq_false_iff, ne_eq, isMarker_iff]
    intro hm
    refine hx (piece ++ behind.flatMap ('\n' :: ·)) ⟨first ++ before.flatMap ('\n' :: ·), ?_⟩ ?_
    · simpa using hj
    · have hne : piece.trimStart ≠ [] := by
        intro h
        rw [h] at hm
        exact absurd hm (by decide)
      rw [trimStart_append hne]
      exact hm.trans (List.prefix_append _ _)

end Layout

end SourceArchive
