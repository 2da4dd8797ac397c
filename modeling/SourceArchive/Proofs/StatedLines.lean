import SourceArchive.Proofs.Sections
import Mathlib.Data.List.Forall2
import Mathlib.Data.List.Infix

/-!
# Which lines of a section state metadata

The reader of annotated archives carries one bit from line to line: whether a dependency tree is open.  What it does to
a line can be said without it, from the line and the lines above it alone (`Stated`).  So the lines of a section are
divided in order: those that state metadata on one side, trimmed, and all others on the other side as they are.
-/

namespace SourceArchive

open Text Layout

namespace AnnotatedSection

/-! ## Open trees -/

/-- The lines end in a dependency tree: its header stands among them and only comments stand below it. -/
def EndsInTree (above : List Text) : Prop :=
  ∃ a header b, above = a ++ header :: b ∧ header.trim = treeHeader ∧ ∀ l ∈ b, "//".toList <+: l.trim

/-- Whether lines end in a dependency tree. -/
def endsInTree (above : List Text) : Bool :=
  (above.reverse.takeWhile fun l => startsWith l.trim "//").any fun l => l.trim == treeHeader

theorem not_endsInTree_nil : ¬ EndsInTree [] := by
  rintro ⟨a, header, b, h, -⟩
  exact absurd h.symm (by simp)

/-- One more line leaves a tree open if it is a comment, and opens one if it is a header. -/
theorem endsInTree_concat_iff {above : List Text} {l : Text} :
    EndsInTree (above ++ [l]) ↔ EndsInTree above ∧ "//".toList <+: l.trim ∨ l.trim = treeHeader := by
  constructor
  · rintro ⟨a, header, b, h, hheader, hb⟩
    rcases List.eq_nil_or_concat b with rfl | ⟨b, x, rfl⟩
    · obtain ⟨-, hl⟩ := List.append_inj' h rfl
      obtain rfl : l = header := by simpa using hl
      exact Or.inr hheader
    · rw [List.concat_eq_append, ← List.cons_append, ← List.append_assoc] at h
      obtain ⟨rfl, hx⟩ := List.append_inj' h rfl
      obtain rfl : l = x := by simpa using hx
      rw [List.concat_eq_append] at hb
      exact Or.inl ⟨⟨a, header, b, rfl, hheader, fun k hk => hb k (List.mem_append_left _ hk)⟩, hb l (by simp)⟩
  · rintro (⟨⟨a, header, b, rfl, hheader, hb⟩, hl⟩ | hl)
    · refine ⟨a, header, b ++ [l], by simp, hheader, fun k hk => ?_⟩
      rcases List.mem_append.mp hk with hk | hk
      · exact hb k hk
      · rwa [List.mem_singleton.mp hk]
    · exact ⟨above, l, [], rfl, hl, by simp⟩

theorem endsInTree_concat (above : List Text) (l : Text) :
    endsInTree (above ++ [l]) = (endsInTree above && startsWith l.trim "//" || l.trim == treeHeader) := by
  have hheader : startsWith treeHeader "//" = true := by decide
  rw [endsInTree, List.reverse_append, List.reverse_singleton, List.singleton_append, List.takeWhile_cons]
  by_cases hl : l.trim = treeHeader
  · rw [hl, hheader, if_pos rfl, List.any_cons, hl, beq_self_eq_true, Bool.true_or, Bool.or_true]
  · rw [beq_eq_false_iff_ne.mpr hl, Bool.or_false]
    split
    · rename_i hc
      rw [hc, Bool.and_true, List.any_cons, beq_eq_false_iff_ne.mpr hl, Bool.false_or, endsInTree]
    · rename_i hc
      rw [Bool.eq_false_iff.mpr hc, Bool.and_false, List.any_nil]

theorem endsInTree_iff {above : List Text} : endsInTree above = true ↔ EndsInTree above := by
  induction above using List.reverseRecOn with
  | nil => exact iff_of_false Bool.false_ne_true not_endsInTree_nil
  | append_singleton above l ih =>
    rw [endsInTree_concat, endsInTree_concat_iff, Bool.or_eq_true, Bool.and_eq_true, ih, startsWith_iff, beq_iff_eq]

instance (above : List Text) : Decidable (EndsInTree above) := decidable_of_iff _ endsInTree_iff

/-! ## Sorting, line by line -/

/-- A line states metadata below the lines `above`: by what it begins with, or as a comment in a dependency tree. -/
def Stated (above : List Text) (l : Text) : Prop :=
  flowStart <+: l.trim ∨ metaStart <+: l.trim ∨ l.trim = treeHeader ∨ "//".toList <+: l.trim ∧ EndsInTree above

instance (above : List Text) (l : Text) : Decidable (Stated above l) :=
  inferInstanceAs (Decidable (_ ∨ _ ∨ _ ∨ _ ∧ _))

theorem decide_stated (above : List Text) (l : Text) :
    decide (Stated above l) = (endsInTree above && startsWith l.trim "//" || statesMetadata l.trim) := by
  rw [Bool.eq_iff_iff, decide_eq_true_iff, statesMetadata, Bool.or_eq_true, Bool.or_eq_true, Bool.or_eq_true,
    Bool.and_eq_true, endsInTree_iff, startsWith_iff, startsWith_iff, startsWith_iff, beq_iff_eq,
    or_comm, or_assoc, or_assoc, and_comm, Stated]

/-- The lines, each with the lines above it. -/
def placed (ls : List Text) : List (List Text × Text) := ls.inits.zip ls

/-- The lines, each with the lines above it, where `above` stand above all of them. -/
def placedBelow (above ls : List Text) : List (List Text × Text) := (ls.inits.map (above ++ ·)).zip ls

theorem placedBelow_nil (ls : List Text) : placedBelow [] ls = placed ls := by
  simp [placedBelow, placed]

theorem placedBelow_cons (above : List Text) (l : Text) (ls : List Text) :
    placedBelow above (l :: ls) = (above, l) :: placedBelow (above ++ [l]) ls := by
  simp [placedBelow, Function.comp_def]

/-- One line is sorted, and the tree is open below it if it was and the line is a comment, or if the line is a
header. -/
theorem sort_cons (inTree : Bool) (l : Text) (ls : List Text) :
    sort inTree (l :: ls) =
      let below := sort (inTree && startsWith l.trim "//" || l.trim == treeHeader) ls
      if inTree && startsWith l.trim "//" || statesMetadata l.trim then (l.trim :: below.1, below.2)
      else (below.1, l :: below.2) := by
  rw [sort]
  dsimp only
  split
  · rfl
  · rename_i h
    simp only [statesMetadata, Bool.or_eq_true, not_or, Bool.not_eq_true] at h
    rw [h.1, h.2.2]
    rfl

/-- Sorting below any lines goes by what each line states where it stands. -/
theorem sort_eq_filter (above ls : List Text) :
    sort (endsInTree above) ls =
      (((placedBelow above ls).filter fun p => Stated p.1 p.2).map fun p => p.2.trim,
        ((placedBelow above ls).filter fun p => ¬ Stated p.1 p.2).map fun p => p.2) := by
  induction ls generalizing above with
  | nil => rfl
  | cons l ls ih =>
    rw [sort_cons, ← endsInTree_concat, ih, ← decide_stated, placedBelow_cons]
    by_cases h : Stated above l <;> simp [h]

-- a comment states metadata as long as nothing but comments stands between it and the header
example : sort false ["// DEPENDENCY TREE:", "  // b", "const b = 1", "// c"]
    = ((["// DEPENDENCY TREE:", "// b"] : List Text), (["const b = 1", "// c"] : List Text)) := by decide

/-! ## The lines of a section -/

/-- The section `s` is what is read off the chunk `c`.  Each of the lines below the marker and the separators next to it
is on one side, in order: among the metadata if it states metadata where it stands, and in the body if not. -/
structure ReadOff (c : Chunk) (s : AnnotatedSection) : Prop where
  path : markerPath? c.marker = some s.path
  metaLines : s.metaLines =
    ((placed (c.lines.dropWhile isSeparator)).filter fun p => Stated p.1 p.2).map fun p => p.2.trim
  body : s.body = ((placed (c.lines.dropWhile isSeparator)).filter fun p => ¬ Stated p.1 p.2).map fun p => p.2

theorem readOff_ofChunk {c : Chunk} (h : c.Proper) : ReadOff c (ofChunk c) := by
  have hsort := sort_eq_filter [] (c.lines.dropWhile isSeparator)
  rw [placedBelow_nil] at hsort
  exact ⟨h.markerPath?_marker, congrArg Prod.fst hsort, congrArg Prod.snd hsort⟩

theorem ReadOff.not_stated {c : Chunk} {s : AnnotatedSection} (h : ReadOff c s) {l : Text} (hl : l ∈ s.body) :
    ¬ flowStart <+: l.trim ∧ ¬ metaStart <+: l.trim ∧ l.trim ≠ treeHeader := by
  rw [h.body, List.mem_map] at hl
  obtain ⟨⟨above, k⟩, hk, rfl⟩ := hl
  have hnot : ¬ Stated above k := by simpa using (List.mem_filter.mp hk).2
  exact ⟨fun hp => hnot (Or.inl hp), fun hp => hnot (Or.inr (Or.inl hp)), fun he => hnot (Or.inr (Or.inr (Or.inl he)))⟩

/-- Behind a preamble an archive is made of markers and the lines up to the next one.  Each gives a section, and its
lines are divided between the metadata and the body of the section; so no line of a body states metadata by itself. -/
theorem allIn_divides (archive : Text) : ∃ preamble chunks,
    archive.lines = Chunk.uncut preamble chunks ∧ (∀ l ∈ preamble, isMarker l = false) ∧ (∀ c ∈ chunks, c.Proper) ∧
      List.Forall₂ ReadOff chunks (allIn archive) ∧
      ∀ s ∈ allIn archive, ∀ l ∈ s.body, ¬ flowStart <+: l.trim ∧ ¬ metaStart <+: l.trim ∧ l.trim ≠ treeHeader := by
  obtain ⟨hpreamble, hproper⟩ := Chunk.markerless_and_proper_cut archive.lines
  refine ⟨_, _, (Chunk.uncut_cut archive.lines).symm, hpreamble, hproper, ?_, ?_⟩
  · rw [allIn, List.forall₂_map_right_iff, List.forall₂_same]
    exact fun c hc => readOff_ofChunk (hproper c hc)
  · intro s hs l hl
    obtain ⟨c, hc, rfl⟩ := List.mem_map.mp hs
    exact (readOff_ofChunk (hproper c hc)).not_stated hl

end AnnotatedSection

end SourceArchive
