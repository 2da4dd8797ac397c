import SourceArchive.Mark
import SourceArchive.Proofs.Sections
import Mathlib.Data.List.Nodup

/-!
# The run of the mark pass

An archive is marked line by line with one piece of state: the marks that were set in the section so far, or none
before the first marker line.  `pass` is this run.  It keeps the marks beside the line that they are set above, so that
an inserted mark is told from a comment that looks like one.  What one line may do to the state is `Allowed`; what
a section does follows from it step by step (`steps_pass`), and a marker line makes every section begin afresh
(`pass_marker`).
-/

namespace SourceArchive

open Layout Text
open scoped List

/-- A line and the marks that are set above it. -/
structure MarkedLine where
  marks : List Mark
  text : Text

namespace MarkedLine

/-- The line below the lines of its marks. -/
def written (l : MarkedLine) : List Text := l.marks.flatMap Mark.lines ++ [l.text]

/-- A line without marks. -/
def bare (line : Text) : MarkedLine := ⟨[], line⟩

theorem flatMap_written_bare (ls : List Text) : (ls.map bare).flatMap written = ls := by
  rw [List.flatMap_map]
  exact List.flatMap_singleton' ls

end MarkedLine

namespace Mark

open MarkedLine

/-- The marks that a line sets if its section has set the marks `seen`; a line above the first marker sets none. -/
def above (seen : Option (List Mark)) (line : Text) : List Mark := seen.elim [] (ofLine · line)

/-- The marks that have been set behind a line. -/
def next (seen : Option (List Mark)) (line : Text) : Option (List Mark) :=
  if isMarker line then some [] else seen.map fun ms => ms ++ ofLine ms line

/-- The lines of an archive, each with the marks that it sets. -/
def pass (seen : Option (List Mark)) : List Text → List MarkedLine
  | [] => []
  | line :: rest => ⟨above seen line, line⟩ :: pass (next seen line) rest

/-- The marks that are set above lines, in order. -/
def emitted (ls : List MarkedLine) : List Mark := ls.flatMap (·.marks)

theorem map_text_pass (seen : Option (List Mark)) (ls : List Text) : (pass seen ls).map (·.text) = ls := by
  induction ls generalizing seen with
  | nil => rfl
  | cons line rest ih => rw [pass, List.map_cons, ih]

theorem pass_append (seen : Option (List Mark)) (a b : List Text) :
    pass seen (a ++ b) = pass seen a ++ pass (a.foldl next seen) b := by
  induction a generalizing seen with
  | nil => rfl
  | cons line rest ih => rw [List.cons_append, pass, ih, pass, List.cons_append, List.foldl_cons]

/-! ## Lines that set no marks -/

theorem isPassive_iff {line : Text} :
    isPassive line = true ↔ line = [] ∨ "//".toList <+: line ∨ "/*".toList <+: line ∨ "*".toList <+: line := by
  simp only [isPassive, Bool.or_eq_true, List.isEmpty_iff, startsWith_iff, or_assoc]

theorem isPassive_of_comment {line : Text} (h : "//".toList <+: line) : isPassive line = true :=
  isPassive_iff.mpr (.inr (.inl h))

theorem isPassive_of_isMarker {line : Text} (h : isMarker line = true) : isPassive line.trim = true := by
  rw [isMarker, startsWith_iff] at h
  exact isPassive_of_comment (List.IsPrefix.trans (by decide) h)

theorem isPassive_of_isSeparator {line : Text} (h : isSeparator line = true) : isPassive line.trim = true := by
  rw [isSeparator, startsWith_iff] at h
  exact isPassive_of_comment (List.IsPrefix.trans (by decide) h)

theorem above_of_isPassive {line : Text} (h : isPassive line.trim = true) (seen : Option (List Mark)) :
    above seen line = [] := by
  cases seen with
  | none => rfl
  | some ms => simp [above, ofLine, h]

theorem next_of_isPassive {line : Text} (h : isPassive line.trim = true) (hm : isMarker line = false)
    (seen : Option (List Mark)) : next seen line = seen := by
  cases seen with
  | none => simp [next, hm]
  | some ms => simp [next, hm, ofLine, h]

theorem pass_passive {ls : List Text} (h : ∀ l ∈ ls, isPassive l.trim = true ∧ isMarker l = false)
    (seen : Option (List Mark)) (rest : List Text) : pass seen (ls ++ rest) = ls.map bare ++ pass seen rest := by
  induction ls with
  | nil => rfl
  | cons line ls ih =>
    obtain ⟨hp, hm⟩ := h line List.mem_cons_self
    rw [List.cons_append, pass, above_of_isPassive hp, next_of_isPassive hp hm,
      ih fun l hl => h l (List.mem_cons_of_mem _ hl), List.map_cons, List.cons_append]
    rfl

theorem pass_none {ls : List Text} (h : ∀ l ∈ ls, isMarker l = false) (rest : List Text) :
    pass none (ls ++ rest) = ls.map bare ++ pass none rest := by
  induction ls with
  | nil => rfl
  | cons line ls ih =>
    have hnext : next none line = none := by simp [next, h line List.mem_cons_self]
    rw [List.cons_append, pass, hnext, ih fun l hl => h l (List.mem_cons_of_mem _ hl), List.map_cons, List.cons_append]
    rfl

/-- Behind a marker line it does not matter what came before it. -/
theorem pass_marker {marker : Text} (h : isMarker marker = true) (seen : Option (List Mark)) (rest : List Text) :
    pass seen (marker :: rest) = bare marker :: pass (some []) rest := by
  rw [pass, above_of_isPassive (isPassive_of_isMarker h), next, if_pos h]
  rfl

/-! ## The run over the chunks of an archive -/

theorem pass_chunks {chunks : List Chunk} (h : ∀ c ∈ chunks, c.Proper) (seen : Option (List Mark)) :
    pass seen (chunks.flatMap fun c => c.marker :: c.lines) =
      chunks.flatMap fun c => bare c.marker :: pass (some []) c.lines := by
  induction chunks generalizing seen with
  | nil => rfl
  | cons c chunks ih =>
    rw [List.flatMap_cons, List.cons_append, pass_marker (h c List.mem_cons_self).marked, pass_append,
      ih fun d hd => h d (List.mem_cons_of_mem _ hd), List.flatMap_cons, List.cons_append]

theorem pass_eq_cut (ls : List Text) :
    pass none ls =
      (Chunk.cut ls).1.map bare ++ (Chunk.cut ls).2.flatMap fun c => bare c.marker :: pass (some []) c.lines := by
  obtain ⟨hbefore, hchunks⟩ := Chunk.markerless_and_proper_cut ls
  have huncut := Chunk.uncut_cut ls
  rw [Chunk.uncut] at huncut
  rw [← pass_chunks hchunks none, ← pass_none hbefore, huncut]

theorem markLines_eq {ls : List Text} (h : ∀ l ∈ ls, isMarker l = false) (seen : List Mark) :
    markLines seen ls = (pass (some seen) ls).flatMap written := by
  induction ls generalizing seen with
  | nil => rfl
  | cons line rest ih =>
    have hnext : next (some seen) line = some (seen ++ ofLine seen line) := by
      simp [next, h line List.mem_cons_self]
    rw [markLines, ih fun l hl => h l (List.mem_cons_of_mem _ hl), pass, hnext, List.flatMap_cons, written,
      List.append_assoc]
    rfl

/-- A marked archive is its lines below their marks, with a line feed at the end if there was one. -/
theorem archive_eq (t : Text) : archive t = joinLike t ((pass none t.lines).flatMap written) := by
  have hlines : ∀ c ∈ (Chunk.cut t.lines).2,
      c.marker :: markLines [] c.lines = (bare c.marker :: pass (some []) c.lines).flatMap written := by
    intro c hc
    rw [markLines_eq (Chunk.proper_of_mem_cut c hc).markerless, List.flatMap_cons]
    rfl
  have hmarked : (Chunk.cut t.lines).1 ++ (Chunk.cut t.lines).2.flatMap (fun c => c.marker :: markLines [] c.lines) =
      (pass none t.lines).flatMap written := by
    rw [pass_eq_cut, List.flatMap_append, flatMap_written_bare, List.flatMap_assoc, List.flatMap_congr hlines]
  rw [archive, joinLike]
  dsimp only
  rw [hmarked]
  split
  · rfl
  · rw [List.append_nil]

/-! ## What may be set when -/

theorem needsComponent_iff {m : Mark} : m.needsComponent = true ↔ m ∈ [state, effects, handlers, api, render] := by
  cases m <;> decide

/-- A mark may be set behind the marks `seen`. -/
structure Allowed (seen : List Mark) (m : Mark) : Prop where
  fresh : m ∉ seen
  inside : m.needsComponent = true → component ∈ seen
  outside : m = constants → component ∉ seen

/-- Marks may be set one after the other behind the marks `seen`. -/
def Steps (seen : List Mark) : List Mark → Prop
  | [] => True
  | m :: rest => Allowed seen m ∧ Steps (seen ++ [m]) rest

theorem steps_append {seen a b : List Mark} : Steps seen (a ++ b) ↔ Steps seen a ∧ Steps (seen ++ a) b := by
  induction a generalizing seen with
  | nil => simp [Steps]
  | cons m a ih => rw [List.cons_append, Steps, ih, Steps, List.append_assoc, List.singleton_append, and_assoc]

theorem allowed_of_calls {seen : List Mark} {line : Text} {m : Mark} (hm : mayFollow seen m = true)
    (hc : callsFor seen line m = true) : Allowed seen m := by
  rw [mayFollow, Bool.and_eq_true, Bool.not_eq_true', Bool.or_eq_true, Bool.not_eq_true'] at hm
  refine ⟨by simpa using hm.1, fun hn => ?_, ?_⟩
  · rcases hm.2 with h | h
    · rw [hn] at h
      contradiction
    · simpa using h
  · rintro rfl
    simp only [callsFor, Bool.and_eq_true] at hc
    simpa using hc.1.1

theorem steps_newAmong (seen : List Mark) (line : Text) (ms : List Mark) : Steps seen (newAmong seen line ms) := by
  induction ms generalizing seen with
  | nil => trivial
  | cons m ms ih =>
    rw [newAmong]
    split
    · rename_i h
      obtain ⟨hm, hc⟩ := Bool.and_eq_true_iff.mp h
      exact ⟨allowed_of_calls hm hc, ih _⟩
    · exact ih _

theorem newAmong_sublist (seen : List Mark) (line : Text) (ms : List Mark) : newAmong seen line ms <+ ms := by
  induction ms generalizing seen with
  | nil => exact .slnil
  | cons m ms ih =>
    rw [newAmong]
    split
    · exact (ih _).cons_cons m
    · exact (ih _).cons m

theorem ofLine_spec (seen : List Mark) (line : Text) : Steps seen (ofLine seen line) ∧ ofLine seen line <+ all := by
  rw [ofLine]
  split
  · exact ⟨trivial, List.nil_sublist _⟩
  · exact ⟨steps_newAmong _ _ _, newAmong_sublist _ _ _⟩

/-- One line takes allowed steps, and the next line goes on from where it has come. -/
theorem steps_pass {ls : List Text} (h : ∀ l ∈ ls, isMarker l = false) (seen : List Mark) :
    Steps seen (emitted (pass (some seen) ls)) := by
  induction ls generalizing seen with
  | nil => trivial
  | cons line rest ih =>
    have hnext : next (some seen) line = some (seen ++ ofLine seen line) := by
      simp [next, h line List.mem_cons_self]
    rw [pass, hnext, emitted, List.flatMap_cons, ← emitted]
    exact steps_append.mpr ⟨(ofLine_spec seen line).1, ih (fun l hl => h l (List.mem_cons_of_mem _ hl)) _⟩

theorem sublist_all_of_mem_pass {seen : Option (List Mark)} {ls : List Text} {l : MarkedLine} (h : l ∈ pass seen ls) :
    l.marks <+ all := by
  induction ls generalizing seen with
  | nil => simp [pass] at h
  | cons line rest ih =>
    rcases List.mem_cons.mp h with rfl | h
    · cases seen with
      | none => exact List.nil_sublist _
      | some ms => exact (ofLine_spec ms line).2
    · exact ih h

/-- The marks of a section: each once, those that need a component behind its mark, and the constants before it. -/
structure Disciplined (ms : List Mark) : Prop where
  nodup : ms.Nodup
  inside : ∀ before m behind, ms = before ++ m :: behind → m.needsComponent = true → component ∈ before
  outside : ∀ before behind, ms = before ++ constants :: behind → component ∉ before

theorem Steps.nodup_append {seen ms : List Mark} (h : Steps seen ms) (hs : seen.Nodup) : (seen ++ ms).Nodup := by
  induction ms generalizing seen with
  | nil => rwa [List.append_nil]
  | cons m ms ih =>
    have hm : (seen ++ [m]).Nodup := by
      rw [← List.concat_eq_append]
      exact List.Nodup.concat h.1.fresh hs
    have hrest := ih h.2 hm
    rwa [List.append_assoc] at hrest

theorem Steps.disciplined {ms : List Mark} (h : Steps [] ms) : Disciplined ms := by
  have hallowed {before behind : List Mark} {m : Mark} (he : ms = before ++ m :: behind) : Allowed before m := by
    rw [he] at h
    exact (steps_append.mp h).2.1
  exact {
    nodup := h.nodup_append .nil
    inside := fun _ _ _ he => (hallowed he).inside
    outside := fun _ _ he => (hallowed he).outside rfl }

/-! ## A section by itself -/

theorem ofLine_dropReturn (seen : List Mark) (line : Text) : ofLine seen (dropReturn line) = ofLine seen line := by
  rw [ofLine, ofLine, trim_dropReturn]

/-- A carriage return at the end of a line makes no difference to its marks. -/
theorem marks_pass_dropReturn (seen : Option (List Mark)) (ls : List Text) :
    (pass seen (ls.map dropReturn)).map (·.marks) = (pass seen ls).map (·.marks) := by
  induction ls generalizing seen with
  | nil => rfl
  | cons line rest ih =>
    have habove : above seen (dropReturn line) = above seen line := by
      simp only [above, ofLine_dropReturn]
    have hnext : next seen (dropReturn line) = next seen line := by
      simp only [next, isMarker_dropReturn, ofLine_dropReturn]
    rw [List.map_cons, pass, habove, hnext, List.map_cons, ih, pass, List.map_cons]

/-- The mark pass in one run: no mark is set twice in a section, and none out of its turn; the marks of one line are in
the order in which a line is tried for them; and each section gets the marks that it gets as an archive of its
own. -/
theorem pass_disciplined (t : Text) :
    archive t = joinLike t ((pass none t.lines).flatMap written) ∧
      pass none t.lines = (Chunk.cut t.lines).1.map bare ++
        (Chunk.cut t.lines).2.flatMap (fun c => bare c.marker :: pass (some []) c.lines) ∧
      ∀ c ∈ (Chunk.cut t.lines).2,
        Disciplined (emitted (pass (some []) c.lines)) ∧ (∀ l ∈ pass (some []) c.lines, l.marks <+ all) ∧
          (pass none (Text.endLines (c.marker :: c.lines)).lines).map (·.marks) =
            [] :: (pass (some []) c.lines).map (·.marks) := by
  refine ⟨archive_eq t, pass_eq_cut t.lines, fun c hc => ?_⟩
  have hproper := Chunk.proper_of_mem_cut c hc
  refine ⟨(steps_pass hproper.markerless []).disciplined, fun l hl => sublist_all_of_mem_pass hl, ?_⟩
  have hunbroken : ∀ l ∈ c.marker :: c.lines, '\n' ∉ l := by
    obtain ⟨hmarker, hlines⟩ := Chunk.mem_of_mem_cut hc
    intro l hl
    rcases List.mem_cons.mp hl with rfl | hl
    · exact not_mem_of_mem_lines hmarker
    · exact not_mem_of_mem_lines (hlines l hl)
  have hlines : (Text.endLines (c.marker :: c.lines)).lines = (c.marker :: c.lines).map dropReturn := by
    rw [lines_endLines, List.map_eq_flatMap]
    exact List.flatMap_congr fun l hl => rows_of_not_mem (hunbroken l hl)
  rw [hlines, marks_pass_dropReturn, pass_marker hproper.marked]
  rfl

/-- Two components; a line of the second section would set a mark if it stood in the first one. -/
def twoComponents : Text :=
  "// FILE: a.tsx\nfunction A() \x7b\n// FILE: b.tsx\n  useState(0);\nfunction B() \x7b\n  useState(1);"

theorem pass_disciplined_twoComponents : ∃ c ∈ (Chunk.cut twoComponents.lines).2, c.path = "b.tsx".toList ∧
    Disciplined (emitted (pass (some []) c.lines)) ∧
      (pass none (Text.endLines (c.marker :: c.lines)).lines).map (·.marks) = [[], [], [component], [state]] := by
  obtain ⟨-, -, hsections⟩ := pass_disciplined twoComponents
  let second : Chunk := ⟨"// FILE: b.tsx".toList, ["  useState(0);".toList, "function B() \x7b".toList, "  useState(1);".toList]⟩
  have hsecond : second ∈ (Chunk.cut twoComponents.lines).2 := by decide
  obtain ⟨hdisciplined, -, halone⟩ := hsections second hsecond
  have hmarks : (pass (some []) second.lines).map (·.marks) = [[], [component], [state]] := by decide +kernel
  exact ⟨second, hsecond, by decide, hdisciplined, by rw [halone, hmarks]⟩

end Mark

end SourceArchive
