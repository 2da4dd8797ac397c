import SourceArchive.Enhancement
import SourceArchive.Mark
import SourceArchive.Proofs.Text
import SourceArchive.Review

/-!
# Carriage returns at line ends

Every pass takes a text line by line, and one carriage return before a line feed belongs to the line end.  So two texts
with the same lines are treated alike, if they also agree on whether the last line is ended, which the mark pass asks
(`SameLines`).  A text without carriage returns and the same text with one before each line feed are such texts.
-/

namespace SourceArchive

open Text

namespace Text

/-- A text with a carriage return before each line feed. -/
def withReturns (t : Text) : Text := t.flatMap fun c => if c = '\n' then ['\r', '\n'] else [c]

theorem withReturns_append (a b : Text) : withReturns (a ++ b) = withReturns a ++ withReturns b :=
  List.flatMap_append

theorem withReturns_of_not_mem {t : Text} (h : '\n' ∉ t) : withReturns t = t := by
  induction t with
  | nil => rfl
  | cons c r ih =>
    obtain ⟨hc, hr⟩ := not_or.mp (mt List.mem_cons.mpr h)
    have hrest : withReturns (c :: r) = [c] ++ withReturns r := by
      rw [withReturns, List.flatMap_cons, if_neg (Ne.symm hc), ← withReturns]
    rw [hrest, ih hr]
    rfl

theorem withReturns_endLines {ls : List Text} (h : ∀ l ∈ ls, '\n' ∉ l) :
    withReturns (endLines ls) = endLines (ls.map (· ++ ['\r'])) := by
  induction ls with
  | nil => rfl
  | cons l ls ih =>
    obtain ⟨hl, hls⟩ := List.forall_mem_cons.mp h
    have hcons (k : Text) (ks : List Text) : endLines (k :: ks) = k ++ ['\n'] ++ endLines ks := List.flatMap_cons
    rw [List.map_cons, hcons, hcons, withReturns_append, withReturns_append, withReturns_of_not_mem hl, ih hls]
    simp [withReturns]

theorem dropReturn_append_return (l : Text) : dropReturn (l ++ ['\r']) = l := by
  simp [dropReturn]

/-- The two texts have the same lines, and the last line of both is ended or of none. -/
structure SameLines (t u : Text) : Prop where
  lines_eq : lines t = lines u
  ended_iff : t.getLast? = some '\n' ↔ u.getLast? = some '\n'

theorem sameLines_withReturns {t : Text} (h : '\r' ∉ t) : SameLines (withReturns t) t := by
  obtain ⟨ls, last, rfl, hlast, hls⟩ := exists_endLines t
  have hreturn : ∀ l ∈ ls, '\r' ∉ l := fun l hl hm =>
    h (List.mem_append_left _ (List.mem_flatMap.mpr ⟨l, hl, List.mem_append_left _ hm⟩))
  have hrows : (ls.map (· ++ ['\r'])).flatMap rows = ls.flatMap rows := by
    rw [List.flatMap_map]
    refine List.flatMap_congr fun l hl => ?_
    have hfeed : '\n' ∉ l ++ ['\r'] := by simpa using hls l hl
    rw [rows_of_not_mem hfeed, dropReturn_append_return, rows_of_not_mem (hls l hl), dropReturn_of_not_mem (hreturn l hl)]
  rw [withReturns_append, withReturns_endLines hls, withReturns_of_not_mem hlast]
  constructor
  · rw [lines_endLines_append, lines_endLines_append, hrows]
  · by_cases hne : last = []
    · subst hne
      cases ls with
      | nil => rfl
      | cons l ls =>
        rw [List.append_nil, List.append_nil]
        exact iff_of_true (getLast?_endLines (by simp)) (getLast?_endLines (by simp))
    · rw [List.getLast?_append_of_ne_nil _ hne, List.getLast?_append_of_ne_nil _ hne]

end Text

/-! ## The passes -/

/-- All passes over an archive give the same for two texts. -/
structure ReadAlike (t u : Text) : Prop where
  sections : split t = split u
  paths : markerPaths t = markerPaths u
  annotated : AnnotatedSection.allIn t = AnnotatedSection.allIn u
  marked : Mark.archive t = Mark.archive u
  enhanced : ∀ c : Classifier, (c.enhance t).text = (c.enhance u).text
  statistics : ∀ c : Classifier, (c.enhance t).statistics = (c.enhance u).statistics
  /-- As the annotated archive of a review, whatever the plain one is. -/
  reviewed : ∀ (r : Reviewer) (plain : Option Text) (title : Text), r.review t plain title = r.review u plain title
  /-- As the plain archive of a review, whatever the annotated one is. -/
  compared : ∀ (r : Reviewer) (annotated title : Text),
    r.review annotated (some t) title = r.review annotated (some u) title

theorem Text.SameLines.readAlike {t u : Text} (h : SameLines t u) : ReadAlike t u := by
  have hsections : split t = split u := by rw [split, split, h.lines_eq]
  have hpaths : markerPaths t = markerPaths u := by rw [markerPaths, markerPaths, h.lines_eq]
  have hannotated : AnnotatedSection.allIn t = AnnotatedSection.allIn u := by
    rw [AnnotatedSection.allIn, AnnotatedSection.allIn, h.lines_eq]
  have henhanced (c : Classifier) : c.enhance t = c.enhance u := by
    rw [Classifier.enhance, Classifier.enhance, hsections]
  constructor
  · exact hsections
  · exact hpaths
  · exact hannotated
  · rw [Mark.archive, Mark.archive, h.lines_eq]
    simp only [h.ended_iff]
  · exact fun c => by rw [henhanced]
  · exact fun c => by rw [henhanced]
  · intro r plain title
    rw [Reviewer.review, Reviewer.review, hannotated, hpaths]
  · intro r annotated title
    have hplain : (some t).map markerPaths = (some u).map markerPaths := congrArg some hpaths
    rw [Reviewer.review, Reviewer.review, hplain]

/-- Line ends do not matter: no pass tells a text without carriage returns from the same text with one before each line
feed. -/
theorem readAlike_withReturns {t : Text} (h : '\r' ∉ t) : ReadAlike t.withReturns t :=
  (sameLines_withReturns h).readAlike

/-- An annotated archive of two files, of which the last line is a marker that no line feed ends. -/
def unendedArchive : Text :=
  joinLines ["// ====", "// FILE: app/panel.tsx", "// ====", "// FLOW: MEMBER ONLY", "", "import x from 'x';",
    "function Panel() \x7b", "  // TYPE: unknown", "  const [n, setN] = useState(0);", "\x7d", "", "// FILE: lib/a.ts"]

/-- The plain archive, with a file that the annotated one does not have. -/
def endedArchive : Text :=
  endLines ["// FILE: app/panel.tsx", "import x from 'x';", "// FILE: lib/a.ts", "// FILE: lib/b.ts", "let b;"]

theorem readAlike_withReturns_unended :
    ('\r' ∉ unendedArchive ∧ ReadAlike unendedArchive.withReturns unendedArchive) ∧
      ('\r' ∉ endedArchive ∧ ReadAlike endedArchive.withReturns endedArchive) ∧
      markerPaths unendedArchive = ["app/panel.tsx", "lib/a.ts"] ∧
      (split unendedArchive).map (·.body.length) = [8, 0] ∧
      (AnnotatedSection.allIn unendedArchive).map (·.flow?) = [some "MEMBER ONLY".toList, none] ∧
      (Mark.archive unendedArchive).lines.length = unendedArchive.lines.length + 5 ∧
      PathCheck.absent (markerPaths endedArchive) (markerPaths unendedArchive) = ["lib/b.ts"] ∧
      ∀ (r : Reviewer) (title : Text), r.review unendedArchive.withReturns (some endedArchive.withReturns) title =
        r.review unendedArchive (some endedArchive) title := by
  have hannotated : '\r' ∉ unendedArchive := by decide +kernel
  have hplain : '\r' ∉ endedArchive := by decide +kernel
  have hunended := readAlike_withReturns hannotated
  have hended := readAlike_withReturns hplain
  refine ⟨⟨hannotated, hunended⟩, ⟨hplain, hended⟩, by decide +kernel, by decide +kernel, by decide +kernel,
    by decide +kernel, by decide +kernel, fun r title => ?_⟩
  rw [hunended.reviewed, hended.compared]

end SourceArchive
