import SourceArchive.Archive.Pack
import SourceArchive.Proofs.Splitting

/-!
# Packing and splitting

What `pack` frames, `split` unframes: each file is one section, and no line of its content is lost.  Separators at the
start of a content stand next to the packer's own and are taken for a part of the frame, so they end up in the header;
the empty line behind a content keeps those at its end in the body.
-/

namespace SourceArchive

open Layout Text

/-! ## Lines of framed contents -/

theorem lines_withLineFeed_append (t r : Text) : lines (withLineFeed t ++ r) = lines (withLineFeed t) ++ lines r := by
  apply lines_append_of_ended
  rw [withLineFeed]
  split
  · assumption
  · exact List.getLast?_concat

theorem exists_marker_of_piece {ps : List Text} {p : Text} (hp : p ∈ ps) (h : isMarker p = true) :
    ∃ l ∈ linesOfPieces ps, isMarker l = true := by
  fun_induction linesOfPieces ps with
  | case1 => contradiction
  | case2 last hlast =>
    obtain rfl := List.mem_singleton.mp hp
    obtain rfl := List.isEmpty_iff.mp hlast
    exact absurd h (by decide)
  | case3 last => exact ⟨p, hp, h⟩
  | case4 q rest _ ih =>
    rcases List.mem_cons.mp hp with rfl | hp
    · exact ⟨dropReturn p, List.mem_cons_self, by rw [isMarker_dropReturn, h]⟩
    · obtain ⟨l, hl, hm⟩ := ih hp
      exact ⟨l, List.mem_cons_of_mem _ hl, hm⟩

/-- A line feed at the end makes no marker. -/
theorem markerless_withLineFeed {t : Text} (h : ∀ l ∈ lines t, isMarker l = false) :
    ∀ l ∈ lines (withLineFeed t), isMarker l = false := by
  intro l hl
  rw [withLineFeed] at hl
  split at hl
  · exact h l hl
  · have hrows : lines (t ++ ['\n']) = rows t := (lines_append_cons t []).trans (List.append_nil _)
    rw [hrows, rows, List.mem_map] at hl
    obtain ⟨p, hp, rfl⟩ := hl
    rw [isMarker_dropReturn, Bool.eq_false_iff]
    intro hm
    obtain ⟨l, hl, hm⟩ := exists_marker_of_piece hp hm
    rw [h l hl] at hm
    contradiction

namespace SourceFile

/-- The lines of the content, the last of which ends as well. -/
def lines (f : SourceFile) : List Text := Text.lines (withLineFeed f.content)

/-- What a file has to be to come back from an archive: a path that is read off its marker as it was written, and no
marker in the content. -/
structure Packable (f : SourceFile) : Prop where
  path_unbroken : '\n' ∉ f.path
  trim_path : f.path.trim = f.path
  markerless : ∀ l ∈ Text.lines f.content, isMarker l = false

/-- The section that a file becomes. -/
def packed (f : SourceFile) : Section :=
  ⟨f.path, f.header ++ f.lines.takeWhile isSeparator, f.lines.dropWhile isSeparator ++ [[]]⟩

variable {f : SourceFile}

theorem Packable.rows_header (h : f.Packable) : f.header.flatMap rows = f.header := by
  -- the path ends in no blank, so the line ends in no carriage return that a reader would drop
  have hreturn : dropReturn (fileMarker ++ " " ++ f.path) = fileMarker ++ " " ++ f.path := by
    have hinked : EndsInked (fileMarker ++ " " ++ f.path) ∨ f.path = [] := by
      by_cases hp : f.path = []
      · exact .inr hp
      · exact .inl ((AnnotatedSection.endsInked_of_trim_eq hp h.trim_path).append _)
    rcases hinked with ⟨a, c, he, hc⟩ | hp
    · rcases dropReturn_eq_or (fileMarker ++ " " ++ f.path) with hr | hr
      · exact hr
      · rw [he] at hr
        obtain ⟨-, rfl⟩ := List.append_inj' hr rfl |>.imp_right List.singleton_inj.mp
        simp [isBlank] at hc
    · rw [hp]
      decide
  have hmarker : '\n' ∉ fileMarker ++ " " ++ f.path := by
    rw [List.mem_append, not_or]
    exact ⟨by decide, h.path_unbroken⟩
  have hseparator : rows separatorLine = [separatorLine] := by decide
  rw [header, List.flatMap_cons, List.flatMap_cons, List.flatMap_singleton, hseparator, rows_of_not_mem hmarker, hreturn]
  rfl

theorem Packable.lines_entry (h : f.Packable) (t : Text) :
    Text.lines (f.entry ++ t) = f.packed.lines ++ Text.lines t := by
  have hempty : Text.lines (['\n'] ++ t) = [] :: Text.lines t := lines_append_cons [] t
  rw [entry, List.append_assoc, List.append_assoc, lines_endLines_append, h.rows_header,
    lines_withLineFeed_append, hempty, Section.lines, packed, ← lines]
  have hlines : f.lines = f.lines.takeWhile isSeparator ++ f.lines.dropWhile isSeparator :=
    List.takeWhile_append_dropWhile.symm
  conv_lhs => rw [hlines]
  simp only [List.append_assoc, List.singleton_append]

theorem Packable.framed (h : f.Packable) : f.packed.Framed := by
  have hseparator : isSeparator separatorLine = true := by decide
  have hpath : markerPath? (fileMarker ++ " " ++ f.path) = some f.path := by rw [markerPath?_marker, h.trim_path]
  have hmarker : isMarker (fileMarker ++ " " ++ f.path) = true := isMarker_of_markerPath? hpath
  have hheader : f.packed.header =
      [separatorLine] ++ (fileMarker ++ " " ++ f.path) :: separatorLine :: f.lines.takeWhile isSeparator := rfl
  have habove : f.packed.above = [separatorLine] := above_of_header (by simp [hseparator]) hmarker hheader
  refine ⟨⟨_, separatorLine :: f.lines.takeWhile isSeparator, ?_, hpath, ?_⟩, ?_, ?_⟩
  · rw [habove, hheader]
  · intro l hl
    rcases List.mem_cons.mp hl with rfl | hl
    · exact hseparator
    · exact eq_true_of_mem_takeWhile hl
  · intro l hl
    rcases List.mem_append.mp hl with hl | hl
    · exact markerless_withLineFeed h.markerless l ((List.dropWhile_suffix _).subset hl)
    · rw [List.mem_singleton.mp hl]
      decide
  · intro l hl
    rw [packed, List.head?_append] at hl
    rcases Option.or_eq_some_iff.mp hl with hl | ⟨-, hl⟩
    · exact eq_false_of_head_dropWhile f.lines l hl
    · obtain rfl : [] = l := by simpa using hl
      decide

/-- The empty line behind a content keeps its last separators from the next marker. -/
theorem packed_precedes (f g : SourceFile) : f.packed.Precedes g.packed where
  body_end := by
    intro l hl
    obtain rfl : [] = l := by simpa [packed] using hl
    decide
  above_nil := by simp [packed]

end SourceFile

theorem partition_pack {files : List SourceFile} (h : ∀ f ∈ files, f.Packable) :
    Partition (pack files).lines [] (files.map SourceFile.packed) where
  lines_eq := by
    induction files with
    | nil => rfl
    | cons f files ih =>
      have hrest := ih fun g hg => h g (List.mem_cons_of_mem _ hg)
      rw [List.nil_append] at hrest ⊢
      rw [pack, List.flatMap_cons, ← pack, (h f List.mem_cons_self).lines_entry, hrest, List.map_cons, List.flatMap_cons]
  preamble_markerless := by simp
  preamble_end := by simp
  framed := by
    intro s hs
    obtain ⟨f, hf, rfl⟩ := List.mem_map.mp hs
    exact (h f hf).framed
  adjacent := by
    rw [List.isChain_map]
    exact (List.pairwise_of_forall SourceFile.packed_precedes).isChain

/-- Files come back one by one from the archive they are packed in.  The header of a section is what the packer writes
above the content and the separators that the content starts with; the body is the rest of the content and an empty
line. -/
theorem split_pack {files : List SourceFile} (h : ∀ f ∈ files, f.Packable) :
    split (pack files) = files.map fun f =>
      ⟨f.path, f.header ++ f.lines.takeWhile isSeparator, f.lines.dropWhile isSeparator ++ [[]]⟩ :=
  (partition_pack h).eq_sectionsOf.symm

/-- Files with a separator at the start, with no line feed at the end, with carriage returns, and without content. -/
def bannered : List SourceFile :=
  [⟨"src/a.ts", "// ====\n\nconst a = 1;"⟩, ⟨"b.ts", ""⟩, ⟨"my file.tsx", "let b\r\n// ====\n"⟩]

theorem split_pack_bannered : (∀ f ∈ bannered, f.Packable) ∧
    (split (pack bannered)).map (·.code) =
      ["\nconst a = 1;\n".toList, "\n".toList, "let b\n// ====\n".toList] := by
  have hpackable : ∀ f ∈ bannered, f.Packable := by
    intro f hf
    rw [bannered, List.mem_cons, List.mem_cons, List.mem_singleton] at hf
    rcases hf with rfl | rfl | rfl
    all_goals exact ⟨by decide, by decide, by decide⟩
  refine ⟨hpackable, ?_⟩
  rw [split_pack hpackable]
  decide

/-- A separator at the start of a content is not in the body of its section. -/
theorem split_pack_drops_banner : ¬ ∀ files : List SourceFile,
    (∀ f ∈ files, '\n' ∉ f.path ∧ '\r' ∉ f.path ∧ '\\' ∉ f.path ∧ f.path.trim = f.path ∧
      ∀ l ∈ Text.lines f.content, isMarker l = false) →
    (split (pack files)).map (fun s => (s.path, s.body)) = files.map fun f => (f.path, f.lines ++ [[]]) := by
  intro h
  have hbody := h [⟨"a.ts", "// ====\nconst a = 1;\n"⟩] (by decide)
  revert hbody
  decide

end SourceArchive
