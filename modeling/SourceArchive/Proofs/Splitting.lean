import SourceArchive.Proofs.Reader
import Mathlib.Data.List.Chain

/-!
# Every line of an archive has one place

Splitting an archive leaves no line out and puts none in two places: behind a preamble, the headers and bodies of the
sections are the lines of the archive.  Which separators belong to a header is settled by what stands next to
them, and `Partition` says it without the splitter: only one cut of the lines has this form
(`Partition.eq_sectionsOf`).  The reader of annotated archives keeps the separators above a marker in the body before it,
which is all that tells the two readers of a plain archive apart (`getElem?_sectionsOf`).
-/

namespace SourceArchive

open Layout

/-! ## Markers and separators -/

theorem Layout.isSeparator_of_isMarker {l : Text} (h : isMarker l = true) : isSeparator l = false := by
  rw [Bool.eq_false_iff]
  intro hs
  rw [isMarker, Text.startsWith_iff] at h
  rw [isSeparator, Text.startsWith_iff] at hs
  rcases Text.prefix_total h hs with hp | hp
  · exact absurd hp (by decide)
  · exact absurd hp (by decide)

theorem Layout.isMarker_of_isSeparator {l : Text} (h : isSeparator l = true) : isMarker l = false := by
  rw [Bool.eq_false_iff]
  intro hm
  rw [isSeparator_of_isMarker hm] at h
  contradiction

/-! ## Ends of lists -/

section Ends

variable {α : Type} {p : α → Bool} {l t : List α}

theorem dropWhile_of_head (h : ∀ x ∈ l.head?, p x = false) : l.dropWhile p = l := by
  cases l with
  | nil => rfl
  | cons x l => rw [List.dropWhile_cons_of_neg (by simp [h x rfl])]

theorem takeWhile_of_head (h : ∀ x ∈ l.head?, p x = false) : l.takeWhile p = [] := by
  cases l with
  | nil => rfl
  | cons x l => rw [List.takeWhile_cons_of_neg (by simp [h x rfl])]

theorem eq_false_of_head_dropWhile (l : List α) : ∀ x ∈ (l.dropWhile p).head?, p x = false := by
  intro x hx
  have h := List.head?_dropWhile_not p l
  rw [Option.mem_def.mp hx] at h
  simpa using h

/-- Members that satisfy `p` behind a list that ends otherwise are just the trailing ones. -/
theorem trailing_append (hl : ∀ x ∈ l.getLast?, p x = false) (ht : ∀ x ∈ t, p x = true) :
    dropTrailing p (l ++ t) = l ∧ takeTrailing p (l ++ t) = t := by
  have hhead : ∀ x ∈ l.reverse.head?, p x = false := by simpa using hl
  have hrev : ∀ x ∈ t.reverse, p x = true := by simpa using ht
  constructor
  · rw [dropTrailing, List.reverse_append, List.dropWhile_append_of_pos hrev, dropWhile_of_head hhead,
      List.reverse_reverse]
  · rw [takeTrailing, List.reverse_append, List.takeWhile_append_of_pos hrev, takeWhile_of_head hhead,
      List.append_nil, List.reverse_reverse]

theorem eq_false_of_getLast_dropTrailing (l : List α) : ∀ x ∈ (dropTrailing p l).getLast?, p x = false := by
  rw [dropTrailing, List.getLast?_reverse]
  exact eq_false_of_head_dropWhile l.reverse

theorem eq_true_of_mem_takeWhile {x : α} (h : x ∈ l.takeWhile p) : p x = true :=
  List.all_eq_true.mp List.all_takeWhile x h

theorem eq_true_of_mem_takeTrailing {x : α} (h : x ∈ takeTrailing p l) : p x = true := by
  rw [takeTrailing, List.mem_reverse] at h
  exact eq_true_of_mem_takeWhile h

theorem dropTrailing_isPrefix (p : α → Bool) (l : List α) : dropTrailing p l <+: l :=
  ⟨_, dropTrailing_append_takeTrailing p l⟩

/-- A list that does not begin with members that satisfy `p` is not made of such members alone. -/
theorem takeTrailing_eq_nil (hl : ∀ x ∈ l.head?, p x = false) (h : dropTrailing p l = []) :
    takeTrailing p l = [] := by
  have happ := dropTrailing_append_takeTrailing p l
  rw [h, List.nil_append] at happ
  rw [happ]
  cases l with
  | nil => rfl
  | cons x l =>
    have hx : p x = true := eq_true_of_mem_takeTrailing (by rw [happ]; exact List.mem_cons_self)
    rw [hl x rfl] at hx
    contradiction

end Ends

/-! ## Partitions -/

namespace Section

/-- The lines of a section. -/
def lines (s : Section) : List Text := s.header ++ s.body

/-- The separators above the marker. -/
def above (s : Section) : List Text := s.header.takeWhile isSeparator

/-- The header is a marker with the path of the section, between separators; the body is none of these. -/
structure Framed (s : Section) : Prop where
  header : ∃ marker below, s.header = s.above ++ marker :: below ∧ markerPath? marker = some s.path ∧
    ∀ l ∈ below, isSeparator l = true
  body_markerless : ∀ l ∈ s.body, isMarker l = false
  body_start : ∀ l ∈ s.body.head?, isSeparator l = false

/-- Separators between two sections belong to the second, but to the first if it has no body. -/
structure Precedes (s t : Section) : Prop where
  body_end : ∀ l ∈ s.body.getLast?, isSeparator l = false
  above_nil : s.body = [] → t.above = []

end Section

/-- The lines are those of a preamble and of sections, each in its place. -/
structure Partition (ls preamble : List Text) (ss : List Section) : Prop where
  lines_eq : ls = preamble ++ ss.flatMap Section.lines
  preamble_markerless : ∀ l ∈ preamble, isMarker l = false
  preamble_end : ss ≠ [] → ∀ l ∈ preamble.getLast?, isSeparator l = false
  framed : ∀ s ∈ ss, s.Framed
  adjacent : ss.IsChain Section.Precedes

/-- The separators above the first marker. -/
def leading (ss : List Section) : List Text := (ss.head?.map Section.above).getD []

theorem separator_of_mem_leading {ss : List Section} {l : Text} (h : l ∈ leading ss) : isSeparator l = true := by
  cases ss with
  | nil => simp [leading] at h
  | cons s ss => exact eq_true_of_mem_takeWhile h

/-! ## The sections of chunks -/

section Chunks

variable {lead : List Text} {chunks : List Chunk}

theorem above_of_header {s : Section} {marker : Text} {below : List Text} (hl : ∀ l ∈ lead, isSeparator l = true)
    (hm : isMarker marker = true) (h : s.header = lead ++ marker :: below) : s.above = lead := by
  have hn : isSeparator marker = false := isSeparator_of_isMarker hm
  rw [Section.above, h, List.takeWhile_append_of_pos hl, List.takeWhile_cons_of_neg (by simp [hn]), List.append_nil]

theorem head?_sectionsOf (lead : List Text) (c : Chunk) (rest : List Chunk) : ∃ body, (sectionsOf lead (c :: rest)).head? =
    some ⟨c.path, lead ++ c.marker :: c.lines.takeWhile isSeparator, body⟩ := by
  rw [sectionsOf]
  split
  · exact ⟨_, rfl⟩
  · exact ⟨_, rfl⟩

theorem leading_sectionsOf (hl : ∀ l ∈ lead, isSeparator l = true) (hc : ∀ c ∈ chunks, c.Proper) (hne : chunks ≠ []) :
    leading (sectionsOf lead chunks) = lead := by
  obtain ⟨c, rest, rfl⟩ := List.exists_cons_of_ne_nil hne
  obtain ⟨body, hhead⟩ := head?_sectionsOf lead c rest
  rw [leading, hhead, Option.map_some, Option.getD_some]
  exact above_of_header hl (hc c List.mem_cons_self).marked rfl

/-- No line of the chunks is lost, and no line above the first marker. -/
theorem flatMap_lines_sectionsOf (hne : chunks ≠ []) :
    (sectionsOf lead chunks).flatMap Section.lines = lead ++ chunks.flatMap fun c => c.marker :: c.lines := by
  fun_induction sectionsOf lead chunks with
  | case1 => contradiction
  | case2 lead c rest header body hrest =>
    have hc : c.lines = c.lines.takeWhile isSeparator ++ body := List.takeWhile_append_dropWhile.symm
    obtain rfl := List.isEmpty_iff.mp hrest
    simp only [List.flatMap_singleton, Section.lines, header]
    conv_rhs => rw [hc]
    simp
  | case3 lead c rest header body hrest ih =>
    have hc : c.lines = c.lines.takeWhile isSeparator ++ (dropTrailing isSeparator body ++ takeTrailing isSeparator body) := by
      rw [dropTrailing_append_takeTrailing]
      exact List.takeWhile_append_dropWhile.symm
    have hlines := ih (by simpa using hrest)
    rw [List.flatMap_cons, hlines, List.flatMap_cons]
    conv_rhs => rw [hc]
    simp [Section.lines, header]

theorem framed_of_mem_sectionsOf (hl : ∀ l ∈ lead, isSeparator l = true) (hc : ∀ c ∈ chunks, c.Proper) :
    ∀ s ∈ sectionsOf lead chunks, s.Framed := by
  have hframed {lead : List Text} {c : Chunk} (hl : ∀ l ∈ lead, isSeparator l = true) (hp : c.Proper) {body : List Text}
      (hb : body <+: c.lines.dropWhile isSeparator) :
      Section.Framed ⟨c.path, lead ++ c.marker :: c.lines.takeWhile isSeparator, body⟩ := by
    refine ⟨⟨c.marker, c.lines.takeWhile isSeparator, ?_, ?_, fun l hm => eq_true_of_mem_takeWhile hm⟩, ?_, ?_⟩
    · rw [above_of_header hl hp.marked rfl]
    · exact hp.markerPath?_marker
    · exact fun l hm => hp.markerless l ((List.dropWhile_suffix _).subset (hb.subset hm))
    · intro l hm
      obtain ⟨r, rfl⟩ := List.head?_eq_some_iff.mp hm
      obtain ⟨rest, hrest⟩ := hb
      exact eq_false_of_head_dropWhile c.lines l (by rw [← hrest]; rfl)
  fun_induction sectionsOf lead chunks with
  | case1 => simp
  | case2 lead c rest header body hrest =>
    intro s hs
    obtain rfl := List.mem_singleton.mp hs
    exact hframed hl (hc c List.mem_cons_self) (List.prefix_refl _)
  | case3 lead c rest header body hrest ih =>
    intro s hs
    rcases List.mem_cons.mp hs with rfl | hs
    · exact hframed hl (hc c List.mem_cons_self) (dropTrailing_isPrefix _ _)
    · exact ih (fun l hm => eq_true_of_mem_takeTrailing hm) (fun x hx => hc x (List.mem_cons_of_mem _ hx)) s hs

theorem isChain_sectionsOf (hc : ∀ c ∈ chunks, c.Proper) : (sectionsOf lead chunks).IsChain Section.Precedes := by
  fun_induction sectionsOf lead chunks with
  | case1 => exact .nil
  | case2 => exact .singleton _
  | case3 lead c rest header body hrest ih =>
    have hproper : ∀ x ∈ rest, x.Proper := fun x hx => hc x (List.mem_cons_of_mem _ hx)
    have hlead : ∀ l ∈ takeTrailing isSeparator body, isSeparator l = true := fun l hm => eq_true_of_mem_takeTrailing hm
    rw [List.isChain_cons]
    refine ⟨fun t ht => ⟨eq_false_of_getLast_dropTrailing body, fun hnil => ?_⟩, ih hproper⟩
    -- a section without a body has left no separators for the next one
    have habove : t.above = leading (sectionsOf (takeTrailing isSeparator body) rest) := by
      rw [leading, Option.mem_def.mp ht]
      rfl
    rw [habove, leading_sectionsOf hlead hproper (by simpa using hrest)]
    exact takeTrailing_eq_nil (eq_false_of_head_dropWhile c.lines) hnil

end Chunks

/-! ## Splitting is the only partition -/

theorem sectionsOf_eq_nil_iff {lead : List Text} {chunks : List Chunk} : sectionsOf lead chunks = [] ↔ chunks = [] := by
  rw [← List.map_eq_nil_iff (f := Section.path), map_path_sectionsOf, List.map_eq_nil_iff]

section Step

variable {s : Section} {rest : List Section}

/-- The separators above the next marker are told from those below this one by the body between them. -/
theorem head_body_leading (hs : s.Framed) (hnext : ∀ t ∈ rest.head?, s.Precedes t) :
    ∀ l ∈ (s.body ++ leading rest).head?, isSeparator l = false := by
  by_cases hnil : s.body = []
  · have hlead : leading rest = [] := by
      cases rest with
      | nil => rfl
      | cons t rest => exact (hnext t rfl).above_nil hnil
    simp [hnil, hlead]
  · rw [List.head?_append_of_ne_nil _ hnil]
    exact hs.body_start

/-- The chunk of a section, read before the chunks of those behind it. -/
theorem sectionsOf_cons {chunks : List Chunk} {marker : Text} {below : List Text} (hs : s.Framed)
    (hnext : ∀ t ∈ rest.head?, s.Precedes t) (hheader : s.header = s.above ++ marker :: below)
    (hpath : markerPath? marker = some s.path) (hbelow : ∀ l ∈ below, isSeparator l = true)
    (hsections : sectionsOf (leading rest) chunks = rest) :
    sectionsOf s.above (⟨marker, below ++ (s.body ++ leading rest)⟩ :: chunks) = s :: rest := by
  have hbody := head_body_leading hs hnext
  have htake : (below ++ (s.body ++ leading rest)).takeWhile isSeparator = below := by
    rw [List.takeWhile_append_of_pos hbelow, takeWhile_of_head hbody, List.append_nil]
  have hdrop : (below ++ (s.body ++ leading rest)).dropWhile isSeparator = s.body ++ leading rest := by
    rw [List.dropWhile_append_of_pos hbelow, dropWhile_of_head hbody]
  have hchunk : Chunk.path ⟨marker, below ++ (s.body ++ leading rest)⟩ = s.path := by
    rw [Chunk.path, hpath, Option.getD_some]
  have hsection : s = ⟨s.path, s.above ++ marker :: below, s.body⟩ := by rw [← hheader]
  rw [sectionsOf, hchunk]
  simp only [htake, hdrop]
  split
  · rename_i hnil
    obtain rfl : rest = [] := by
      rw [← hsections]
      exact sectionsOf_eq_nil_iff.mpr (List.isEmpty_iff.mp hnil)
    change [(⟨s.path, s.above ++ marker :: below, s.body ++ []⟩ : Section)] = [s]
    rw [List.append_nil, ← hheader]
  · rename_i hne
    have hrest : rest ≠ [] := by
      rw [← hsections]
      exact fun h => hne (List.isEmpty_iff.mpr (sectionsOf_eq_nil_iff.mp h))
    obtain ⟨t, rest, rfl⟩ := List.exists_cons_of_ne_nil hrest
    obtain ⟨hbefore, hbehind⟩ := trailing_append (hnext t rfl).body_end fun l hl => separator_of_mem_leading hl
    rw [hbefore, hbehind, hsections]
    exact congrArg (· :: t :: rest) hsection.symm

end Step

/-- Sections in their places are the sections of proper chunks. -/
theorem exists_chunks {ss : List Section} (hf : ∀ s ∈ ss, s.Framed) (hadj : ss.IsChain Section.Precedes) :
    ∃ chunks : List Chunk, (∀ c ∈ chunks, c.Proper) ∧ sectionsOf (leading ss) chunks = ss ∧
      ss.flatMap Section.lines = leading ss ++ chunks.flatMap fun c => c.marker :: c.lines := by
  induction ss with
  | nil => exact ⟨[], by simp, rfl, rfl⟩
  | cons s rest ih =>
    obtain ⟨hnext, hrest⟩ := List.isChain_cons.mp hadj
    obtain ⟨chunks, hproper, hsections, hlines⟩ := ih (fun x hx => hf x (List.mem_cons_of_mem _ hx)) hrest
    have hs : s.Framed := hf s List.mem_cons_self
    obtain ⟨marker, below, hheader, hpath, hbelow⟩ := hs.header
    have hmarked : isMarker marker = true := isMarker_of_markerPath? hpath
    have hmarkerless : ∀ l ∈ below ++ (s.body ++ leading rest), isMarker l = false := by
      intro l hl
      rcases List.mem_append.mp hl with hl | hl
      · exact isMarker_of_isSeparator (hbelow l hl)
      · rcases List.mem_append.mp hl with hl | hl
        · exact hs.body_markerless l hl
        · exact isMarker_of_isSeparator (separator_of_mem_leading hl)
    have hlead : leading (s :: rest) = s.above := rfl
    refine ⟨⟨marker, below ++ (s.body ++ leading rest)⟩ :: chunks, ?_, ?_, ?_⟩
    · intro c hc
      rcases List.mem_cons.mp hc with rfl | hc
      · exact ⟨hmarked, hmarkerless⟩
      · exact hproper c hc
    · exact sectionsOf_cons hs hnext hheader hpath hbelow hsections
    · rw [List.flatMap_cons, List.flatMap_cons, hlines, hlead, Section.lines, hheader]
      simp

/-- Lines that have a partition are split into its sections. -/
theorem Partition.eq_sectionsOf {ls preamble : List Text} {ss : List Section} (h : Partition ls preamble ss) :
    ss = sectionsOf (takeTrailing isSeparator (Chunk.cut ls).1) (Chunk.cut ls).2 := by
  obtain ⟨chunks, hproper, hsections, hlines⟩ := exists_chunks h.framed h.adjacent
  have hlead : ∀ l ∈ leading ss, isSeparator l = true := fun l hl => separator_of_mem_leading hl
  have hpreamble : ∀ l ∈ preamble ++ leading ss, isMarker l = false := by
    intro l hl
    rcases List.mem_append.mp hl with hl | hl
    · exact h.preamble_markerless l hl
    · exact isMarker_of_isSeparator (hlead l hl)
  have hcut : Chunk.cut ls = (preamble ++ leading ss, chunks) := by
    rw [h.lines_eq, hlines, ← List.append_assoc]
    exact Chunk.cut_uncut hpreamble hproper
  rw [hcut]
  cases ss with
  | nil =>
    obtain rfl : chunks = [] := sectionsOf_eq_nil_iff.mp hsections
    rfl
  | cons s rest => rw [(trailing_append (h.preamble_end (by simp)) hlead).2, hsections]

/-- The sections of an archive, and the lines above the first of them, are a partition of its lines. -/
theorem exists_partition_split (archive : Text) : ∃ preamble, Partition archive.lines preamble (split archive) := by
  have huncut := Chunk.uncut_cut archive.lines
  obtain ⟨hbefore, hproper⟩ := Chunk.markerless_and_proper_cut archive.lines
  rw [split]
  generalize Chunk.cut archive.lines = cut at huncut hbefore hproper ⊢
  obtain ⟨before, chunks⟩ := cut
  have hlead : ∀ l ∈ takeTrailing isSeparator before, isSeparator l = true := fun l hl => eq_true_of_mem_takeTrailing hl
  dsimp only at huncut hbefore hproper ⊢
  by_cases hne : chunks = []
  · subst hne
    exact ⟨before, by simpa [sectionsOf, Chunk.uncut] using huncut.symm, hbefore, by simp [sectionsOf],
      by simp [sectionsOf], .nil⟩
  · refine ⟨dropTrailing isSeparator before, ?_, fun l hl => hbefore l ((dropTrailing_isPrefix _ _).subset hl),
      fun _ => eq_false_of_getLast_dropTrailing before, framed_of_mem_sectionsOf hlead hproper,
      isChain_sectionsOf hproper⟩
    rw [flatMap_lines_sectionsOf hne, ← List.append_assoc, dropTrailing_append_takeTrailing]
    exact huncut.symm

/-- The lines of an archive are its preamble and its sections, each line in its place, and there is no other way to
put them. -/
theorem split_only_partition (archive : Text) : ∃ preamble, Partition archive.lines preamble (split archive) ∧
    ∀ (preamble' : List Text) (ss : List Section), Partition archive.lines preamble' ss →
      preamble' = preamble ∧ ss = split archive := by
  obtain ⟨preamble, hsplit⟩ := exists_partition_split archive
  refine ⟨preamble, hsplit, fun preamble' ss h => ?_⟩
  have hss : ss = split archive := h.eq_sectionsOf
  have hlines : preamble' ++ ss.flatMap Section.lines = preamble ++ ss.flatMap Section.lines := by
    rw [← h.lines_eq, hsplit.lines_eq, hss]
  exact ⟨List.append_cancel_right hlines, hss⟩

/-! ## The two readers of a plain archive -/

theorem AnnotatedSection.ofChunk_of_stateless {c : Chunk} (h : ∀ l ∈ c.lines, statesMetadata l.trim = false) :
    (ofChunk c).metaLines = [] ∧ (ofChunk c).body = c.lines.dropWhile isSeparator := by
  have hbody : ∀ l ∈ c.lines.dropWhile isSeparator, statesMetadata l.trim = false :=
    fun l hl => h l ((List.dropWhile_suffix _).subset hl)
  rw [ofChunk, sort_body hbody]
  exact ⟨rfl, rfl⟩

/-- What a chunk holds behind the separators below its marker is the body of its section and the separators above the
next marker. -/
theorem getElem?_sectionsOf (lead : List Text) {chunks : List Chunk} (hc : ∀ c ∈ chunks, c.Proper) {i : Nat} {c : Chunk}
    (hi : chunks[i]? = some c) : ∃ s, (sectionsOf lead chunks)[i]? = some s ∧
      c.lines.dropWhile isSeparator = s.body ++ ((sectionsOf lead chunks)[i + 1]?.map Section.above).getD [] := by
  induction chunks generalizing lead i with
  | nil => simp at hi
  | cons d rest ih =>
    have hproper : ∀ x ∈ rest, x.Proper := fun x hx => hc x (List.mem_cons_of_mem _ hx)
    rw [sectionsOf]
    split
    · rename_i hrest
      obtain rfl := List.isEmpty_iff.mp hrest
      cases i with
      | zero =>
        obtain rfl : d = c := by simpa using hi
        exact ⟨_, rfl, (List.append_nil _).symm⟩
      | succ i => simp at hi
    · rename_i hrest
      cases i with
      | zero =>
        obtain rfl : d = c := by simpa using hi
        refine ⟨_, rfl, ?_⟩
        have hlead : ∀ l ∈ takeTrailing isSeparator (d.lines.dropWhile isSeparator), isSeparator l = true :=
          fun l hl => eq_true_of_mem_takeTrailing hl
        have habove := leading_sectionsOf hlead hproper (by simpa using hrest)
        rw [List.getElem?_cons_succ, ← List.head?_eq_getElem?, ← leading, habove, dropTrailing_append_takeTrailing]
      | succ i => exact ih _ hproper hi

/-- All readers of an archive find the same paths.  Where no line states metadata, the reader of annotated archives
finds none, and it differs from the splitter only in that it leaves the separators above a marker in the body before
it. -/
theorem readers_agree (archive : Text) :
    (split archive).map (·.path) = markerPaths archive ∧
      (AnnotatedSection.allIn archive).map (·.path) = markerPaths archive ∧
      ((∀ l ∈ archive.lines, AnnotatedSection.statesMetadata l.trim = false) →
        ∀ (i : Nat) (a : AnnotatedSection), (AnnotatedSection.allIn archive)[i]? = some a →
          a.metaLines = [] ∧ ∃ s, (split archive)[i]? = some s ∧
            a.body = s.body ++ ((split archive)[i + 1]?.map Section.above).getD []) := by
  refine ⟨map_path_split archive, AnnotatedSection.map_path_allIn archive, fun hstates i a hi => ?_⟩
  rw [AnnotatedSection.allIn, List.getElem?_map, Option.map_eq_some_iff] at hi
  obtain ⟨c, hc, rfl⟩ := hi
  have hlines := (Chunk.mem_of_mem_cut (List.mem_of_getElem? hc)).2
  obtain ⟨hmeta, hbody⟩ := AnnotatedSection.ofChunk_of_stateless fun l hl => hstates l (hlines l hl)
  obtain ⟨s, hs, hchunk⟩ :=
    getElem?_sectionsOf (takeTrailing isSeparator (Chunk.cut archive.lines).1) Chunk.proper_of_mem_cut hc
  exact ⟨hmeta, s, hs, hbody.trans hchunk⟩

/-- A plain archive with separators around its markers. -/
def plainPair : Text := "// ====\n// FILE: a.ts\n// ====\nlet a;\n\n// ====\n// FILE: b.ts\nlet b;"

theorem readers_agree_plainPair : (∀ l ∈ plainPair.lines, AnnotatedSection.statesMetadata l.trim = false) ∧
    ∃ a s, (AnnotatedSection.allIn plainPair)[0]? = some a ∧ (split plainPair)[0]? = some s ∧
      a.metaLines = [] ∧ s.body = ["let a;".toList, []] ∧ a.body = s.body ++ ["// ====".toList] := by
  have hstates : ∀ l ∈ plainPair.lines, AnnotatedSection.statesMetadata l.trim = false := by decide +kernel
  obtain ⟨-, -, hread⟩ := readers_agree plainPair
  obtain ⟨a, ha⟩ : ∃ a, (AnnotatedSection.allIn plainPair)[0]? = some a :=
    Option.isSome_iff_exists.mp (by decide +kernel)
  obtain ⟨hmeta, s, hs, hbody⟩ := hread hstates 0 a ha
  have hplain : ((split plainPair)[0]?).map (·.body) = some ["let a;".toList, []] := by decide +kernel
  have habove : ((split plainPair)[1]?.map Section.above).getD [] = ["// ====".toList] := by decide +kernel
  rw [hs, Option.map_some, Option.some_inj] at hplain
  exact ⟨hstates, a, s, ha, hs, hmeta, hplain, by rw [hbody, habove]⟩

end SourceArchive
