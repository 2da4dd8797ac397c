import SourceArchive.Proofs.Consistency
import SourceArchive.Proofs.RoundTrip

/-!
# The check of dependency trees on annotated archives

The check looks up each item of a tree in the body as it was read, with a rule for words that is not the one the items
were found by.  If the archive is ASCII and bound names are identifiers, an item stands in a line of the body between
characters that the check takes for no part of it, so it is found (`Reviewer.review_finds_items`), however many hints
are put between the lines.
-/

namespace SourceArchive

open Text Pattern Layout AnnotatedSection Evidenced

/-! ## Items -/

/-- An item that the check finds in `code`: it has no blank and no comma, and what stands next to it is no part of it. -/
structure Evident (x code : Text) : Prop where
  ne_nil : x ≠ []
  plain : ∀ c ∈ x, isBlank c = false ∧ c ≠ ','
  delimited : Delimited (fun c => inWord c = false ∧ c ∉ x) x code

/-- A text of characters of some kind, with none of that kind beside it. -/
theorem evident_of_kind {kind : Char → Bool} (hblank : ∀ c, isBlank c = true → kind c = false) (hcomma : kind ',' = false)
    {x code : Text} (hne : x ≠ []) (hx : ∀ c ∈ x, kind c = true)
    (h : Delimited (fun c => inWord c = false ∧ kind c = false) x code) : Evident x code := by
  have hno {c : Char} (hc : kind c = false) : c ∉ x := by
    intro hm
    rw [hx c hm] at hc
    contradiction
  refine ⟨hne, fun c hc => ⟨?_, ?_⟩, h.imp fun c _ hd => ⟨hd.1, hno hd.2⟩⟩
  · rw [Bool.eq_false_iff]
    exact fun hb => hno (hblank c hb) hc
  · rintro rfl
    exact hno hcomma hc

theorem evident_of_isIdentifier {x code : Text} (hx : x.isIdentifier = true) (h : Delimited Imports.Beside x code) :
    Evident x code := by
  refine evident_of_kind (fun _ => isIdentifierChar_of_isBlank) (by decide +kernel) ?_ (isIdentifierChar_of_mem hx)
    (h.imp fun c _ hc => ?_)
  · rintro rfl
    contradiction
  · have hbeside : isIdentifierChar c = false := hc.isIdentifierChar_eq_false (by decide +kernel)
    exact ⟨inWord_of_isIdentifierChar hbeside, hbeside⟩

theorem evident_of_mem_calledHooks {builtin : List Text} {code x : Text} (hascii : code.Ascii)
    (h : x ∈ DependencyTree.calledHooks builtin code) : Evident x code := by
  obtain ⟨hne, hword, hdelimited⟩ := DependencyTree.spec_of_mem_calledHooks h
  refine evident_of_kind (fun _ => isWordChar_of_isBlank) (by decide) hne hword (hdelimited.imp fun c hm hc => ?_)
  rw [inWord_eq_isWordChar (hascii c hm)]
  exact ⟨hc, hc⟩

namespace Evident

variable {x code : Text}

theorem no_lineEnd (h : Evident x code) : '\n' ∉ x ∧ '\r' ∉ x :=
  ⟨fun hm => absurd (h.plain _ hm).1 (by decide), fun hm => absurd (h.plain _ hm).1 (by decide)⟩

theorem trim_eq (h : Evident x code) : x.trim = x := trim_eq_of_inked fun c hc => (h.plain c hc).1

/-- The check finds the item in any text that has the lines of the code. -/
theorem hasWord {body lines : List Text} (h : Evident x (joinLines body))
    (hlines : ∀ l ∈ body, dropReturn l ∈ lines) : hasWord (joinLines lines) x = true := by
  obtain ⟨hfeed, hreturn⟩ := h.no_lineEnd
  obtain ⟨l, hl, hdelimited⟩ := h.delimited.exists_line hfeed h.ne_nil
  refine hasWord_of_delimited h.ne_nil ((hdelimited.dropReturn hreturn h.ne_nil).trans ?_)
  refine (delimited_of_mem_joinLines (hlines l hl)).imp ?_
  rintro c - rfl
  exact ⟨by decide +kernel, hfeed⟩

end Evident

/-! ## Sections -/

theorem Text.Ascii.of_subset {t u : Text} (h : u.Ascii) (hsub : t ⊆ u) : t.Ascii := fun c hc => h c (hsub hc)

theorem ascii_of_mem_split {archive : Text} {s : Section} (h : archive.Ascii) (hs : s ∈ split archive) :
    s.path.Ascii ∧ s.code.Ascii := by
  obtain ⟨c, hc, hpath, hbody⟩ := exists_chunk_of_mem_sectionsOf hs
  obtain ⟨hmarker, hlines⟩ := Chunk.mem_of_mem_cut hc
  have hp : markerPath? c.marker = some s.path := by
    rw [hpath, (Chunk.proper_of_mem_cut c hc).markerPath?_marker]
  have hline {l : Text} (hl : l ∈ archive.lines) : l.Ascii := h.of_subset (infix_of_mem_lines hl).subset
  refine ⟨(hline hmarker).of_subset (infix_of_markerPath? hp).subset, ?_⟩
  intro c hc
  by_contra hlarge
  have hfeed : c ∉ ['\n'] := by
    rw [List.mem_singleton]
    rintro rfl
    exact hlarge (by decide)
  exact not_mem_join hfeed (fun l hl hm => hlarge (hline (hlines l (hbody l hl)) c hm)) hc

namespace DependencyTree

theorem ascii_displayName {path code : Text} (hpath : path.Ascii) (hcode : code.Ascii) :
    (displayName path code).Ascii := by
  unfold displayName
  split
  · rename_i m hm
    exact hcode.of_subset ((isMatch_of_firstIn hm).group_isInfix 1).subset
  · exact hpath.of_subset ((stripSourceSuffix_isPrefix _).isInfix.trans (lastPiece_isInfix '/' path)).subset

theorem evident_of_mem_items {s : AnalysisSettings} {path code x : Text} (hcode : code.Ascii)
    (hnames : ∀ b ∈ Imports.bindingsIn s.ignoredDefaultImports code, b.name.isIdentifier = true)
    (h : x ∈ (DependencyTree.of s path code (Imports.bindingsIn s.ignoredDefaultImports code)).items) :
    Evident x code := by
  rcases mem_items_of.mp h with h | h
  · obtain ⟨b, hb, rfl⟩ := exists_of_mem_listed h
    exact evident_of_isIdentifier (hnames b hb) (Imports.delimited_of_mem_bindingsIn hb)
  · exact evident_of_mem_calledHooks hcode h

end DependencyTree

namespace Classifier

/-- What a section has to be for the names that its tree lists to be found again: bound names are identifiers, its header
is written on the lines it is meant to have, and its own lines state no metadata. -/
structure Traceable (c : Classifier) (s : Section) : Prop where
  names : ∀ b ∈ Imports.bindingsIn c.settings.ignoredDefaultImports s.code, b.name.isIdentifier = true
  captures : c.CapturesUnbroken s
  name_no_marker : ¬ "FILE:".toList <+: (c.analyze s).tree.name
  stateless : ∀ l ∈ s.body, statesMetadata l.trim = false

variable (c : Classifier) {archive : Text}

/-- The reader of an annotated archive reads the items that were written, and each stands in the code that it reads. -/
theorem items_of_mem_allIn (hascii : archive.Ascii) (h : ∀ s ∈ split archive, c.Traceable s) {a : AnnotatedSection}
    (ha : a ∈ allIn (c.enhance archive).text) : ∃ s ∈ split archive, a.treeItems = (c.analyze s).tree.items ∧
      ∀ x ∈ a.treeItems, hasWord a.code x = true := by
  have havoids : ∀ s ∈ split archive, (c.analyze s).Avoids '\n' :=
    fun s hs => (avoids_analyze_iff (wellFormed_of_mem_split hs)).mpr (h s hs).captures
  have hbounded : ∀ s ∈ split archive, (c.analyze s).Bounded := by
    intro s hs
    have hwell := wellFormed_of_mem_split hs
    exact (havoids s hs).bounded hwell.trim_path hwell.body_markerless (h s hs).name_no_marker
  obtain ⟨s, hs, trail, htrail, rfl⟩ := c.exists_of_mem_allIn hbounded ha
  have hstateless : ∀ l ∈ trail, statesMetadata l.trim = false := by
    rcases htrail with rfl | rfl
    · simp
    · decide
  obtain ⟨hmeta, hbody⟩ := (havoids s hs).ofChunk_below (h s hs).stateless (dropReturn (c.analyze s).marker) hstateless
  obtain ⟨hpath, hcode⟩ := ascii_of_mem_split hascii hs
  have hevident : ∀ x ∈ (c.analyze s).tree.items, Evident x s.code :=
    fun x hx => DependencyTree.evident_of_mem_items hcode (h s hs).names hx
  -- a name without the characters of connectors is taken for no item
  have hname {connector : Text} (hc : ∃ e ∈ connector, 128 ≤ e.toNat) :
      ¬ connector <+: (c.analyze s).tree.name.trimStart := by
    intro hp
    obtain ⟨e, he, hlarge⟩ := hc
    have hmem : e ∈ (c.analyze s).tree.name := (List.dropWhile_suffix _).subset (hp.subset he)
    exact absurd (DependencyTree.ascii_displayName hpath hcode e hmem) (by omega)
  have hitems := AnalyzedSection.treeItems_of_metaLines hmeta (hname ⟨'├', by decide⟩) (hname ⟨'└', by decide⟩)
    fun x hx => ⟨(hevident x hx).ne_nil, (hevident x hx).trim_eq, fun hm => ((hevident x hx).plain _ hm).2 rfl⟩
  refine ⟨s, hs, hitems, fun x hx => ?_⟩
  rw [AnnotatedSection.code, hbody]
  rw [hitems] at hx
  refine (hevident x hx).hasWord fun l hl => ?_
  have hinserted : l ∈ Hint.insert (c.analyze s).metadata.state s.body := Hint.subset_insert _ _ hl
  exact List.mem_append_right _ (List.mem_append_left _ (List.mem_map_of_mem hinserted))

end Classifier

theorem AnnotatedSection.checkTree_eq_nil {a : AnnotatedSection} {settings : CheckSettings}
    (h : ∀ x ∈ a.treeItems, hasWord a.code x = true) : a.checkTree settings = [] := by
  have hfound : a.phantoms = [] := List.filter_eq_nil_iff.mpr fun x hx => by simp [h x hx]
  simp [checkTree, hfound]

namespace Reviewer

/-- A review of an annotated archive finds every item of every tree in the code, and no fault with the trees. -/
theorem review_finds_items (r : Reviewer) (c : Classifier) (archive title : Text) (plain : Option Text)
    (hascii : archive.Ascii) (h : ∀ s ∈ split archive, c.Traceable s) :
    (∀ a ∈ allIn (c.enhance archive).text, ∃ s ∈ split archive, a.treeItems = (c.analyze s).tree.items ∧
        ∀ x ∈ a.treeItems, hasWord a.code x = true) ∧
      ∀ f ∈ (r.review (c.enhance archive).text plain title).findings, f.category ≠ .deps := by
  refine ⟨fun a ha => c.items_of_mem_allIn hascii h ha, fun f hf hdeps => ?_⟩
  have hcheck (a : AnnotatedSection) : (.deps, a.checkTree r.settings) ∈ a.parts r.settings := by simp [parts]
  have hfound := ofCategory_review_of_check r (c.enhance archive).text plain title (by decide) hcheck
  have hnone : (allIn (c.enhance archive).text).flatMap (·.checkTree r.settings) = [] := by
    rw [List.flatMap_eq_nil_iff]
    intro a ha
    obtain ⟨-, -, -, hitems⟩ := c.items_of_mem_allIn hascii h ha
    exact checkTree_eq_nil hitems
  rw [hnone] at hfound
  exact List.eq_nil_iff_forall_not_mem.mp hfound f (List.mem_filter.mpr ⟨hf, decide_eq_true hdeps⟩)

/-- An archive with a bound default, a bound name and an alias, and a call of a hook in a line that takes a hint. -/
def tracedNames : Text := Text.endLines [
  "// FILE: src/Panel.tsx",
  "import Base, \x7b useThing as useOther, Button \x7d from './lib';\r",
  "import axios from 'axios';",
  "function Panel() \x7b",
  "  const [open, setOpen] = useState(useQuery (0));"]

theorem review_finds_items_tracedNames : ∃ (r : Reviewer) (c : Classifier), r.settings = {} ∧ c.settings = {} ∧
    (∀ a ∈ allIn (c.enhance tracedNames).text,
      ∀ x ∈ ["Base".toList, "useOther".toList, "Button".toList, "axios".toList, "useQuery".toList],
        x ∈ a.treeItems ∧ hasWord a.code x = true) ∧
    ∀ f ∈ (r.review (c.enhance tracedNames).text none "t").findings, f.category ≠ .deps := by
  obtain ⟨r, hr⟩ := exists_default_reviewer
  obtain ⟨c, hc⟩ := exists_default_classifier
  let settings : AnalysisSettings := {}
  have hfacts : ∀ s ∈ split tracedNames,
      DependencyTree.listed settings.maxTreeLibs (Imports.bindingsIn settings.ignoredDefaultImports s.code) =
          ["Base".toList, "useOther".toList, "Button".toList, "axios".toList] ∧
        DependencyTree.calledHooks settings.builtinHooks s.code = ["useQuery".toList] ∧
        (∀ b ∈ Imports.bindingsIn settings.ignoredDefaultImports s.code, b.name.isIdentifier = true) ∧
        Endpoint.allIn settings.knownApiHost settings.placeholder s.code = [] ∧
        (∀ x ∈ Imports.modulesIn s.code, '\n' ∉ x) ∧
        (¬ "FILE:".toList <+: DependencyTree.displayName s.path s.code) ∧
        ∀ l ∈ s.body, statesMetadata l.trim = false := by decide +kernel
  have htraceable : ∀ s ∈ split tracedNames, c.Traceable s := by
    intro s hs
    obtain ⟨-, -, hnames, hendpoints, hmodules, hname, hstateless⟩ := hfacts s hs
    have hbound : ∀ b ∈ Imports.bindingsIn c.settings.ignoredDefaultImports s.code, b.name.isIdentifier = true := by
      rwa [hc]
    have hcaptures : c.CapturesUnbroken s :=
      { endpoints := by
          rw [hc, hendpoints]
          exact List.forall_mem_nil _
        modules := hmodules
        bindings := fun x hx => by
          obtain ⟨b, hb, rfl⟩ := DependencyTree.exists_of_mem_listed hx
          exact not_mem_of_isIdentifier (hbound b hb) }
    exact ⟨hbound, hcaptures, hname, hstateless⟩
  obtain ⟨hitems, hdeps⟩ := r.review_finds_items c tracedNames "t" none (by decide +kernel) htraceable
  refine ⟨r, c, hr, hc, fun a ha x hx => ?_, hdeps⟩
  obtain ⟨s, hs, htree, hfound⟩ := hitems a ha
  obtain ⟨hlisted, hcalled, -⟩ := hfacts s hs
  have hitem : x ∈ a.treeItems := by
    have hread : x ∈ DependencyTree.listed c.settings.maxTreeLibs
        (Imports.bindingsIn c.settings.ignoredDefaultImports s.code) ∨
          x ∈ DependencyTree.calledHooks c.settings.builtinHooks s.code := by
      rw [hc, hlisted, hcalled, ← List.mem_append]
      exact hx
    rw [htree]
    exact DependencyTree.mem_items_of.mpr hread
  exact ⟨hitem, hfound x hitem⟩

end Reviewer

end SourceArchive
