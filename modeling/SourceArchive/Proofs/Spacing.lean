import SourceArchive.Proofs.Language
import SourceArchive.Text.Identifier

/-!
# Blanks in the texts of a language

Where the parts of a pattern have blanks at will between them, how many blanks stand there does not matter.  A language is
`Elastic` if a blank next to a blank can come and go; parts without blanks and gaps between them make elastic languages
(`spaced_cons_gap`).
-/

namespace SourceArchive

open Pattern Text

/-! ## Characters of words -/

/-- The code points of blank characters. -/
def blankCodes : List Nat :=
  [0x9, 0xa, 0xb, 0xc, 0xd, 0x20, 0x85, 0xa0, 0x1680, 0x2000, 0x2001, 0x2002, 0x2003, 0x2004, 0x2005, 0x2006, 0x2007,
    0x2008, 0x2009, 0x200a, 0x2028, 0x2029, 0x202f, 0x205f, 0x3000]

theorem mem_blankCodes {c : Char} (h : isBlank c = true) : c.toNat ∈ blankCodes := by
  simp only [isBlank, Bool.or_eq_true, Bool.and_eq_true, beq_iff_eq, decide_eq_true_eq] at h
  simp only [blankCodes, List.mem_cons, List.not_mem_nil, or_false]
  omega

theorem isWordChar_of_isBlank {c : Char} (h : isBlank c = true) : isWordChar c = false := by
  have hcodes : ∀ n ∈ blankCodes, isWordChar (Char.ofNat n) = false := by decide +kernel
  rw [← Char.ofNat_toNat c]
  exact hcodes _ (mem_blankCodes h)

theorem isIdentifierChar_of_isBlank {c : Char} (h : isBlank c = true) : isIdentifierChar c = false := by
  have hcodes : ∀ n ∈ blankCodes, isIdentifierChar (Char.ofNat n) = false := by decide +kernel
  rw [← Char.ofNat_toNat c]
  exact hcodes _ (mem_blankCodes h)

/-- All characters are ASCII. -/
def Text.Ascii (t : Text) : Prop := ∀ c ∈ t, c.toNat < 128

instance : DecidablePred Text.Ascii := fun t => List.decidableBAll _ t

theorem isIdentifierChar_of_mem {x : Text} (h : x.isIdentifier = true) : ∀ c ∈ x, isIdentifierChar c = true := by
  cases x with
  | nil => simp
  | cons c r =>
    obtain ⟨hc, hr⟩ : isIdentifierStart c = true ∧ ∀ e ∈ r, isIdentifierChar e = true := by
      simpa [isIdentifier] using h
    have hfirst : isIdentifierChar c = true := by
      simp only [isIdentifierStart, isIdentifierChar, isAlphanumeric, Bool.or_eq_true] at hc ⊢
      tauto
    exact List.forall_mem_cons.mpr ⟨hfirst, hr⟩

theorem not_mem_of_not_identifierChar {x : Text} {c : Char} (hc : isIdentifierChar c = false)
    (h : x.isIdentifier = true) : c ∉ x := by
  intro hm
  rw [isIdentifierChar_of_mem h c hm] at hc
  cases hc

theorem ne_nil_of_isIdentifier {x : Text} (h : x.isIdentifier = true) : x ≠ [] := by
  rintro rfl
  contradiction

/-- A blank, or one of some signs. -/
def BlankOr (signs : List Char) (c : Char) : Prop := isBlank c = true ∨ c ∈ signs

namespace BlankOr

variable {signs : List Char} {c : Char}

theorem isWordChar_eq_false (hsigns : signs.any isWordChar = false) (h : BlankOr signs c) : isWordChar c = false :=
  h.elim isWordChar_of_isBlank fun hc => Bool.eq_false_iff.mpr (List.any_eq_false.mp hsigns c hc)

theorem isIdentifierChar_eq_false (hsigns : signs.any isIdentifierChar = false) (h : BlankOr signs c) :
    isIdentifierChar c = false :=
  h.elim isIdentifierChar_of_isBlank fun hc => Bool.eq_false_iff.mpr (List.any_eq_false.mp hsigns c hc)

end BlankOr

theorem Text.trim_eq_of_inked {x : Text} (h : ∀ c ∈ x, isBlank c = false) : x.trim = x := by
  by_cases hne : x = []
  · rw [hne]
    rfl
  · exact trim_eq_self (startsInked_of_inked hne h) (endsInked_of_inked hne h)

/-! ## Languages with blanks -/

/-- A blank next to a blank can come and go. -/
def Elastic (l : Language Char) : Prop :=
  ∀ (u v : Text) (b c : Char), isBlank b = true → isBlank c = true → (u ++ b :: c :: v ∈ l ↔ u ++ c :: v ∈ l)

/-- No text is empty or holds a blank. -/
def Solid (l : Language Char) : Prop := ∀ w ∈ l, w ≠ [] ∧ ∀ x ∈ w, isBlank x = false

/-- No text begins with a blank. -/
structure Spaced (l : Language Char) : Prop where
  inked : ∀ w ∈ l, StartsInked w
  elastic : Elastic l

namespace Solid

variable {l : Language Char}

theorem startsInked (h : Solid l) : ∀ w ∈ l, StartsInked w := fun w hw => startsInked_of_inked (h w hw).1 (h w hw).2

theorem endsInked (h : Solid l) : ∀ w ∈ l, EndsInked w := fun w hw => endsInked_of_inked (h w hw).1 (h w hw).2

theorem elastic (h : Solid l) : Elastic l := by
  intro u v b c _ hc
  have hno {w : Text} (hw : c ∈ w) : w ∉ l := by
    intro hl
    rw [(h w hl).2 c hw] at hc
    contradiction
  exact iff_of_false (hno (by simp)) (hno (by simp))

end Solid

/-- The blanks that come or go do not stand where the two parts meet. -/
theorem Elastic.mul {l m : Language Char} (hl : Elastic l) (hm : Elastic m)
    (h : (∀ w ∈ l, EndsInked w) ∨ ∀ w ∈ m, StartsInked w) : Elastic (l * m) := by
  intro u v b c hb hc
  rw [Language.mem_mul, Language.mem_mul]
  constructor
  · rintro ⟨x, hx, y, hy, hxy⟩
    rcases List.append_eq_append_iff.mp hxy with ⟨z, rfl, rfl⟩ | ⟨z, rfl, hz⟩
    · exact ⟨x, hx, z ++ c :: v, (hm z v b c hb hc).mp hy, by simp⟩
    · rcases z with _ | ⟨d, _ | ⟨e, z⟩⟩
      · obtain rfl : b :: c :: v = y := hz
        exact ⟨u, by simpa using hx, c :: v, (hm [] v b c hb hc).mp hy, rfl⟩
      · -- the parts meet between the two blanks
        obtain ⟨rfl, rfl⟩ : b = d ∧ c :: v = y := by simpa using hz
        rcases h with h | h
        · obtain ⟨r, e, he, hinked⟩ := h _ hx
          obtain ⟨-, he⟩ := List.append_inj' he rfl
          rw [(List.cons.inj he).1, hinked] at hb
          contradiction
        · obtain ⟨e, r, he, hinked⟩ := h _ hy
          rw [(List.cons.inj he).1, hinked] at hc
          contradiction
      · obtain ⟨rfl, rfl, rfl⟩ : b = d ∧ c = e ∧ v = z ++ y := by simpa using hz
        exact ⟨u ++ c :: z, (hl u z b c hb hc).mp hx, y, hy, by simp⟩
  · rintro ⟨x, hx, y, hy, hxy⟩
    rcases List.append_eq_append_iff.mp hxy with ⟨z, rfl, rfl⟩ | ⟨z, rfl, hz⟩
    · exact ⟨x, hx, z ++ b :: c :: v, (hm z v b c hb hc).mpr hy, by simp⟩
    · rcases z with _ | ⟨d, z⟩
      · obtain rfl : c :: v = y := hz
        exact ⟨u, by simpa using hx, b :: c :: v, (hm [] v b c hb hc).mpr hy, rfl⟩
      · obtain ⟨rfl, rfl⟩ : c = d ∧ v = z ++ y := by simpa using hz
        exact ⟨u ++ b :: c :: z, (hl u z b c hb hc).mpr hx, y, hy, by simp⟩

theorem elastic_gap {g : Pattern} (h : g = blanks ∨ g = blanks1) : Elastic g.language := by
  intro u v b c hb hc
  have hblank : Blank (u ++ b :: c :: v) ↔ Blank (u ++ c :: v) := by
    simp [Blank, or_imp, forall_and, hb, hc]
  rcases h with rfl | rfl
  · rw [mem_language_blanks, mem_language_blanks, hblank]
  · rw [mem_language_blanks1, mem_language_blanks1, hblank]
    simp

theorem spaced_cons {p : Pattern} {ps : List Pattern} (hp : Solid p.language)
    (h : Spaced (sequence ps).language) : Spaced (sequence (p :: ps)).language where
  inked := by
    intro w hw
    rw [language_sequence_cons] at hw
    obtain ⟨x, hx, y, -, rfl⟩ := Language.mem_mul.mp hw
    exact (hp.startsInked x hx).append y
  elastic := by
    rw [language_sequence_cons]
    exact hp.elastic.mul h.elastic (Or.inl hp.endsInked)

theorem spaced_cons_gap {p g : Pattern} {ps : List Pattern} (hp : Solid p.language) (hg : g = blanks ∨ g = blanks1)
    (h : Spaced (sequence ps).language) : Spaced (sequence (p :: g :: ps)).language where
  inked := by
    intro w hw
    rw [language_sequence_cons] at hw
    obtain ⟨x, hx, y, -, rfl⟩ := Language.mem_mul.mp hw
    exact (hp.startsInked x hx).append y
  elastic := by
    rw [language_sequence_cons, language_sequence_cons]
    exact hp.elastic.mul ((elastic_gap hg).mul h.elastic (Or.inr h.inked)) (Or.inl hp.endsInked)

theorem spaced_optional_cons {p : Pattern} {ps : List Pattern} (hp : Solid p.language)
    (h : Spaced (sequence ps).language) : Spaced (sequence (optional p :: ps)).language := by
  have hor : (sequence (optional p :: ps)).language = (sequence (p :: ps)).language + (sequence ps).language := by
    rw [language_sequence_cons, language_sequence_cons, Pattern.optional, language, language, add_mul, one_mul]
  have hcons := spaced_cons hp h
  rw [hor]
  exact {
    inked := fun w hw => hw.elim (hcons.inked w) (h.inked w)
    elastic := fun u v b c hb hc => or_congr (hcons.elastic u v b c hb hc) (h.elastic u v b c hb hc) }

theorem solid_lit {t : Text} (hne : t ≠ []) (h : t.any isBlank = false) : Solid (lit t).language := by
  intro w hw
  rw [mem_language_lit.mp hw]
  exact ⟨hne, fun x hx => Bool.eq_false_iff.mpr (List.any_eq_false.mp h x hx)⟩

theorem solid_word : Solid word.language := by
  intro w hw
  obtain ⟨hne, hword⟩ := mem_language_word.mp hw
  refine ⟨hne, fun x hx => ?_⟩
  rw [Bool.eq_false_iff]
  intro hblank
  have := hword x hx
  rw [isWordChar_of_isBlank hblank] at this
  contradiction

end SourceArchive
