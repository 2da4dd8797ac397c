import SourceArchive.Text.Identifier
import SourceArchive.Text.Line
import Mathlib.Data.List.Basic

/-!
# Laws of texts

Trimming, cutting at a character, joining, and the lines of a written text.  The main statements are
`lines_endLines_append`, which says what becomes of a written line when the text is cut into lines again, and
`splitAt_join`, which inverts joining.  A written line that holds line feeds of its own comes back as several
lines, its `rows`; nothing here excludes that.
-/

namespace SourceArchive

open List

namespace Text

/-! ## Beginnings and rests -/

@[simp] theorem after?_append (start rest : Text) : after? (start ++ rest) start = some rest :=
  after?_eq_some_iff.mpr rfl

theorem after?_eq_none_iff {t start : Text} : after? t start = none ↔ ¬ start <+: t := by
  rw [Option.eq_none_iff_forall_not_mem]
  constructor
  · rintro h ⟨rest, rfl⟩
    exact h rest (after?_append start rest)
  · intro h rest hr
    exact h ⟨rest, after?_eq_some_iff.mp hr⟩

theorem after?_isSuffix {t start rest : Text} (h : after? t start = some rest) : rest <:+ t :=
  ⟨start, after?_eq_some_iff.mp h⟩

theorem after?_append_cons {start : Text} {c : Char} (hc : c ∉ start) (t v : Text) :
    after? (t ++ c :: v) start = (after? t start).map (· ++ c :: v) := by
  induction start generalizing t with
  | nil => simp [after?]
  | cons x start ih =>
    obtain ⟨hx, hstart⟩ : c ≠ x ∧ c ∉ start := by simpa using hc
    cases t with
    | nil => simp [after?, Ne.symm hx]
    | cons d t =>
      rw [List.cons_append, after?, after?]
      split
      · exact ih hstart t
      · rfl

theorem head?_append_ne {c x : Char} (hc : c ≠ x) {t : Text} (ht : t.head? ≠ some x) (v : Text) :
    (t ++ c :: v).head? ≠ some x := by
  cases t with
  | nil => simpa using hc
  | cons d t => simpa using ht

theorem takeWhile_append_cons {p : Char → Bool} {c : Char} (hc : p c = false) (t v : Text) :
    (t ++ c :: v).takeWhile p = t.takeWhile p := by
  induction t with
  | nil => simp [hc]
  | cons d t ih => simp [List.takeWhile_cons, ih]

theorem dropWhile_append_cons {p : Char → Bool} {c : Char} (hc : p c = false) (t v : Text) :
    (t ++ c :: v).dropWhile p = t.dropWhile p ++ c :: v := by
  induction t with
  | nil => simp [hc]
  | cons d t ih =>
    rw [List.cons_append, List.dropWhile_cons, List.dropWhile_cons, ih]
    split <;> rfl

/-- Of two beginnings of one text, one is a beginning of the other. -/
theorem prefix_total {a b t : Text} (ha : a <+: t) (hb : b <+: t) : a <+: b ∨ b <+: a := by
  rcases Nat.le_total a.length b.length with h | h
  · exact Or.inl (prefix_of_prefix_length_le ha hb h)
  · exact Or.inr (prefix_of_prefix_length_le hb ha h)

/-! ## Trimming -/

/-- What holds of all characters of a text is decided along the text, not along all characters that there are. -/
instance decidableForallMem {P : Char → Prop} [DecidablePred P] (t : Text) : Decidable (∀ c ∈ t, P c) :=
  List.decidableBAll P t

/-- A text of blanks alone. -/
def Blank (t : Text) : Prop := ∀ c ∈ t, isBlank c = true

/-- A text that begins with a character that is not blank. -/
def StartsInked (t : Text) : Prop := ∃ c r, t = c :: r ∧ isBlank c = false

/-- A text that ends with a character that is not blank. -/
def EndsInked (t : Text) : Prop := ∃ r c, t = r ++ [c] ∧ isBlank c = false

theorem startsInked_iff {t : Text} : StartsInked t ↔ t.head?.any (!isBlank ·) = true := by
  cases t with
  | nil => simp [StartsInked]
  | cons c r => simp [StartsInked]

theorem endsInked_iff {t : Text} : EndsInked t ↔ t.getLast?.any (!isBlank ·) = true := by
  rcases List.eq_nil_or_concat t with rfl | ⟨r, c, rfl⟩
  · simp [EndsInked]
  · simp [EndsInked]

theorem blank_nil : Blank [] := fun _ hc => absurd hc not_mem_nil

instance : DecidablePred Blank := fun t => List.decidableBAll _ t

instance : DecidablePred StartsInked := fun _ => decidable_of_iff _ startsInked_iff.symm

instance : DecidablePred EndsInked := fun _ => decidable_of_iff _ endsInked_iff.symm

theorem StartsInked.append {a : Text} (h : StartsInked a) (b : Text) : StartsInked (a ++ b) := by
  obtain ⟨c, r, rfl, hc⟩ := h
  exact ⟨c, r ++ b, rfl, hc⟩

theorem EndsInked.append {b : Text} (h : EndsInked b) (a : Text) : EndsInked (a ++ b) := by
  obtain ⟨r, c, rfl, hc⟩ := h
  exact ⟨a ++ r, c, by rw [List.append_assoc], hc⟩

theorem startsInked_of_inked {t : Text} (hne : t ≠ []) (h : ∀ c ∈ t, isBlank c = false) : StartsInked t := by
  obtain ⟨c, r, rfl⟩ := List.exists_cons_of_ne_nil hne
  exact ⟨c, r, rfl, h c List.mem_cons_self⟩

theorem endsInked_of_inked {t : Text} (hne : t ≠ []) (h : ∀ c ∈ t, isBlank c = false) : EndsInked t :=
  ⟨_, _, (List.dropLast_append_getLast hne).symm, h _ (List.getLast_mem hne)⟩

theorem StartsInked.reverse {t : Text} (h : StartsInked t) : EndsInked t.reverse := by
  obtain ⟨c, r, rfl, hc⟩ := h
  exact ⟨r.reverse, c, by rw [List.reverse_cons], hc⟩

theorem EndsInked.reverse {t : Text} (h : EndsInked t) : StartsInked t.reverse := by
  obtain ⟨r, c, rfl, hc⟩ := h
  exact ⟨c, r.reverse, by simp, hc⟩

theorem trimStart_append_of_inked {a t : Text} (ha : Blank a) (ht : StartsInked t) : (a ++ t).trimStart = t := by
  obtain ⟨c, r, rfl, hc⟩ := ht
  rw [trimStart, List.dropWhile_append_of_pos ha, List.dropWhile_cons_of_neg (by simpa using hc)]

theorem trimEnd_append_of_inked {t b : Text} (ht : EndsInked t) (hb : Blank b) : (t ++ b).trimEnd = t := by
  have hb' : Blank b.reverse := fun c hc => hb c (List.mem_reverse.mp hc)
  have h := trimStart_append_of_inked hb' ht.reverse
  rw [trimEnd, List.reverse_append, show List.dropWhile isBlank (b.reverse ++ t.reverse) = t.reverse from h,
    List.reverse_reverse]

theorem StartsInked.trimStart_eq {t : Text} (h : StartsInked t) : t.trimStart = t :=
  trimStart_append_of_inked blank_nil h

theorem trimStart_cons {c : Char} (h : isBlank c = false) (r : Text) : trimStart (c :: r) = c :: r :=
  StartsInked.trimStart_eq ⟨c, r, rfl, h⟩

theorem EndsInked.trimEnd_eq {t : Text} (h : EndsInked t) : t.trimEnd = t := by
  simpa using trimEnd_append_of_inked h blank_nil

theorem trim_eq_self {t : Text} (hs : StartsInked t) (he : EndsInked t) : t.trim = t := by
  rw [trim, hs.trimStart_eq, he.trimEnd_eq]

theorem Blank.trimStart_eq {t : Text} (h : Blank t) : t.trimStart = [] := by
  have hd : (t ++ []).dropWhile isBlank = [] := List.dropWhile_append_of_pos h
  rwa [List.append_nil] at hd

theorem Blank.not_mem {t : Text} (h : Blank t) {c : Char} (hc : isBlank c = false) : c ∉ t := by
  intro hm
  rw [h c hm] at hc
  cases hc

theorem blank_space : Blank " ".toList := by simp [Blank, isBlank]

theorem trimStart_blank_append {a : Text} (ha : Blank a) (b : Text) : (a ++ b).trimStart = b.trimStart :=
  List.dropWhile_append_of_pos ha

theorem Blank.trimEnd_eq {t : Text} (h : Blank t) : t.trimEnd = [] := by
  have h' : Blank t.reverse := fun c hc => h c (List.mem_reverse.mp hc)
  rw [trimEnd, show List.dropWhile isBlank t.reverse = [] from h'.trimStart_eq, List.reverse_nil]

theorem blank_indentation (t : Text) : Blank t.indentation := List.all_eq_true.mp List.all_takeWhile

/-- A text is blank, or its leading blanks can be told off. -/
theorem blank_or_exists_start (t : Text) : Blank t ∨ ∃ a m, t = a ++ m ∧ Blank a ∧ StartsInked m := by
  induction t with
  | nil => exact Or.inl (by simp [Blank])
  | cons c r ih =>
    by_cases hc : isBlank c = true
    · rcases ih with h | ⟨a, m, rfl, ha, hm⟩
      · exact Or.inl (by simpa [Blank, hc] using h)
      · exact Or.inr ⟨c :: a, m, rfl, by simpa [Blank, hc] using ha, hm⟩
    · exact Or.inr ⟨[], c :: r, rfl, by simp [Blank], c, r, rfl, by simpa using hc⟩

theorem trimStart_eq_nil_iff {t : Text} : t.trimStart = [] ↔ Blank t := by
  refine ⟨fun h => ?_, Blank.trimStart_eq⟩
  rcases blank_or_exists_start t with hb | ⟨a, m, rfl, ha, c, r, rfl, hc⟩
  · exact hb
  · rw [trimStart_append_of_inked ha ⟨c, r, rfl, hc⟩] at h
    contradiction

theorem blank_or_exists_end (t : Text) : Blank t ∨ ∃ m b, t = m ++ b ∧ EndsInked m ∧ Blank b := by
  rcases blank_or_exists_start t.reverse with h | ⟨a, m, h, ha, hm⟩
  · exact Or.inl fun c hc => h c (List.mem_reverse.mpr hc)
  · refine Or.inr ⟨m.reverse, a.reverse, ?_, hm.reverse, fun c hc => ha c (List.mem_reverse.mp hc)⟩
    rw [← List.reverse_append, ← h, List.reverse_reverse]

/-- A text is blank, or it is its trimmed self between blanks. -/
theorem blank_or_exists_trim (t : Text) :
    Blank t ∨ ∃ a m b, t = a ++ m ++ b ∧ Blank a ∧ StartsInked m ∧ EndsInked m ∧ Blank b := by
  rcases blank_or_exists_start t with h | ⟨a, m', rfl, ha, hs⟩
  · exact Or.inl h
  · rcases blank_or_exists_end m' with h | ⟨m, b, rfl, he, hb⟩
    · obtain ⟨c, r, rfl, hc⟩ := hs
      rw [h c List.mem_cons_self] at hc
      contradiction
    · refine Or.inr ⟨a, m, b, by rw [List.append_assoc], ha, ?_, he, hb⟩
      obtain ⟨r, c, rfl, -⟩ := he
      obtain ⟨d, s, h, hd⟩ := hs
      cases r with
      | nil => exact ⟨c, [], rfl, by simp_all⟩
      | cons e r => exact ⟨e, r ++ [c], rfl, by simp_all⟩

section Parts

variable {a m b : Text} (ha : Blank a) (hs : StartsInked m) (he : EndsInked m) (hb : Blank b)

include ha hs in
theorem trimStart_of_parts : (a ++ m ++ b).trimStart = m ++ b := by
  rw [List.append_assoc, trimStart_append_of_inked ha (hs.append b)]

include he hb in
theorem trimEnd_of_parts : (a ++ m ++ b).trimEnd = a ++ m := trimEnd_append_of_inked (he.append a) hb

include ha hs he hb in
theorem trim_of_parts : (a ++ m ++ b).trim = m := by
  rw [trim, trimStart_of_parts ha hs, trimEnd_append_of_inked he hb]

end Parts

theorem Blank.trim_eq {t : Text} (h : Blank t) : t.trim = [] := by
  rw [trim, h.trimStart_eq]
  rfl

@[simp] theorem trimStart_trimEnd (t : Text) : t.trimEnd.trimStart = t.trim := by
  rcases blank_or_exists_trim t with h | ⟨a, m, b, rfl, ha, hs, he, hb⟩
  · rw [h.trim_eq, h.trimEnd_eq]
    rfl
  · rw [trimEnd_of_parts he hb, trim_of_parts ha hs he hb, trimStart_append_of_inked ha hs]

@[simp] theorem trim_trim (t : Text) : t.trim.trim = t.trim := by
  rcases blank_or_exists_trim t with h | ⟨a, m, b, rfl, ha, hs, he, hb⟩
  · rw [h.trim_eq]
    rfl
  · rw [trim_of_parts ha hs he hb, trim_eq_self hs he]

@[simp] theorem trim_trimEnd (t : Text) : t.trimEnd.trim = t.trim := by
  rcases blank_or_exists_trim t with h | ⟨a, m, b, rfl, ha, hs, he, hb⟩
  · rw [h.trimEnd_eq, h.trim_eq]
    rfl
  · rw [trimEnd_of_parts he hb, trim_of_parts ha hs he hb, trim, trimStart_append_of_inked ha hs, he.trimEnd_eq]

theorem trimEnd_append_blank (t : Text) {b : Text} (hb : Blank b) : (t ++ b).trimEnd = t.trimEnd := by
  rcases blank_or_exists_end t with h | ⟨m, s, rfl, he, hs⟩
  · have ht : Blank (t ++ b) := fun c hc => (List.mem_append.mp hc).elim (h c) (hb c)
    rw [h.trimEnd_eq, ht.trimEnd_eq]
  · have hs' : Blank (s ++ b) := fun c hc => (List.mem_append.mp hc).elim (hs c) (hb c)
    rw [trimEnd_append_of_inked he hs, List.append_assoc, trimEnd_append_of_inked he hs']

theorem trim_append_blank (t : Text) {b : Text} (hb : Blank b) : (t ++ b).trim = t.trim := by
  rw [← trim_trimEnd, trimEnd_append_blank t hb, trim_trimEnd]

theorem trimStart_isSuffix (t : Text) : t.trimStart <:+ t := List.dropWhile_suffix isBlank

theorem trimEnd_isPrefix (t : Text) : t.trimEnd <+: t := by
  rcases blank_or_exists_end t with h | ⟨m, b, rfl, he, hb⟩
  · rw [h.trimEnd_eq]
    exact List.nil_prefix
  · rw [trimEnd_append_of_inked he hb]
    exact List.prefix_append m b

theorem trim_isInfix (t : Text) : t.trim <:+: t :=
  (trimEnd_isPrefix _).isInfix.trans (trimStart_isSuffix t).isInfix

/-- What is appended to a text with ink in it stays where it is when leading blanks are dropped. -/
theorem trimStart_append {a : Text} (h : a.trimStart ≠ []) (b : Text) : (a ++ b).trimStart = a.trimStart ++ b := by
  rcases blank_or_exists_start a with hb | ⟨s, m, rfl, hs, hm⟩
  · exact absurd hb.trimStart_eq h
  · rw [List.append_assoc, trimStart_append_of_inked hs (hm.append b), trimStart_append_of_inked hs hm]

/-- So does what begins with ink. -/
theorem trimStart_append_inked (a : Text) {b : Text} (h : StartsInked b) :
    (a ++ b).trimStart = a.trimStart ++ b := by
  rcases blank_or_exists_start a with hb | ⟨s, m, rfl, hs, hm⟩
  · rw [trimStart_append_of_inked hb h, hb.trimStart_eq, List.nil_append]
  · rw [List.append_assoc, trimStart_append_of_inked hs (hm.append b), trimStart_append_of_inked hs hm]

theorem trimEnd_append_inked {a : Text} (h : EndsInked a) (b : Text) : (a ++ b).trimEnd = a ++ b.trimEnd := by
  rcases blank_or_exists_end b with hb | ⟨m, s, rfl, hm, hs⟩
  · rw [trimEnd_append_of_inked h hb, hb.trimEnd_eq, List.append_nil]
  · rw [← List.append_assoc, trimEnd_append_of_inked (hm.append a) hs, trimEnd_append_of_inked hm hs]

/-- Whether a trimmed text begins in a certain way does not depend on what is trimmed off behind. -/
theorem prefix_trim_iff {start t : Text} (h : EndsInked start) : start <+: t.trim ↔ start <+: t.trimStart := by
  constructor
  · exact fun hp => hp.trans (trimEnd_isPrefix _)
  · rintro ⟨rest, hr⟩
    rw [trim, ← hr, trimEnd_append_inked h]
    exact ⟨_, rfl⟩

/-! ## Cutting and joining -/

theorem cutAt?_append {sep : Char} {a : Text} (h : sep ∉ a) (b : Text) : cutAt? sep (a ++ sep :: b) = some (a, b) := by
  induction a with
  | nil => simp [cutAt?]
  | cons c a ih =>
    obtain ⟨hc, ha⟩ : sep ≠ c ∧ sep ∉ a := by simpa using h
    simp [cutAt?, Ne.symm hc, ih ha]

theorem eq_of_first (sep : Char) {a a' b b' : Text} (ha : sep ∉ a) (ha' : sep ∉ a')
    (h : a ++ sep :: b = a' ++ sep :: b') : a = a' ∧ b = b' := by
  have hcut := cutAt?_append ha b
  rw [h, cutAt?_append ha' b'] at hcut
  obtain ⟨rfl, rfl⟩ := Prod.mk.inj (Option.some.inj hcut)
  exact ⟨rfl, rfl⟩

/-- Two texts that end before the first character of a kind end at the same place. -/
theorem eq_of_firstWhen {p : Char → Bool} {a a' b b' : Text} {c c' : Char} (ha : ∀ x ∈ a, p x = false)
    (ha' : ∀ x ∈ a', p x = false) (hc : p c = true) (hc' : p c' = true) (h : a ++ c :: b = a' ++ c' :: b') :
    a = a' ∧ c = c' ∧ b = b' := by
  have hfirst {a b : Text} {c : Char} (ha : ∀ x ∈ a, p x = false) (hc : p c = true) :
      (a ++ c :: b).takeWhile (!p ·) = a := by
    rw [List.takeWhile_append_of_pos (by simpa using ha), List.takeWhile_cons_of_neg (by simp [hc]), List.append_nil]
  obtain rfl : a = a' := by rw [← hfirst ha hc, h, hfirst ha' hc']
  obtain ⟨rfl, rfl⟩ := List.cons.inj (List.append_cancel_left h)
  exact ⟨rfl, rfl, rfl⟩

/-- What stands at the beginning and does not hold a separator stands before it. -/
theorem prefix_of_not_mem {sep : Char} {u t a b : Text} (hu : sep ∉ u) (h : u ++ t = a ++ sep :: b) : u <+: a := by
  rcases List.append_eq_append_iff.mp h with ⟨s, rfl, -⟩ | ⟨s, rfl, hs⟩
  · exact List.prefix_append u s
  · cases s with
    | nil => simp
    | cons c s =>
      obtain rfl : sep = c := (List.cons.inj hs).1
      exact absurd (List.mem_append_right a List.mem_cons_self) hu

/-- A part that does not hold a separator stands on one side of it. -/
theorem side_of_not_mem {sep : Char} {u k t a b : Text} (hk : sep ∉ k) (h : u ++ (k ++ t) = a ++ sep :: b) :
    (∃ s, a = u ++ k ++ s ∧ t = s ++ sep :: b) ∨ ∃ s, u = a ++ sep :: s ∧ b = s ++ (k ++ t) := by
  rcases List.append_eq_append_iff.mp h with ⟨v, rfl, hv⟩ | ⟨v, rfl, hv⟩
  · obtain ⟨s, rfl⟩ := prefix_of_not_mem hk hv
    rw [List.append_assoc] at hv
    exact Or.inl ⟨s, (List.append_assoc u k s).symm, List.append_cancel_left hv⟩
  · cases v with
    | nil =>
      obtain ⟨s, hs⟩ := prefix_of_not_mem (a := []) hk hv.symm
      obtain ⟨rfl, rfl⟩ := List.append_eq_nil_iff.mp hs
      exact Or.inl ⟨[], by simp, hv.symm⟩
    | cons c v =>
      obtain ⟨rfl, rfl⟩ := List.cons.inj hv
      exact Or.inr ⟨v, rfl, rfl⟩

theorem cutAt?_eq_some_iff {sep : Char} {t a b : Text} : cutAt? sep t = some (a, b) ↔ sep ∉ a ∧ t = a ++ sep :: b := by
  refine ⟨fun h => ?_, ?_⟩
  · induction t generalizing a with
    | nil => simp [cutAt?] at h
    | cons d t ih =>
      by_cases hd : d = sep
      · obtain ⟨rfl, rfl⟩ : a = [] ∧ b = t := by simpa [cutAt?, hd, eq_comm] using h
        simp [hd]
      · rw [cutAt?, if_neg hd, Option.map_eq_some_iff] at h
        obtain ⟨⟨a, b⟩, ha, heq⟩ := h
        obtain ⟨rfl, rfl⟩ := Prod.mk.inj heq
        obtain ⟨hmem, rfl⟩ := ih ha
        exact ⟨by simp [Ne.symm hd, hmem], rfl⟩
  · rintro ⟨ha, rfl⟩
    exact cutAt?_append ha b

theorem cutAt?_eq_none_iff {sep : Char} {t : Text} : cutAt? sep t = none ↔ sep ∉ t := by
  constructor
  · intro h hmem
    obtain ⟨a, b, rfl, ha⟩ := List.eq_append_cons_of_mem hmem
    simp [cutAt?_append ha] at h
  · intro h
    rcases hcut : cutAt? sep t with _ | ⟨a, b⟩
    · rfl
    · obtain ⟨-, rfl⟩ := cutAt?_eq_some_iff.mp hcut
      simp at h

/-- If a text is cut only behind its end, the part before the cut holds what follows the text. -/
theorem cutAt?_append_cases {sep : Char} (t : Text) {c : Char} (hc : c ≠ sep) (v : Text) :
    (∃ a b, cutAt? sep t = some (a, b) ∧ cutAt? sep (t ++ c :: v) = some (a, b ++ c :: v)) ∨
      (cutAt? sep t = none ∧ ∀ a b, cutAt? sep (t ++ c :: v) = some (a, b) → c ∈ a) := by
  rcases hcut : cutAt? sep t with _ | ⟨a, b⟩
  · refine Or.inr ⟨rfl, fun a b hab => ?_⟩
    obtain ⟨-, heq⟩ := cutAt?_eq_some_iff.mp hab
    have hmem : sep ∉ t ++ [c] := by simpa [hc.symm] using cutAt?_eq_none_iff.mp hcut
    have hpre : t ++ [c] <+: a := prefix_of_not_mem hmem (by simpa using heq)
    exact hpre.subset (by simp)
  · obtain ⟨ha, rfl⟩ := cutAt?_eq_some_iff.mp hcut
    refine Or.inl ⟨a, b, rfl, ?_⟩
    rw [List.append_assoc, List.cons_append, cutAt?_append ha]

theorem getLast?_cons_or (c : Char) (r : Text) (p : Option Char) :
    (c :: r).getLast?.or p = r.getLast?.or (some c) := by
  rw [List.getLast?_cons]
  cases r.getLast? <;> rfl

theorem splitAt_of_not_mem {sep : Char} {t : Text} (h : sep ∉ t) : splitAt sep t = [t] := by
  induction t with
  | nil => rfl
  | cons c r ih =>
    obtain ⟨hc, hr⟩ : sep ≠ c ∧ sep ∉ r := by simpa using h
    have ih' := ih hr
    simp only [splitAt] at ih' ⊢
    simp [splitWhen, ih', Ne.symm hc]

theorem splitWhen_append_cons {p : Char → Bool} {c : Char} (h : p c = true) (a b : Text) :
    splitWhen p (a ++ c :: b) = splitWhen p a ++ splitWhen p b := by
  induction a with
  | nil =>
    obtain ⟨piece, pieces, hb⟩ := List.exists_cons_of_ne_nil (splitWhen_ne_nil p b)
    simp [splitWhen, hb, h]
  | cons d r ih =>
    obtain ⟨piece, pieces, hr⟩ := List.exists_cons_of_ne_nil (splitWhen_ne_nil p r)
    rw [List.cons_append, splitWhen, ih, splitWhen, hr, List.cons_append]
    by_cases hd : p d = true <;> simp [hd]

/-- A cut falls at every occurrence of the separator. -/
theorem splitAt_append_cons (sep : Char) (a b : Text) :
    splitAt sep (a ++ sep :: b) = splitAt sep a ++ splitAt sep b :=
  splitWhen_append_cons (p := (· == sep)) (beq_self_eq_true sep) a b

/-- Only the characters that stand in a text decide where it is cut. -/
theorem splitWhen_congr {p q : Char → Bool} {t : Text} (h : ∀ c ∈ t, p c = q c) : splitWhen p t = splitWhen q t := by
  induction t with
  | nil => rfl
  | cons c r ih =>
    obtain ⟨hc, hr⟩ := List.forall_mem_cons.mp h
    rw [splitWhen, splitWhen, ih hr, hc]

theorem flatten_splitWhen (p : Char → Bool) (t : Text) : (splitWhen p t).flatten = t.filter (!p ·) := by
  induction t with
  | nil => rfl
  | cons c r ih =>
    obtain ⟨piece, pieces, hr⟩ := List.exists_cons_of_ne_nil (splitWhen_ne_nil p r)
    rw [hr] at ih
    by_cases hc : p c = true
    · simpa [splitWhen, hr, hc] using ih
    · simpa [splitWhen, hr, hc] using ih

/-- No piece holds a character that is cut at. -/
theorem eq_false_of_mem_splitWhen {p : Char → Bool} {t piece : Text} (h : piece ∈ splitWhen p t) :
    ∀ c ∈ piece, p c = false := by
  induction t generalizing piece with
  | nil =>
    obtain rfl : piece = [] := by simpa [splitWhen] using h
    simp
  | cons d r ih =>
    obtain ⟨q, qs, hr⟩ := List.exists_cons_of_ne_nil (splitWhen_ne_nil p r)
    rw [hr] at ih
    simp only [splitWhen, hr] at h
    by_cases hd : p d = true
    · rw [if_pos hd] at h
      rcases List.mem_cons.mp h with rfl | h
      · simp
      · exact ih h
    · rw [if_neg hd] at h
      rcases List.mem_cons.mp h with rfl | h
      · intro c hc
        rcases List.mem_cons.mp hc with rfl | hc
        · simpa using hd
        · exact ih List.mem_cons_self c hc
      · exact ih (List.mem_cons_of_mem _ h)

theorem not_mem_of_mem_splitAt {sep : Char} {t piece : Text} (h : piece ∈ splitAt sep t) : sep ∉ piece := by
  intro hm
  have hs := eq_false_of_mem_splitWhen h sep hm
  simp at hs

@[simp] theorem join_nil (sep : Text) : join sep [] = [] := rfl

@[simp] theorem join_singleton (sep t : Text) : join sep [t] = t := by simp [join, List.intercalate]

theorem join_cons_cons (sep a b : Text) (ts : List Text) : join sep (a :: b :: ts) = a ++ sep ++ join sep (b :: ts) :=
  List.intercalate_cons_cons

/-- Joined texts are the first of them and the others, each behind the separator. -/
theorem join_cons (sep a : Text) (ts : List Text) : join sep (a :: ts) = a ++ ts.flatMap (sep ++ ·) := by
  induction ts generalizing a with
  | nil => simp
  | cons b ts ih => rw [join_cons_cons, ih, List.flatMap_cons, List.append_assoc, List.append_assoc]

/-- Joining by a character is undone by cutting at it, if the joined texts do not hold it. -/
theorem splitAt_join {sep : Char} {a : Text} {ts : List Text} (ha : sep ∉ a) (h : ∀ t ∈ ts, sep ∉ t) :
    splitAt sep (join [sep] (a :: ts)) = a :: ts := by
  induction ts generalizing a with
  | nil => rw [join_singleton, splitAt_of_not_mem ha]
  | cons b ts ih =>
    rw [join_cons_cons, List.append_assoc, List.singleton_append, splitAt_append_cons, splitAt_of_not_mem ha,
      ih (h b List.mem_cons_self) fun t ht => h t (List.mem_cons_of_mem _ ht), List.singleton_append]

theorem infix_join {sep t : Text} {ts : List Text} (h : t ∈ ts) : t <:+: join sep ts := by
  induction ts with
  | nil => simp at h
  | cons a ts ih =>
    rcases List.mem_cons.mp h with rfl | h
    · rw [join_cons]
      exact (List.prefix_append _ _).isInfix
    · cases ts with
      | nil => simp at h
      | cons b ts =>
        rw [join_cons_cons]
        exact (ih h).trans (List.suffix_append _ _).isInfix

theorem not_mem_join {c : Char} {sep : Text} {ts : List Text} (hs : c ∉ sep) (h : ∀ t ∈ ts, c ∉ t) :
    c ∉ join sep ts := by
  induction ts with
  | nil => simp
  | cons a ts ih =>
    have ha := h a List.mem_cons_self
    have hts := ih fun t ht => h t (List.mem_cons_of_mem _ ht)
    cases ts with
    | nil => rwa [join_singleton]
    | cons b ts =>
      rw [join_cons_cons, List.append_assoc, List.mem_append, List.mem_append]
      rintro (hc | hc | hc)
      · exact ha hc
      · exact hs hc
      · exact hts hc

/-- The first of the joined texts, joined, are a beginning of the whole. -/
theorem join_take_isPrefix (sep : Text) (n : Nat) (ts : List Text) : join sep (ts.take n) <+: join sep ts := by
  cases ts with
  | nil => simp
  | cons a ts =>
    cases n with
    | zero => exact List.nil_prefix
    | succ n =>
      rw [List.take_succ_cons, join_cons, join_cons, List.prefix_append_right_inj]
      conv_rhs => rw [← List.take_append_drop n ts, List.flatMap_append]
      exact List.prefix_append _ _

/-- A piece of a text that is cut stands in it as it is. -/
theorem infix_of_mem_splitAt {sep : Char} {t piece : Text} (h : piece ∈ splitAt sep t) : piece <:+: t := by
  have hi : piece <:+: join [sep] (splitAt sep t) := infix_join h
  rwa [join_splitAt] at hi

/-- A text without the separator extends the first piece of what it is put in front of. -/
theorem splitAt_append_of_not_mem {sep : Char} {a b piece : Text} {pieces : List Text} (ha : sep ∉ a)
    (hb : splitAt sep b = piece :: pieces) : splitAt sep (a ++ b) = (a ++ piece) :: pieces := by
  induction a with
  | nil => exact hb
  | cons c r ih =>
    obtain ⟨hc, hr⟩ : sep ≠ c ∧ sep ∉ r := by simpa using ha
    have ih' := ih hr
    simp only [splitAt] at ih' ⊢
    simp [splitWhen, ih', Ne.symm hc]

/-! ## Words and single lines -/

theorem words_append_cons {c : Char} (h : isBlank c = true) (a b : Text) : words (a ++ c :: b) = words a ++ words b := by
  rw [words, splitWhen_append_cons h, List.filter_append]
  rfl

theorem Blank.words_append {b : Text} (hb : Blank b) (t : Text) : words (b ++ t) = words t := by
  induction b with
  | nil => rfl
  | cons c b ih =>
    have hc := hb c List.mem_cons_self
    show words ([] ++ c :: (b ++ t)) = _
    rw [words_append_cons hc, ih fun d hd => hb d (List.mem_cons_of_mem c hd)]
    rfl

theorem words_append_blank (t : Text) {b : Text} (hb : Blank b) : words (t ++ b) = words t := by
  cases b with
  | nil => rw [List.append_nil]
  | cons c b =>
    have hbehind : Blank b := fun d hd => hb d (List.mem_cons_of_mem c hd)
    have hempty := hbehind.words_append []
    rw [List.append_nil] at hempty
    rw [words_append_cons (hb c List.mem_cons_self), hempty]
    exact List.append_nil _

/-- Trimming makes no difference to a text on one line. -/
theorem singleLine_trim (t : Text) : t.trim.singleLine = t.singleLine := by
  rcases blank_or_exists_trim t with h | ⟨a, m, b, rfl, ha, hs, he, hb⟩
  · have hwords := h.words_append []
    rw [List.append_nil] at hwords
    rw [h.trim_eq, singleLine, singleLine, hwords]
  · rw [trim_of_parts ha hs he hb, singleLine, singleLine, words_append_blank _ hb, ha.words_append]

theorem filter_join {q : Char → Bool} {sep : Text} (h : ∀ c ∈ sep, q c = false) (ts : List Text) :
    (join sep ts).filter q = ts.flatten.filter q := by
  have hsep : sep.filter q = [] := List.filter_eq_nil_iff.mpr fun c hc => Bool.eq_false_iff.mp (h c hc)
  cases ts with
  | nil => rfl
  | cons a ts =>
    rw [join_cons, List.flatten_cons, List.filter_append, List.filter_append]
    congr 1
    induction ts with
    | nil => rfl
    | cons b ts ih =>
      rw [List.flatMap_cons, List.flatten_cons, List.filter_append, List.filter_append, List.filter_append, hsep, ih,
        List.nil_append]

/-- A text on one line keeps all that is not blank. -/
theorem filter_singleLine (t : Text) : t.singleLine.filter (!isBlank ·) = t.filter (!isBlank ·) := by
  have hspace : ∀ c ∈ " ".toList, (!isBlank c) = false := by
    intro c hc
    rw [blank_space c hc]
    rfl
  rw [singleLine, filter_join hspace, words, List.flatten_filter_not_isEmpty, flatten_splitWhen, List.filter_filter]
  simp only [Bool.and_self]

/-! ## Lines -/

/-- The lines that a written line is read back as; there is more than one if it holds line feeds. -/
def rows (l : Text) : List Text := (splitAt '\n' l).map dropReturn

theorem dropReturn_eq_or (l : Text) : dropReturn l = l ∨ l = dropReturn l ++ ['\r'] := by
  unfold dropReturn
  split
  · rename_i r h
    right
    rw [← List.reverse_reverse l, h, List.reverse_cons]
  · exact Or.inl rfl

theorem dropReturn_of_not_mem {l : Text} (h : '\r' ∉ l) : dropReturn l = l := by
  rcases dropReturn_eq_or l with he | he
  · exact he
  · rw [he] at h
    simp at h

theorem dropReturn_isPrefix (l : Text) : dropReturn l <+: l := by
  rcases dropReturn_eq_or l with h | h
  · exact ⟨[], by rw [h, List.append_nil]⟩
  · exact ⟨['\r'], h.symm⟩

@[simp] theorem trim_dropReturn (l : Text) : (dropReturn l).trim = l.trim := by
  rcases dropReturn_eq_or l with h | h
  · rw [h]
  · have hr : Blank ['\r'] := by simp [Blank, isBlank]
    conv_rhs => rw [h, trim_append_blank _ hr]

theorem rows_of_not_mem {l : Text} (h : '\n' ∉ l) : rows l = [dropReturn l] := by
  rw [rows, splitAt_of_not_mem h, List.map_singleton]

theorem linesOfPieces_append (ps : List Text) {qs : List Text} (hq : qs ≠ []) :
    linesOfPieces (ps ++ qs) = ps.map dropReturn ++ linesOfPieces qs := by
  induction ps with
  | nil => rfl
  | cons p ps ih =>
    obtain ⟨r, rs, h⟩ := List.exists_cons_of_ne_nil (List.append_ne_nil_of_right_ne_nil ps hq)
    rw [List.cons_append, h, linesOfPieces, ← h, ih]
    · rfl
    · simp

theorem lines_append_cons (a b : Text) : lines (a ++ '\n' :: b) = rows a ++ lines b := by
  rw [lines, splitAt_append_cons, linesOfPieces_append _ (show splitAt '\n' b ≠ [] from splitWhen_ne_nil _ b)]
  rfl

/-- Written lines come back row by row, whatever text stands behind them. -/
theorem lines_endLines_append (ls : List Text) (t : Text) : lines (endLines ls ++ t) = ls.flatMap rows ++ lines t := by
  induction ls with
  | nil => rfl
  | cons l ls ih =>
    have h : endLines (l :: ls) ++ t = l ++ '\n' :: (endLines ls ++ t) := by simp [endLines]
    rw [h, lines_append_cons, ih, List.flatMap_cons, List.append_assoc]

theorem lines_endLines (ls : List Text) : lines (endLines ls) = ls.flatMap rows := by
  simpa [lines, splitAt, splitWhen, linesOfPieces] using lines_endLines_append ls []

/-- Lines without line ends in them come back as they were written. -/
theorem flatMap_rows_of_not_mem {ls : List Text} (h : ∀ l ∈ ls, '\n' ∉ l ∧ '\r' ∉ l) : ls.flatMap rows = ls := by
  induction ls with
  | nil => rfl
  | cons l ls ih =>
    obtain ⟨hn, hr⟩ := h l List.mem_cons_self
    rw [List.flatMap_cons, rows_of_not_mem hn, dropReturn_of_not_mem hr,
      ih fun x hx => h x (List.mem_cons_of_mem _ hx), List.singleton_append]

theorem exists_piece_of_mem_linesOfPieces {ps : List Text} {l : Text} (h : l ∈ linesOfPieces ps) : ∃ p ∈ ps, l <+: p := by
  fun_induction linesOfPieces ps with
  | case1 => simp at h
  | case2 last => simp at h
  | case3 last => exact ⟨last, List.mem_singleton_self _, by simp [List.mem_singleton.mp h]⟩
  | case4 p rest _ ih =>
    rcases List.mem_cons.mp h with rfl | h
    · exact ⟨p, List.mem_cons_self, dropReturn_isPrefix p⟩
    · obtain ⟨q, hq, hl⟩ := ih h
      exact ⟨q, List.mem_cons_of_mem _ hq, hl⟩

/-- No line holds a line feed. -/
theorem not_mem_of_mem_lines {t l : Text} (h : l ∈ lines t) : '\n' ∉ l := by
  obtain ⟨p, hp, hl⟩ := exists_piece_of_mem_linesOfPieces h
  exact fun hm => not_mem_of_mem_splitAt hp (hl.subset hm)

theorem infix_of_mem_lines {t l : Text} (h : l ∈ lines t) : l <:+: t := by
  obtain ⟨p, hp, hl⟩ := exists_piece_of_mem_linesOfPieces h
  exact hl.isInfix.trans (infix_of_mem_splitAt hp)

/-! ## Texts made of lines -/

theorem joinLines_append (a : List Text) {b : List Text} (hb : b ≠ []) :
    joinLines (a ++ b) = endLines a ++ joinLines b := by
  induction a with
  | nil => rfl
  | cons l a ih =>
    obtain ⟨k, r, hr⟩ := List.exists_cons_of_ne_nil (List.append_ne_nil_of_right_ne_nil a hb)
    rw [List.cons_append, hr, joinLines, join_cons_cons, ← joinLines, ← hr, ih]
    simp [endLines]

theorem joinLines_concat (a : List Text) (l : Text) : joinLines (a ++ [l]) = endLines a ++ l := by
  rw [joinLines_append a (List.cons_ne_nil l []), joinLines, join_singleton]

theorem endLines_eq {ls : List Text} (h : ls ≠ []) : endLines ls = joinLines ls ++ ['\n'] := by
  obtain ⟨a, l, rfl⟩ := (List.eq_nil_or_concat' ls).resolve_left h
  rw [joinLines_concat]
  simp [endLines]

theorem getLast?_endLines {ls : List Text} (h : ls ≠ []) : (endLines ls).getLast? = some '\n' := by
  rw [endLines_eq h, List.getLast?_concat]

theorem lines_of_not_mem {t : Text} (hne : t ≠ []) (h : '\n' ∉ t) : lines t = [t] := by
  have he : t.isEmpty = false := by simpa using hne
  simp [lines, splitAt_of_not_mem h, linesOfPieces, he]

/-- A text is a number of ended lines, and what stands behind the last line feed. -/
theorem exists_endLines (t : Text) : ∃ ls last, t = endLines ls ++ last ∧ '\n' ∉ last ∧ ∀ l ∈ ls, '\n' ∉ l := by
  obtain ⟨ls, last, h⟩ := (List.eq_nil_or_concat' (splitAt '\n' t)).resolve_left (splitWhen_ne_nil _ t)
  have hmem : ∀ l ∈ ls ++ [last], '\n' ∉ l := fun l hl => not_mem_of_mem_splitAt (h ▸ hl)
  refine ⟨ls, last, ?_, hmem last (by simp), fun l hl => hmem l (List.mem_append_left _ hl)⟩
  rw [← joinLines_concat, ← h]
  exact (join_splitAt '\n' t).symm

/-- Lines end at the end of a text that ends with a line feed. -/
theorem lines_append_of_ended {a : Text} (h : a.getLast? = some '\n') (b : Text) :
    lines (a ++ b) = lines a ++ lines b := by
  obtain ⟨a, rfl⟩ := List.getLast?_eq_some_iff.mp h
  have hnone : lines (a ++ ['\n']) = rows a := (lines_append_cons a []).trans (List.append_nil _)
  rw [hnone, List.append_assoc]
  exact lines_append_cons a b

/-- Lines as a text that ends with a line feed exactly if `t` does. -/
def joinLike (t : Text) (ls : List Text) : Text :=
  joinLines ls ++ if t.getLast? = some '\n' then ['\n'] else []

theorem joinLike_of_ended {t : Text} {ls : List Text} (ht : t.getLast? = some '\n') (h : ls ≠ []) :
    joinLike t ls = endLines ls := by
  rw [joinLike, if_pos ht, endLines_eq h]

theorem joinLike_of_not_ended {t : Text} (ht : t.getLast? ≠ some '\n') (ls : List Text) :
    joinLike t ls = joinLines ls := by
  rw [joinLike, if_neg ht, List.append_nil]

theorem joinLike_append (s : Text) {t : Text} (a : List Text) {b : List Text} (ht : t ≠ []) (hb : b ≠ []) :
    joinLike (s ++ t) (a ++ b) = endLines a ++ joinLike t b := by
  rw [joinLike, List.getLast?_append_of_ne_nil _ ht, joinLines_append a hb, List.append_assoc, ← joinLike]

/-- Only a text that ends with a line feed can have an empty last line. -/
theorem ended_or_inked_last (t : Text) : t.getLast? = some '\n' ∧ lines t ≠ [] ∨
    t.getLast? ≠ some '\n' ∧ ∀ l ∈ (lines t).getLast?, l ≠ [] := by
  obtain ⟨ls, last, rfl, hlast, hls⟩ := exists_endLines t
  rw [lines_endLines_append]
  by_cases hne : last = []
  · subst hne
    by_cases hnil : ls = []
    · subst hnil
      exact Or.inr ⟨by simp [endLines], by simp [lines, splitAt, splitWhen, linesOfPieces]⟩
    · left
      obtain ⟨l, r, rfl⟩ := List.exists_cons_of_ne_nil hnil
      rw [List.append_nil]
      exact ⟨getLast?_endLines hnil, by simp [rows_of_not_mem (hls l List.mem_cons_self)]⟩
  · right
    rw [List.getLast?_append_of_ne_nil _ hne, lines_of_not_mem hne hlast, List.getLast?_concat]
    refine ⟨fun h => hlast (List.mem_of_getLast? h), ?_⟩
    rintro l ⟨⟩
    exact hne

theorem joinLike_lines {t : Text} (h : '\r' ∉ t) : joinLike t (lines t) = t := by
  obtain ⟨ls, last, rfl, hlast, hls⟩ := exists_endLines t
  have hreturn : ∀ l ∈ ls, '\r' ∉ l := fun l hl hm =>
    h (List.mem_append_left _ (List.mem_flatMap.mpr ⟨l, hl, List.mem_append_left _ hm⟩))
  rw [lines_endLines_append, flatMap_rows_of_not_mem fun l hl => ⟨hls l hl, hreturn l hl⟩]
  by_cases hne : last = []
  · subst hne
    by_cases hnil : ls = []
    · rw [hnil]
      rfl
    · have hlines : ls ++ lines [] = ls := List.append_nil ls
      rw [hlines, List.append_nil, joinLike_of_ended (getLast?_endLines hnil) hnil]
  · have hend : (endLines ls ++ last).getLast? ≠ some '\n' := by
      rw [List.getLast?_append_of_ne_nil _ hne]
      exact fun h => hlast (List.mem_of_getLast? h)
    rw [joinLike_of_not_ended hend, lines_of_not_mem hne hlast, joinLines_concat]

theorem lines_joinLike {t : Text} {ls : List Text} (hlast : ls.getLast? = (lines t).getLast?)
    (hls : ∀ l ∈ ls, '\n' ∉ l ∧ '\r' ∉ l) : lines (joinLike t ls) = ls ∧
      ((joinLike t ls).getLast? = some '\n' ↔ t.getLast? = some '\n') := by
  rcases ended_or_inked_last t with ⟨hend, hne⟩ | ⟨hend, hinked⟩
  · have hne : ls ≠ [] := by
      rintro rfl
      exact hne (List.getLast?_eq_none_iff.mp hlast.symm)
    rw [joinLike_of_ended hend hne, lines_endLines, flatMap_rows_of_not_mem hls]
    exact ⟨rfl, iff_of_true (getLast?_endLines hne) hend⟩
  · rw [joinLike_of_not_ended hend]
    rcases List.eq_nil_or_concat' ls with rfl | ⟨a, l, rfl⟩
    · exact ⟨rfl, iff_of_false (by simp [joinLines]) hend⟩
    · rw [List.getLast?_concat] at hlast
      obtain ⟨hn, -⟩ := hls l (by simp)
      have hl : l ≠ [] := hinked l hlast.symm
      rw [joinLines_concat, lines_endLines_append, lines_of_not_mem hl hn,
        flatMap_rows_of_not_mem fun x hx => hls x (List.mem_append_left _ hx)]
      refine ⟨rfl, iff_of_false (fun h => ?_) hend⟩
      rw [List.getLast?_append_of_ne_nil _ hl] at h
      exact hn (List.mem_of_getLast? h)

end Text

end SourceArchive
