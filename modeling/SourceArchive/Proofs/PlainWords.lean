import SourceArchive.Proofs.Keywords

/-!
# Plain words as keyword patterns

A keyword pattern of lowercase ASCII letters stands for itself: it is read letter by letter, and each letter reads the
characters that fold to it.  All of those are characters of words, so the word edges at both ends say that no word goes on
there.  The pattern therefore occurs where the word stands by itself, in any mixture of cases.
-/

namespace SourceArchive

/-! ## Folding to lowercase letters -/

theorem lt_of_isLower {c : Char} (h : c.isLower = true) : c.toNat < 128 := by
  obtain ⟨-, hlast⟩ := Bool.and_eq_true_iff.mp h
  have hhigh : c.toNat ≤ 122 := of_decide_eq_true hlast
  omega

theorem isLower_ofNat_eq_false {n : Nat} (hn : 128 ≤ n) : (Char.ofNat n).isLower = false := by
  rw [Bool.eq_false_iff]
  intro hlower
  by_cases hvalid : n.isValidChar
  · have hcode : (Char.ofNat n).toNat = n := by
      rw [Char.ofNat, dif_pos hvalid]
      rfl
    have hlt := lt_of_isLower hlower
    omega
  · rw [Char.ofNat, dif_neg hvalid] at hlower
    exact absurd hlower (by decide)

/-- What is so for the codes of the lowercase letters is so for the letters. -/
theorem of_isLower {P : Char → Prop} (hcodes : ∀ n < 128, (Char.ofNat n).isLower = true → P (Char.ofNat n)) {c : Char}
    (h : c.isLower = true) : P c := by
  have hc := hcodes c.toNat (lt_of_isLower h)
  rw [Char.ofNat_toNat] at hc
  exact hc h

theorem isLower_toUpper_eq_false {c : Char} (h : c.isLower = true) : c.toUpper.isLower = false :=
  of_isLower (P := fun c => c.toUpper.isLower = false) (by decide +kernel) h

/-- No lowercase ASCII letter folds to another character. -/
theorem not_mem_foldSources {c y : Char} (hc : c.isLower = true) : c ∉ foldSources y := by
  have hfirst : ∀ r ∈ foldRuns, 128 ≤ r.first := by decide +kernel
  rw [foldSources, List.mem_append, not_or]
  constructor
  · intro h
    split at h
    · rename_i hy
      rw [List.mem_singleton.mp h, isLower_toUpper_eq_false hy] at hc
      cases hc
    · cases h
  · intro h
    obtain ⟨n, hn, rfl⟩ := List.mem_map.mp h
    obtain ⟨r, hr, hsource⟩ := List.mem_filterMap.mp hn
    have hcovers : r.covers n = true := by
      simp only [CaseRun.source?, Option.ite_none_right_eq_some, Option.some.injEq] at hsource
      rw [← hsource.2]
      exact hsource.1.2
    have hle : r.first ≤ n := by
      simp only [CaseRun.covers, Bool.and_eq_true, decide_eq_true_eq] at hcovers
      exact hcovers.1.1
    rw [isLower_ofNat_eq_false ((hfirst r hr).trans hle)] at hc
    cases hc

/-- The characters that differ from a lowercase ASCII letter only by case are those that fold to it. -/
theorem mem_caseOrbit_iff {c x : Char} (hc : c.isLower = true) : c ∈ caseOrbit x ↔ foldChar x = c := by
  rw [caseOrbit, List.mem_cons, or_iff_left (not_mem_foldSources hc), eq_comm]

/-- What folds to a lowercase ASCII letter is a character of words. -/
theorem isWordChar_of_foldChar {x : Char} (h : (foldChar x).isLower = true) : isWordChar x = true := by
  -- two runs lead below 128, each of one character: the long s and the kelvin sign
  have hruns : ∀ r ∈ foldRuns, 128 ≤ r.first + r.shift ∨ r.first = r.last ∧ isWordChar (Char.ofNat r.first) = true := by
    decide +kernel
  have hcodes : ∀ n < 128, (Char.ofNat n).toLower.isLower = true → isWordChar (Char.ofNat n) = true := by decide +kernel
  rw [foldChar] at h
  split at h
  · rename_i hlt
    have hx := hcodes x.toNat hlt
    rw [Char.ofNat_toNat] at hx
    exact hx h
  · rename_i hge
    split at h
    · rename_i r hr
      have hcovers := List.find?_some hr
      simp only [CaseRun.covers, Bool.and_eq_true, decide_eq_true_eq] at hcovers
      rcases hruns r (List.mem_of_find?_eq_some hr) with hhigh | ⟨hone, hword⟩
      · have happly : 128 ≤ r.apply x.toNat := by
          rw [CaseRun.apply]
          omega
        rw [isLower_ofNat_eq_false happly] at h
        cases h
      · have hx : r.first = x.toNat := by omega
        rwa [hx, Char.ofNat_toNat] at hword
    · exact absurd (lt_of_isLower h) hge

/-! ## What a plain word reads -/

/-- A word of lowercase ASCII letters. -/
structure PlainWord (word : Text) : Prop where
  ne_nil : word ≠ []
  isLower : ∀ c ∈ word, c.isLower = true

namespace PlainWord

variable {word : Text}

theorem trim_eq (h : PlainWord word) : word.trim = word := by
  have hinked : ∀ c ∈ word, isBlank c = false := fun c hc =>
    of_isLower (P := fun c => isBlank c = false) (by decide +kernel) (h.isLower c hc)
  exact Text.trim_eq_self (Text.startsInked_of_inked h.ne_nil hinked) (Text.endsInked_of_inked h.ne_nil hinked)

theorem entries_eq {words : List Text} (h : ∀ w ∈ words, PlainWord w) : WholeWord.entries words = words := by
  have htrim : words.map Text.trim = words := by
    rw [List.map_congr_left fun w hw => (h w hw).trim_eq, List.map_id']
  rw [WholeWord.entries, htrim, List.filter_eq_self]
  intro w hw
  simpa using (h w hw).ne_nil

theorem lowercase_eq (h : PlainWord word) : word.lowercase = word := by
  have hchar {c : Char} (hc : c.isLower = true) (before behind : Text) : lowercaseAt before c behind = [c] := by
    have hspecial : ¬ 'Σ'.isLower = true ∧ ¬ 'İ'.isLower = true := by decide
    have hsame : lowercaseChar c = c := of_isLower (P := fun c => lowercaseChar c = c) (by decide +kernel) hc
    rw [lowercaseAt, if_neg (by rintro rfl; exact hspecial.1 hc), if_neg (by rintro rfl; exact hspecial.2 hc), hsame]
  have hfrom (before : Text) : lowercaseFrom before word = word := by
    have hlower := h.isLower
    clear h
    induction word generalizing before with
    | nil => rfl
    | cons c r ih =>
      obtain ⟨hc, hr⟩ := List.forall_mem_cons.mp hlower
      rw [lowercaseFrom, hchar hc, ih _ hr]
      rfl
  exact hfrom []

end PlainWord

namespace Pattern

/-- A pattern that asserts nothing reaches as far as the texts of its language. -/
theorem reaches_iff_of_plain {p : Pattern} (hp : p.plain = true) {s t : Spot} :
    p.Reaches s t ↔ ∃ w ∈ p.language, s.Reads w t := by
  rw [← exists_mem_outcomes_iff_reaches p { spot := s } t]
  constructor
  · rintro ⟨u, hu, rfl⟩
    exact reads_language_of_mem_outcomes hu
  · rintro ⟨w, hw, hr⟩
    obtain ⟨u, hu, hru⟩ := exists_outcome (s := { spot := s }) hp hw hr.ahead_eq
    exact ⟨u, hu, hru.eq_of_reads hr⟩

theorem plain_litAnyCase (t : Text) : (litAnyCase t).plain = true := by
  rw [litAnyCase, plain_sequence, List.all_map]
  exact List.all_eq_true.mpr fun _ _ => rfl

theorem mem_language_litAnyCase {word w : Text} (h : ∀ c ∈ word, c.isLower = true) :
    w ∈ (litAnyCase word).language ↔ w.map foldChar = word := by
  rw [litAnyCase]
  induction word generalizing w with
  | nil => rw [List.map_eq_nil_iff]; exact Iff.rfl
  | cons c r ih =>
    obtain ⟨hc, hr⟩ := List.forall_mem_cons.mp h
    have hhas (x : Char) : (CharClass.folded (.only c)).has x = true ↔ foldChar x = c := by
      rw [← mem_caseOrbit_iff hc]
      simp [CharClass.has]
    rw [List.map_cons, language_sequence_cons, Language.mem_mul, List.map_eq_cons_iff]
    constructor
    · rintro ⟨_, ⟨x, hx, rfl⟩, v, hv, rfl⟩
      exact ⟨x, v, rfl, (hhas x).mp hx, (ih hr).mp hv⟩
    · rintro ⟨x, v, rfl, hx, hv⟩
      exact ⟨[x], ⟨x, (hhas x).mpr hx, rfl⟩, v, (ih hr).mpr hv, rfl⟩

theorem litAnyCase_reaches_iff {word : Text} (h : ∀ c ∈ word, c.isLower = true) {s t : Spot} :
    (litAnyCase word).Reaches s t ↔ ∃ w, w.map foldChar = word ∧ s.Reads w t := by
  simp only [reaches_iff_of_plain (plain_litAnyCase word), mem_language_litAnyCase h]

end Pattern

namespace PatternReader

theorem State.step_of_isLower {c : Char} (h : c.isLower = true) (st : State) (r : Text) :
    st.step c r = .ok ({ st with level := st.level.push (charPattern st.switches c) }, r) := by
  have hcapital : ∀ x ∈ ['(', ')', '|', '[', '*', '+', '?', '\x7b', '.', '^', '$', '\\'], x.isLower = false := by decide
  have hsigns : ∀ x ∈ ['(', ')', '|', '[', '*', '+', '?', '\x7b', '.', '^', '$', '\\'], c ≠ x := by
    rintro x hx rfl
    rw [hcapital c hx] at h
    cases h
  simp only [List.mem_cons, List.not_mem_nil, or_false, forall_eq_or_imp, forall_eq] at hsigns
  rw [State.step, readConstruct.eq_def]
  split <;> simp_all [Except.bind, Except.map, State.apply]

/-- A plain word is read letter by letter. -/
theorem State.run_plain {word : Text} (h : ∀ c ∈ word, c.isLower = true) (st : State) :
    st.run word = .ok { st with
      level := { st.level with
        pieces := (word.map fun c => some (charPattern st.switches c)).reverse ++ st.level.pieces } } := by
  induction word generalizing st with
  | nil => simp [State.run]
  | cons c r ih =>
    obtain ⟨hc, hr⟩ := List.forall_mem_cons.mp h
    rw [State.run_of_step r (State.step_of_isLower hc st r) (by simp), ih hr]
    simp [Level.push]

theorem entryReaches_plain_iff {word : Text} (h : ∀ c ∈ word, c.isLower = true) {s t : Spot} :
    EntryReaches word s t ↔ ∃ w, w.map foldChar = word ∧ s.Reads w t := by
  have hsequence : Pattern.sequence (word.map (charPattern anyCase)) = Pattern.litAnyCase word := rfl
  rw [← Pattern.litAnyCase_reaches_iff h, ← hsequence, EntryReaches]
  simp [State.run_plain h, Level.body_reaches_iff, State.start, Level.sequence]

end PatternReader

/-! ## Words in a text -/

/-- The word stands by itself somewhere in the text, in any case: no word goes on before or behind it. -/
def Text.HoldsWord (t word : Text) : Prop :=
  ∃ before w behind, t = before ++ w ++ behind ∧ w.map foldChar = word ∧
    before.getLast?.any isWordChar = false ∧ behind.head?.any isWordChar = false

/-- At the ends of word characters there are word edges unless a word goes on. -/
theorem Spot.Reads.isWordEdge_iff {s t : Spot} {w : Text} (h : s.Reads w t) (hne : w ≠ [])
    (hw : ∀ c ∈ w, isWordChar c = true) :
    (s.isWordEdge = true ↔ s.previous.any isWordChar = false) ∧
      (t.isWordEdge = true ↔ t.ahead.head?.any isWordChar = false) := by
  have hhead : s.ahead.head?.any isWordChar = true := by
    obtain ⟨c, r, rfl⟩ := List.exists_cons_of_ne_nil hne
    simpa [h.ahead_eq] using hw c List.mem_cons_self
  have hlast : t.previous.any isWordChar = true := by
    rw [h.previous_eq, List.getLast?_eq_some_getLast hne]
    exact hw _ (List.getLast_mem hne)
  simp [isWordEdge, hhead, hlast]

theorem PlainWord.holdsWord_iff {word : Text} (h : PlainWord word) {text : Text} : text.HoldsWord word ↔
    ∃ before s t, (Spot.start text).Reads before s ∧ s.isWordEdge = true ∧
      (∃ w, w.map foldChar = word ∧ s.Reads w t) ∧ t.isWordEdge = true := by
  have hword {w : Text} (hw : w.map foldChar = word) : w ≠ [] ∧ ∀ c ∈ w, isWordChar c = true := by
    subst hw
    exact ⟨by simpa using h.ne_nil, fun c hc => isWordChar_of_foldChar (h.isLower _ (List.mem_map_of_mem hc))⟩
  constructor
  · rintro ⟨before, w, behind, rfl, hw, hbefore, hbehind⟩
    obtain ⟨s, hs, hahead⟩ := (Spot.start (before ++ w ++ behind)).exists_reads (List.append_assoc before w behind)
    obtain ⟨t, ht, rfl⟩ := s.exists_reads hahead
    obtain ⟨hstarts, hends⟩ := ht.isWordEdge_iff (hword hw).1 (hword hw).2
    have hprevious : s.previous = before.getLast? := by
      rw [hs.previous_eq]
      exact Option.or_none
    exact ⟨before, s, t, hs, hstarts.mpr (hprevious ▸ hbefore), ⟨w, hw, ht⟩, hends.mpr hbehind⟩
  · rintro ⟨before, s, t, hs, hstart, ⟨w, hw, ht⟩, hend⟩
    obtain ⟨hstarts, hends⟩ := ht.isWordEdge_iff (hword hw).1 (hword hw).2
    have hprevious : s.previous = before.getLast? := by
      rw [hs.previous_eq]
      exact Option.or_none
    refine ⟨before, w, t.ahead, ?_, hw, hprevious ▸ hstarts.mp hstart, hends.mp hend⟩
    rw [List.append_assoc, ← ht.ahead_eq]
    exact hs.ahead_eq

/-- What is relied on of an engine for single words: between word edges and in any case, a word of lowercase ASCII letters stands
for itself. -/
def PatternEngine.FindsWords (E : PatternEngine) : Prop :=
  ∀ word, PlainWord word → ∀ m, E.compile (WholeWord.source [word]) = .ok m → ∀ t, (m t = true ↔ t.HoldsWord word)

theorem PatternEngine.backtracking_findsWords : backtracking.FindsWords := by
  intro word h m hm t
  have hwhole : backtracking.Whole word := by
    rw [PatternReader.whole_iff, PatternReader.State.run_plain h.isLower]
    intro f hf
    cases hf
  have hkeeps : PatternReader.KeepsSwitches word := by
    intro n hn
    rw [PatternReader.State.run_plain h.isLower] at hn
    cases hn
    rfl
  rw [backtrackingNotation.matches_source ⟨hwhole, hkeeps⟩ hm, h.holdsWord_iff]
  exact exists₃_congr fun before s u => and_congr_right fun _ => and_congr_right fun _ =>
    and_congr_left fun _ => PatternReader.entryReaches_plain_iff h.isLower

/-- A keyword pattern that is a plain word occurs where the word stands by itself. -/
theorem WholeWord.occursIn_word_iff {E : PatternEngine} (hE : E.FindsWords) {word : Text} (h : PlainWord word)
    {p : Option (Text → Bool)} (hp : read E [word] = .ok p) (t : Text) : occursIn p t = true ↔ t.HoldsWord word := by
  have hentries : entries [word] = [word] := PlainWord.entries_eq fun w hw => List.mem_singleton.mp hw ▸ h
  rw [read_of_ne_nil (by simp [hentries]), hentries] at hp
  cases hm : E.compile (source [word]) with
  | error f => simp [hm, Except.map] at hp
  | ok m =>
    obtain rfl : some m = p := by simpa [hm, Except.map] using hp
    exact hE word h m hm t

end SourceArchive
