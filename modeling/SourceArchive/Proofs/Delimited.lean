import SourceArchive.Check.Evidence
import SourceArchive.Proofs.Text

/-!
# Words between delimiters

`Text.occurrences` goes from left to right and steps over what it found, so it can miss a place where a word stands.  It
misses none where the character before the word is not one of the word (`mem_occurrences`).  Words that stand between
delimiters are therefore found wherever the text around them goes: in lines, in pieces between commas, in trimmed texts.
-/

namespace SourceArchive

open Evidenced

namespace Text

/-! ## Occurrences -/

/-- A word that begins behind a character which it does not hold is found. -/
theorem mem_occurrencesAfter {w a b : Text} (hw : w ≠ []) (ha : ∀ c ∈ a.getLast?, c ∉ w) (previous : Option Char) :
    ⟨a.getLast?.or previous, b⟩ ∈ occurrencesAfter w previous (a ++ w ++ b) := by
  induction hn : a.length using Nat.strongRecOn generalizing a previous with
  | ind n ih =>
    rw [occurrencesAfter.eq_def]
    cases a with
    | nil => simp
    | cons c a =>
      have hnext : ⟨(c :: a).getLast?.or previous, b⟩ ∈ occurrencesAfter w (some c) (a ++ w ++ b) := by
        have hlast : (c :: a).getLast?.or previous = a.getLast?.or (some c) := by
          rw [List.getLast?_cons]
          cases a.getLast? <;> rfl
        rw [hlast]
        refine ih a.length (by simp [← hn]) (fun d hd => ha d ?_) (some c) rfl
        rw [List.getLast?_cons, Option.mem_def.mp hd]
        rfl
      rcases h : after? (c :: a ++ w ++ b) w with _ | rest
      · exact hnext
      · have hrest : w ++ rest = c :: a ++ w ++ b := after?_eq_some_iff.mp h
        have hpos : 0 < w.length := List.length_pos_iff.mpr hw
        have hlt : rest.length < (c :: a ++ w ++ b).length := by
          rw [← hrest, List.length_append]
          omega
        dsimp only
        rw [if_pos hlt]
        refine List.mem_cons_of_mem _ ?_
        -- what was found ends before the word begins, since it would hold the character before it
        rw [List.append_assoc] at hrest
        rcases List.append_eq_append_iff.mp hrest with ⟨a', ha', rfl⟩ | ⟨x, hx, -⟩
        · have hlen : a'.length < n := by
            rw [← hn, ha', List.length_append]
            omega
          rw [ha', List.getLast?_append, Option.or_assoc, ← List.append_assoc]
          refine ih _ hlen (fun d hd => ha d ?_) _ rfl
          rw [ha', List.getLast?_append, Option.mem_def.mp hd, Option.some_or]
          rfl
        · have hmem : (c :: a).getLast (by simp) ∈ w := by
            rw [hx]
            exact List.mem_append_left _ (List.getLast_mem _)
          exact absurd hmem (ha _ (List.getLast?_eq_some_getLast _))

theorem mem_occurrences {w a b : Text} (hw : w ≠ []) (ha : ∀ c ∈ a.getLast?, c ∉ w) :
    ⟨a.getLast?, b⟩ ∈ (a ++ w ++ b).occurrences w := by
  have h := mem_occurrencesAfter (b := b) hw ha none
  rwa [Option.or_none] at h

/-- The word was found between what was passed over and what follows. -/
def FoundIn (w : Text) (previous : Option Char) (t : Text) (o : Occurrence) : Prop :=
  ∃ a, t = a ++ w ++ o.behind ∧ o.previous = a.getLast?.or previous

theorem FoundIn.append {w t : Text} {previous : Option Char} {o : Occurrence} (v : Text)
    (h : FoundIn w (v.getLast?.or previous) t o) : FoundIn w previous (v ++ t) o := by
  obtain ⟨a, rfl, hprevious⟩ := h
  refine ⟨v ++ a, by simp only [List.append_assoc], hprevious.trans ?_⟩
  rw [List.getLast?_append, Option.or_assoc]

theorem foundIn_of_mem_occurrencesAfter {w t : Text} {previous : Option Char} {o : Occurrence}
    (h : o ∈ occurrencesAfter w previous t) : FoundIn w previous t o := by
  fun_induction occurrencesAfter w previous t with
  | case1 previous t rest hfound hnext hover =>
    have ht : w ++ rest = t := after?_eq_some_iff.mp hfound
    cases h with
    | head => exact ⟨[], ht.symm, rfl⟩
    | tail _ h =>
      by_cases hlt : rest.length < t.length
      · rw [if_pos hlt] at h
        rw [← ht]
        exact (hnext hlt h).append w
      · rw [if_neg hlt] at h
        cases t with
        | nil => cases h
        | cons c r => exact (hover h).append [c]
  | case2 => cases h
  | case3 previous c r hnone ih => exact (ih h).append [c]

/-! ## Delimiters -/

/-- A text stands in another with delimiters on both sides, or nothing. -/
def Delimited (d : Char → Prop) (x t : Text) : Prop :=
  ∃ a b, t = a ++ x ++ b ∧ (∀ c ∈ a.getLast?, d c) ∧ ∀ c ∈ b.head?, d c

variable {d : Char → Prop} {x t u : Text}

theorem Delimited.refl (d : Char → Prop) (x : Text) : Delimited d x x := ⟨[], [], by simp, by simp, by simp⟩

theorem Delimited.trans (h : Delimited d x t) (h' : Delimited d t u) : Delimited d x u := by
  obtain ⟨a, b, rfl, ha, hb⟩ := h
  obtain ⟨a', b', rfl, ha', hb'⟩ := h'
  refine ⟨a' ++ a, b ++ b', by simp only [List.append_assoc], fun c hc => ?_, fun c hc => ?_⟩
  · rw [List.getLast?_append] at hc
    rcases h : a.getLast? with _ | e
    · exact ha' c (by simpa [h] using hc)
    · exact ha c (by simpa [h] using hc)
  · rw [List.head?_append] at hc
    rcases h : b.head? with _ | e
    · exact hb' c (by simpa [h] using hc)
    · exact hb c (by simpa [h] using hc)

theorem Delimited.isInfix (h : Delimited d x t) : x <:+: t := by
  obtain ⟨a, b, rfl, -, -⟩ := h
  exact ⟨a, b, rfl⟩

/-- Delimiters that stand in the text are what counts. -/
theorem Delimited.imp {e : Char → Prop} (h : Delimited d x t) (himp : ∀ c ∈ t, d c → e c) : Delimited e x t := by
  obtain ⟨a, b, rfl, ha, hb⟩ := h
  refine ⟨a, b, rfl, fun c hc => himp c ?_ (ha c hc), fun c hc => himp c ?_ (hb c hc)⟩
  · simp [List.mem_of_getLast? hc]
  · simp [List.mem_of_head? hc]

/-- A trimmed text stands between blanks. -/
theorem delimited_trim (t : Text) : Delimited (isBlank · = true) t.trim t := by
  rcases blank_or_exists_trim t with h | ⟨a, m, b, rfl, ha, hs, he, hb⟩
  · rw [h.trim_eq]
    exact ⟨t, [], by simp, fun c hc => h c (List.mem_of_getLast? hc), by simp⟩
  · rw [trim_of_parts ha hs he hb]
    exact ⟨a, b, rfl, fun c hc => ha c (List.mem_of_getLast? hc), fun c hc => hb c (List.mem_of_head? hc)⟩

theorem delimited_of_mem_join {sep : Char} {ts : List Text} (h : x ∈ ts) : Delimited (· = sep) x (join [sep] ts) := by
  induction ts with
  | nil => simp at h
  | cons p ts ih =>
    rcases List.mem_cons.mp h with rfl | h
    · cases ts with
      | nil =>
        rw [join_singleton]
        exact .refl _ _
      | cons q ts => exact ⟨[], sep :: join [sep] (q :: ts), by simp [join_cons_cons], by simp, by simp⟩
    · obtain ⟨q, qs, rfl⟩ := List.exists_cons_of_ne_nil (List.ne_nil_of_mem h)
      exact (ih h).trans ⟨p ++ [sep], [], by simp [join_cons_cons], by simp, by simp⟩

/-- A piece stands between the separators that the text was cut at. -/
theorem delimited_of_mem_splitAt {sep : Char} (h : x ∈ splitAt sep t) : Delimited (· = sep) x t := by
  have hpiece : Delimited (· = sep) x (join [sep] (splitAt sep t)) := delimited_of_mem_join h
  rwa [join_splitAt] at hpiece

theorem delimited_of_mem_joinLines {ls : List Text} (h : x ∈ ls) : Delimited (· = '\n') x (joinLines ls) :=
  delimited_of_mem_join h

/-- A text without line feeds stands in one of the lines. -/
theorem Delimited.exists_line (hx : '\n' ∉ x) (hne : x ≠ []) {ls : List Text} (h : Delimited d x (joinLines ls)) :
    ∃ l ∈ ls, Delimited d x l := by
  induction ls with
  | nil =>
    obtain ⟨a, b, heq, -, -⟩ := h
    have hnil : a ++ x ++ b = [] := heq.symm
    simp [hne] at hnil
  | cons l ls ih =>
    cases ls with
    | nil =>
      rw [joinLines, join_singleton] at h
      exact ⟨l, List.mem_cons_self, h⟩
    | cons k ls =>
      obtain ⟨a, b, heq, ha, hb⟩ := h
      have hcut : l ++ '\n' :: joinLines (k :: ls) = a ++ (x ++ b) := by
        have hjoin : joinLines (l :: k :: ls) = l ++ ['\n'] ++ joinLines (k :: ls) := join_cons_cons _ _ _ _
        rw [← List.append_assoc, ← heq, hjoin, List.append_assoc]
        rfl
      rcases List.append_eq_append_iff.mp hcut with ⟨z, rfl, hz⟩ | ⟨z, rfl, hz⟩
      · cases z with
        | nil =>
          -- the line feed would be in the text
          obtain ⟨c, x, rfl⟩ := List.exists_cons_of_ne_nil hne
          obtain rfl : '\n' = c := (List.cons.inj hz).1
          exact absurd List.mem_cons_self hx
        | cons c z =>
          obtain ⟨rfl, htail⟩ := List.cons.inj hz
          have hrest : Delimited d x (joinLines (k :: ls)) := by
            refine ⟨z, b, by rw [htail, List.append_assoc]; rfl, fun c hc => ha c ?_, hb⟩
            rw [List.getLast?_append, List.getLast?_cons, Option.mem_def.mp hc]
            rfl
          obtain ⟨l', hl', h⟩ := ih hrest
          exact ⟨l', List.mem_cons_of_mem _ hl', h⟩
      · refine ⟨_, List.mem_cons_self, ?_⟩
        rcases List.append_eq_append_iff.mp hz with ⟨y, rfl, rfl⟩ | ⟨y, rfl, hy⟩
        · refine ⟨a, y, by rw [List.append_assoc], ha, fun c hc => hb c ?_⟩
          rw [List.head?_append, Option.mem_def.mp hc]
          rfl
        · cases y with
          | nil => exact ⟨a, [], by simp, ha, by simp⟩
          | cons c y =>
            obtain rfl : '\n' = c := (List.cons.inj hy).1
            exact absurd (by simp) hx

/-- The carriage return at the end of a line is no part of such a text. -/
theorem Delimited.dropReturn {l : Text} (hx : '\r' ∉ x) (hne : x ≠ []) (h : Delimited d x l) :
    Delimited d x (dropReturn l) := by
  rcases dropReturn_eq_or l with he | he
  · rwa [he]
  · obtain ⟨a, b, heq, ha, hb⟩ := h
    rcases List.eq_nil_or_concat' b with rfl | ⟨b, c, rfl⟩
    · have hlast := congrArg List.getLast? (he.symm.trans heq)
      rw [List.getLast?_concat, List.append_nil, List.getLast?_append_of_ne_nil _ hne] at hlast
      exact absurd (List.mem_of_getLast? hlast.symm) hx
    · rw [he, ← List.append_assoc] at heq
      refine ⟨a, b, (List.append_inj' heq rfl).1, ha, fun e he => hb e ?_⟩
      rw [List.head?_append, Option.mem_def.mp he]
      rfl

end Text

namespace Evidenced

theorem inWord_of_isIdentifierChar {c : Char} (h : isIdentifierChar c = false) : inWord c = false := by
  simp only [isIdentifierChar, Bool.or_eq_false_iff] at h
  rw [inWord, h.1.1, h.1.2]
  rfl

/-- Of ASCII characters, the check takes those for word characters that patterns do. -/
theorem inWord_eq_isWordChar {c : Char} (h : c.toNat < 128) : inWord c = isWordChar c := by
  have hcodes : ∀ n < 128, inWord (Char.ofNat n) = isWordChar (Char.ofNat n) := by decide +kernel
  rw [← Char.ofNat_toNat c]
  exact hcodes _ h

/-- A word between characters that are neither of words nor its own is found. -/
theorem hasWord_of_delimited {x t : Text} (hne : x ≠ [])
    (h : Text.Delimited (fun c => inWord c = false ∧ c ∉ x) x t) : hasWord t x = true := by
  obtain ⟨a, b, rfl, ha, hb⟩ := h
  have hfound := Text.mem_occurrences (b := b) hne fun c hc => (ha c hc).2
  have hbefore : a.getLast?.any inWord = false := by
    rw [Option.any_eq_false]
    exact fun c hc => by simp [(ha c hc).1]
  have hbehind : b.head?.any inWord = false := by
    rw [Option.any_eq_false]
    exact fun c hc => by simp [(hb c hc).1]
  simp only [hasWord, Bool.and_eq_true, Bool.not_eq_true', List.isEmpty_eq_false_iff]
  refine ⟨hne, List.any_eq_true.mpr ⟨_, hfound, ?_⟩⟩
  simp [hbefore, hbehind]

end Evidenced

end SourceArchive
