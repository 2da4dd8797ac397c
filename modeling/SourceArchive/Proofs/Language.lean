import SourceArchive.Proofs.Reading
import SourceArchive.Proofs.Text
import Mathlib.Computability.Language

/-!
# The language of a pattern

What a pattern reads is a text of its language, and if it asserts nothing it can read each text of its language that
is ahead.  A search that looks for whole matches only can so be reasoned about by the texts it finds, whatever
order its outcomes come in.
-/

namespace SourceArchive

theorem Spot.Reads.ahead_of_append {s t : Spot} {v r : Text} (h : s.Reads v t) (hs : s.ahead = v ++ r) : t.ahead = r :=
  List.append_cancel_left (h.ahead_eq.symm.trans hs)

namespace Pattern

/-- The texts that a pattern reads, its assertions left aside. -/
def language : Pattern → Language Char
  | empty => 1
  | one c => {w | ∃ x, c.has x = true ∧ w = [x]}
  | seq a b => a.language * b.language
  | alt a b => a.language + b.language
  | star _ a => KStar.kstar a.language
  | capture _ a => a.language
  | assert _ => 1

/-- Whether a pattern asserts nothing. -/
def plain : Pattern → Bool
  | empty => true
  | one _ => true
  | seq a b => a.plain && b.plain
  | alt a b => a.plain && b.plain
  | star _ a => a.plain
  | capture _ a => a.plain
  | assert _ => false

/-! ## Outcomes and the language -/

theorem reads_language_of_mem_outcomes {p : Pattern} {s t : Progress} (ht : t ∈ p.outcomes s) :
    ∃ w ∈ p.language, s.spot.Reads w t.spot := by
  induction p generalizing s t with
  | empty =>
    obtain rfl : t = s := by simpa [outcomes] using ht
    exact ⟨[], rfl, .refl _⟩
  | one c =>
    obtain ⟨x, u, hn, hx, rfl⟩ := mem_outcomes_one.mp ht
    exact ⟨[x], ⟨x, hx, rfl⟩, Spot.reads_of_next? hn⟩
  | seq a b iha ihb =>
    obtain ⟨u, hu, ht⟩ := mem_outcomes_seq.mp ht
    obtain ⟨v, hv, hsu⟩ := iha hu
    obtain ⟨w, hw, hut⟩ := ihb ht
    exact ⟨v ++ w, Language.append_mem_mul hv hw, hsu.trans hut⟩
  | alt a b iha ihb =>
    rcases mem_outcomes_alt.mp ht with ht | ht
    · obtain ⟨w, hw, hr⟩ := iha ht
      exact ⟨w, Or.inl hw, hr⟩
    · obtain ⟨w, hw, hr⟩ := ihb ht
      exact ⟨w, Or.inr hw, hr⟩
  | star eager a ih =>
    refine rounds_induction (P := fun u => ∃ w ∈ (star eager a).language, s.spot.Reads w u.spot) ?_
      ⟨[], Language.nil_mem_kstar _, .refl _⟩ ht
    rintro u v ⟨w, hw, hsu⟩ hv
    obtain ⟨x, hx, huv⟩ := ih hv
    obtain ⟨ws, rfl, hws⟩ := Language.mem_kstar.mp hw
    refine ⟨ws.flatten ++ x, ?_, hsu.trans huv⟩
    have hall : ∀ y ∈ ws ++ [x], y ∈ a.language := by
      intro y hy
      rcases List.mem_append.mp hy with hy | hy
      · exact hws y hy
      · rwa [List.mem_singleton.mp hy]
    have hflat : (ws ++ [x]).flatten = ws.flatten ++ x := by simp
    rw [← hflat]
    exact Language.join_mem_kstar hall
  | capture n a ih =>
    obtain ⟨u, hu, rfl⟩ := mem_outcomes_capture.mp ht
    obtain ⟨w, hw, hr⟩ := ih hu
    exact ⟨w, hw, hr⟩
  | assert a =>
    obtain ⟨-, rfl⟩ := mem_outcomes_assert.mp ht
    exact ⟨[], rfl, .refl _⟩

/-- Each text of the language that is ahead is read by some outcome. -/
theorem exists_outcome {p : Pattern} (hp : p.plain = true) {s : Progress} {w r : Text} (hw : w ∈ p.language)
    (hs : s.spot.ahead = w ++ r) : ∃ t ∈ p.outcomes s, s.spot.Reads w t.spot := by
  induction p generalizing s w r with
  | empty =>
    obtain rfl : w = [] := hw
    exact ⟨s, by simp [outcomes], .refl _⟩
  | one c =>
    obtain ⟨x, hx, rfl⟩ := hw
    rcases hn : s.spot.next? with _ | ⟨y, u⟩
    · have hnil : s.spot.ahead = [] := by
        unfold Spot.next? at hn
        split at hn
        · assumption
        · simp at hn
      rw [hnil] at hs
      contradiction
    · have hr := Spot.reads_of_next? hn
      have hxy : y = x := by
        have := hr.ahead_eq.symm.trans hs
        simpa using (List.cons.inj this).1
      subst hxy
      exact ⟨{ s with spot := u }, mem_outcomes_one.mpr ⟨y, u, hn, hx, rfl⟩, hr⟩
  | seq a b iha ihb =>
    obtain ⟨ha, hb⟩ : a.plain = true ∧ b.plain = true := by simpa [plain] using hp
    obtain ⟨v, hv, x, hx, rfl⟩ := Language.mem_mul.mp hw
    rw [List.append_assoc] at hs
    obtain ⟨u, hu, hsu⟩ := iha ha hv hs
    obtain ⟨t, ht, hut⟩ := ihb hb hx (hsu.ahead_of_append hs)
    exact ⟨t, mem_outcomes_seq.mpr ⟨u, hu, ht⟩, hsu.trans hut⟩
  | alt a b iha ihb =>
    obtain ⟨ha, hb⟩ : a.plain = true ∧ b.plain = true := by simpa [plain] using hp
    rcases hw with hw | hw
    · obtain ⟨t, ht, hr⟩ := iha ha hw hs
      exact ⟨t, mem_outcomes_alt.mpr (Or.inl ht), hr⟩
    · obtain ⟨t, ht, hr⟩ := ihb hb hw hs
      exact ⟨t, mem_outcomes_alt.mpr (Or.inr ht), hr⟩
  | star eager a ih =>
    -- a round has to read something, so the text is cut into pieces that are not empty
    obtain ⟨ws, rfl, hws⟩ := Language.mem_kstar_iff_exists_nonempty.mp hw
    clear hw
    change ∃ t ∈ rounds eager a.outcomes s, _
    induction ws generalizing s with
    | nil => exact ⟨s, mem_rounds_iff.mpr (Or.inl rfl), .refl _⟩
    | cons v ws ihws =>
      obtain ⟨hv, hne⟩ := hws v List.mem_cons_self
      have hws' : ∀ y ∈ ws, y ∈ a.language ∧ y ≠ [] := fun y hy => hws y (List.mem_cons_of_mem _ hy)
      rw [List.flatten_cons, List.append_assoc] at hs
      obtain ⟨u, hu, hsu⟩ := ih hp hv hs
      have hlt : u.spot.left < s.spot.left := by
        have := List.length_pos_iff.mpr hne
        rw [hsu.left_eq]
        omega
      obtain ⟨t, ht, hut⟩ := ihws hws' (hsu.ahead_of_append hs)
      rw [List.flatten_cons]
      exact ⟨t, mem_rounds_iff.mpr (Or.inr ⟨u, hu, hlt, ht⟩), hsu.trans hut⟩
  | capture n a ih =>
    obtain ⟨u, hu, hr⟩ := ih hp hw hs
    exact ⟨close n s.spot u, mem_outcomes_capture.mpr ⟨u, hu, rfl⟩, hr⟩
  | assert a => contradiction

/-- A pattern that asserts nothing matches where a text of its language is ahead. -/
theorem exists_mem_outcomes_iff {p : Pattern} (hp : p.plain = true) {s : Progress} :
    (∃ t, t ∈ p.outcomes s) ↔ ∃ w ∈ p.language, w <+: s.spot.ahead := by
  constructor
  · intro h
    obtain ⟨t, ht⟩ := h
    obtain ⟨w, hw, hr⟩ := reads_language_of_mem_outcomes ht
    exact ⟨w, hw, t.spot.ahead, hr.ahead_eq.symm⟩
  · intro h
    obtain ⟨w, hw, r, hs⟩ := h
    obtain ⟨t, ht, -⟩ := exists_outcome hp hw hs.symm
    exact ⟨t, ht⟩

/-- The texts of the language are made of characters that the pattern can read. -/
theorem within_of_mem_language {P : Char → Prop} {p : Pattern} (hp : p.plain = true) (hP : p.Within P) {w : Text}
    (hw : w ∈ p.language) : ∀ x ∈ w, P x := by
  have hahead : (Spot.start w).ahead = w ++ [] := (List.append_nil w).symm
  obtain ⟨t, ht, hr⟩ := exists_outcome (s := { spot := Spot.start w }) hp hw hahead
  obtain ⟨v, hv, hPv⟩ := reads_of_within hP ht
  rw [← hr.take_eq, hv.take_eq]
  exact hPv

theorem not_mem_of_avoids {p : Pattern} {c : Char} {w : Text} (hp : p.plain = true) (h : p.avoids c = true)
    (hw : w ∈ p.language) : c ∉ w := fun hc => within_of_mem_language hp (within_of_avoids h) hw c hc rfl

/-! ## Composed patterns -/

theorem language_sequence_cons (p : Pattern) (ps : List Pattern) :
    (sequence (p :: ps)).language = p.language * (sequence ps).language := by
  cases ps with
  | nil => exact (mul_one _).symm
  | cons q qs => rfl

theorem append_mem_cons {p : Pattern} {ps : List Pattern} {v w : Text} (hv : v ∈ p.language)
    (hw : w ∈ (sequence ps).language) : v ++ w ∈ (sequence (p :: ps)).language := by
  rw [language_sequence_cons]
  exact Language.append_mem_mul hv hw

theorem exists_of_mem_cons {p : Pattern} {ps : List Pattern} {w : Text} (h : w ∈ (sequence (p :: ps)).language) :
    ∃ v ∈ p.language, ∃ r ∈ (sequence ps).language, w = v ++ r := by
  rw [language_sequence_cons] at h
  obtain ⟨v, hv, r, hr, rfl⟩ := Language.mem_mul.mp h
  exact ⟨v, hv, r, hr, rfl⟩

theorem language_sequence_append (ps qs : List Pattern) :
    (sequence (ps ++ qs)).language = (sequence ps).language * (sequence qs).language := by
  induction ps with
  | nil => exact (one_mul _).symm
  | cons p ps ih => rw [List.cons_append, language_sequence_cons, language_sequence_cons, ih, mul_assoc]

theorem append_mem_append {ps qs : List Pattern} {v w : Text} (hv : v ∈ (sequence ps).language)
    (hw : w ∈ (sequence qs).language) : v ++ w ∈ (sequence (ps ++ qs)).language := by
  rw [language_sequence_append]
  exact Language.append_mem_mul hv hw

theorem exists_of_mem_append {ps qs : List Pattern} {w : Text} (h : w ∈ (sequence (ps ++ qs)).language) :
    ∃ v ∈ (sequence ps).language, ∃ r ∈ (sequence qs).language, w = v ++ r := by
  rw [language_sequence_append] at h
  obtain ⟨v, hv, r, hr, rfl⟩ := Language.mem_mul.mp h
  exact ⟨v, hv, r, hr, rfl⟩

@[simp] theorem mem_language_lit {t w : Text} : w ∈ (lit t).language ↔ w = t := by
  rw [lit]
  induction t generalizing w with
  | nil => exact Iff.rfl
  | cons c t ih =>
    rw [List.map_cons, language_sequence_cons, Language.mem_mul]
    constructor
    · rintro ⟨_, ⟨x, hx, rfl⟩, v, hv, rfl⟩
      rw [ih.mp hv]
      simpa [CharClass.has] using hx
    · rintro rfl
      exact ⟨[c], ⟨c, by simp [CharClass.has], rfl⟩, t, ih.mpr rfl, rfl⟩

theorem lit_mem (t : Text) : t ∈ (lit t).language := mem_language_lit.mpr rfl

theorem plain_sequence (ps : List Pattern) : (sequence ps).plain = ps.all plain := by
  induction ps with
  | nil => rfl
  | cons p ps ih =>
    cases ps with
    | nil => exact (Bool.and_true _).symm
    | cons q qs =>
      rw [List.all_cons, ← ih]
      rfl

theorem plain_lit (t : Text) : (lit t).plain = true := by
  rw [lit, plain_sequence, List.all_map]
  exact List.all_eq_true.mpr fun _ _ => rfl

/-- Texts that follow one another are one text. -/
theorem language_lit_mul_lit (t u : Text) : (lit t).language * (lit u).language = (lit (t ++ u)).language := by
  rw [lit, lit, lit, List.map_append, language_sequence_append]

theorem mem_language_many_one {c : CharClass} {w : Text} :
    w ∈ (many (one c)).language ↔ ∀ x ∈ w, c.has x = true := by
  constructor
  · exact fun hw => within_of_mem_language (p := many (one c)) rfl (fun x hx => hx) hw
  · intro h
    have hflat : w = (w.map fun x => [x]).flatten := by rw [← List.flatMap_def, List.flatMap_singleton']
    refine Language.mem_kstar.mpr ⟨w.map fun x => [x], hflat, ?_⟩
    intro y hy
    obtain ⟨x, hx, rfl⟩ := List.mem_map.mp hy
    exact ⟨x, h x hx, rfl⟩

theorem mem_language_many1_one {c : CharClass} {w : Text} :
    w ∈ (many1 (one c)).language ↔ w ≠ [] ∧ ∀ x ∈ w, c.has x = true := by
  rw [many1, language, Language.mem_mul]
  constructor
  · rintro ⟨_, ⟨x, hx, rfl⟩, v, hv, rfl⟩
    refine ⟨by simp, ?_⟩
    rw [List.forall_mem_append, List.forall_mem_singleton]
    exact ⟨hx, mem_language_many_one.mp hv⟩
  · rintro ⟨hne, h⟩
    obtain ⟨x, v, rfl⟩ := List.exists_cons_of_ne_nil hne
    obtain ⟨hx, hv⟩ := List.forall_mem_cons.mp h
    exact ⟨[x], ⟨x, hx, rfl⟩, v, mem_language_many_one.mpr hv, rfl⟩

theorem mem_language_blanks {w : Text} : w ∈ blanks.language ↔ Text.Blank w := mem_language_many_one

theorem mem_language_blanks1 {w : Text} : w ∈ blanks1.language ↔ w ≠ [] ∧ Text.Blank w := mem_language_many1_one

theorem nil_mem_blanks : [] ∈ blanks.language := mem_language_blanks.mpr Text.blank_nil

theorem space_mem_blanks : [' '] ∈ blanks.language := mem_language_blanks.mpr Text.blank_space

theorem space_mem_blanks1 : [' '] ∈ blanks1.language := mem_language_blanks1.mpr ⟨List.cons_ne_nil _ _, Text.blank_space⟩

theorem nil_mem_sequence : [] ∈ (sequence []).language := Language.nil_mem_one

/-- A fixed text and a space. -/
theorem keyword_mem (t : Text) {ps : List Pattern} {w : Text} (h : w ∈ (sequence ps).language) :
    t ++ ([' '] ++ w) ∈ (sequence (lit t :: blanks1 :: ps)).language :=
  append_mem_cons (lit_mem t) (append_mem_cons space_mem_blanks1 h)

theorem mem_language_many_noneOf {c : Char} {w : Text} : w ∈ (many (noneOf [c])).language ↔ c ∉ w := by
  rw [noneOf, mem_language_many_one]
  constructor
  · intro h hc
    exact CharClass.has_noneOf_iff.mp (h c hc) List.mem_cons_self
  · intro h x hx
    rw [CharClass.has_noneOf_iff, List.mem_singleton]
    rintro rfl
    exact h hx

theorem mem_language_word {w : Text} : w ∈ word.language ↔ w ≠ [] ∧ ∀ x ∈ w, isWordChar x = true :=
  mem_language_many1_one

/-! ## Whole matches -/

/-- A text of the language stands at the beginning of a text and ends where a word ends. -/
def StandsAt (l : Language Char) (t : Text) : Prop := ∃ w ∈ l, ∃ r, t = w ++ r ∧ r.head?.any isWordChar = false

section Whole

variable {ps : List Pattern} (hplain : (sequence ps).plain = true)
  (hend : ∀ w ∈ (sequence ps).language, w.getLast?.any isWordChar = true)

include hend in
theorem reads_of_at? {s : Spot} {m : Match} (h : (sequence (ps ++ [assert .wordEdge])).at? s = some m) :
    ∃ w ∈ (sequence ps).language, s.Reads w m.closed.spot ∧ m.behind.head?.any isWordChar = false := by
  obtain ⟨t, ht, rfl⟩ := Option.map_eq_some_iff.mp h
  rw [best?_eq_head?] at ht
  obtain ⟨u, hu, ht⟩ := mem_outcomes_sequence_append.mp (List.mem_of_mem_head? ht)
  obtain ⟨hedge, rfl⟩ := mem_outcomes_assert.mp ht
  obtain ⟨w, hw, hr⟩ := reads_language_of_mem_outcomes hu
  have hlast := hend w hw
  refine ⟨w, hw, hr, ?_⟩
  rcases hx : w.getLast? with _ | x
  · simp [hx] at hlast
  · rw [hx, Option.any_some] at hlast
    simpa [Assertion.holdsAt, Spot.isWordEdge, hr.previous_eq, hx, hlast, Match.behind] using hedge

include hplain hend in
theorem isSome_at?_iff {s : Spot} :
    ((sequence (ps ++ [assert .wordEdge])).at? s).isSome = true ↔ StandsAt (sequence ps).language s.ahead := by
  constructor
  · intro h
    obtain ⟨m, hm⟩ := Option.isSome_iff_exists.mp h
    obtain ⟨w, hw, hr, hhead⟩ := reads_of_at? hend hm
    exact ⟨w, hw, m.behind, hr.ahead_eq, hhead⟩
  · rintro ⟨w, hw, r, hahead, hhead⟩
    obtain ⟨u, hu, hr⟩ := exists_outcome (s := { spot := s }) hplain hw hahead
    have hlast := hend w hw
    have hedge : Assertion.wordEdge.holdsAt u.spot = true := by
      rcases hx : w.getLast? with _ | x
      · simp [hx] at hlast
      · rw [hx, Option.any_some] at hlast
        simp [Assertion.holdsAt, Spot.isWordEdge, hr.previous_eq, hx, hlast, hr.ahead_of_append hahead, hhead]
    have hmem : u ∈ (sequence (ps ++ [assert .wordEdge])).outcomes { spot := s } :=
      mem_outcomes_sequence_append.mpr ⟨u, hu, mem_outcomes_assert.mpr ⟨hedge, rfl⟩⟩
    rw [at?, Option.isSome_map, best?_eq_head?, List.isSome_head?]
    simp [List.ne_nil_of_mem hmem]

end Whole

end Pattern

end SourceArchive
