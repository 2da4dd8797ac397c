import SourceArchive.Proofs.Delimited
import SourceArchive.Proofs.Facts
import SourceArchive.Proofs.Spacing

/-!
# Where bound names and called hooks stand

The names of import clauses are cut out of what was captured, at commas and at the word `as`, and are trimmed.  Wherever
they come from, what stands next to them in the code is a blank, a comma or a curly bracket (`delimited_of_mem_bindingsIn`).
The name of a hook that is called stands between characters that are not of words.
-/

namespace SourceArchive

open Text Pattern

/-! ## Edges of languages -/

/-- Each text is not empty and ends in a delimiter. -/
def EndsIn (d : Char → Prop) (l : Language Char) : Prop := ∀ w ∈ l, ∃ c ∈ w.getLast?, d c

/-- Each text is not empty and begins with a delimiter. -/
def StartsIn (d : Char → Prop) (l : Language Char) : Prop := ∀ w ∈ l, ∃ c ∈ w.head?, d c

section Edges

variable {d : Char → Prop} {l m : Language Char}

theorem EndsIn.mul (hm : EndsIn d m) (l : Language Char) : EndsIn d (l * m) := by
  rintro _ ⟨v, -, w, hw, rfl⟩
  obtain ⟨c, hc, hd⟩ := hm w hw
  refine ⟨c, ?_, hd⟩
  rw [List.getLast?_append, Option.mem_def.mp hc]
  rfl

theorem StartsIn.mul (hl : StartsIn d l) (m : Language Char) : StartsIn d (l * m) := by
  rintro _ ⟨v, hv, w, -, rfl⟩
  obtain ⟨c, hc, hd⟩ := hl v hv
  refine ⟨c, ?_, hd⟩
  rw [List.head?_append, Option.mem_def.mp hc]
  rfl

theorem EndsIn.add (hl : EndsIn d l) (hm : EndsIn d m) : EndsIn d (l + m) := fun w hw => hw.elim (hl w) (hm w)

theorem endsIn_lit {t : Text} (h : ∃ c ∈ t.getLast?, d c) : EndsIn d (lit t).language := by
  intro w hw
  rwa [mem_language_lit.mp hw]

theorem startsIn_lit {t : Text} (h : ∃ c ∈ t.head?, d c) : StartsIn d (lit t).language := by
  intro w hw
  rwa [mem_language_lit.mp hw]

section Blank

variable (hd : ∀ c, isBlank c = true → d c)

include hd

theorem endsIn_blanks1 : EndsIn d blanks1.language := by
  intro w hw
  obtain ⟨hne, hb⟩ := mem_language_blanks1.mp hw
  exact ⟨_, List.getLast?_eq_some_getLast hne, hd _ (hb _ (List.getLast_mem hne))⟩

theorem startsIn_blanks1 : StartsIn d blanks1.language := by
  intro w hw
  obtain ⟨hne, hb⟩ := mem_language_blanks1.mp hw
  exact ⟨_, List.head?_eq_some_head hne, hd _ (hb _ (List.head_mem hne))⟩

theorem EndsIn.mul_blanks (hl : EndsIn d l) : EndsIn d (l * blanks.language) := by
  rintro _ ⟨v, hv, w, hw, rfl⟩
  by_cases hne : w = []
  · subst hne
    simpa using hl v hv
  · refine ⟨w.getLast hne, ?_, hd _ (mem_language_blanks.mp hw _ (List.getLast_mem hne))⟩
    rw [List.getLast?_append_of_ne_nil _ hne]
    exact List.getLast?_eq_some_getLast hne

theorem StartsIn.blanks_mul (hm : StartsIn d m) : StartsIn d (blanks.language * m) := by
  rintro _ ⟨v, hv, w, hw, rfl⟩
  cases v with
  | nil => exact hm w hw
  | cons c v => exact ⟨c, rfl, hd c (mem_language_blanks.mp hv c List.mem_cons_self)⟩

end Blank

end Edges

/-- A captured text stands between delimiters if all its frames begin and end with them. -/
theorem IsMatch.delimited {p : Pattern} {code : Text} {m : Match} (h : IsMatch p code m) {d : Char → Prop} {n : Nat}
    (hf : ∀ f ∈ p.frames n, EndsIn d f.before ∧ StartsIn d f.behind) {x : Text} (hx : m.group? n = some x) :
    Delimited d x code := by
  obtain ⟨f, hmem, -, a, ha, b, hb, u, v, rfl⟩ := h.exists_frame hx
  obtain ⟨hends, hstarts⟩ := hf f hmem
  obtain ⟨e, he, hde⟩ := hends a ha
  obtain ⟨g, hg, hdg⟩ := hstarts b hb
  refine ⟨u ++ a, b ++ v, by simp only [List.append_assoc], fun c hc => ?_, fun c hc => ?_⟩
  · rw [List.getLast?_append, Option.mem_def.mp he, Option.some_or] at hc
    obtain rfl : e = c := Option.some.inj hc
    exact hde
  · rw [List.head?_append, Option.mem_def.mp hg, Option.some_or] at hc
    obtain rfl : g = c := Option.some.inj hc
    exact hdg

/-! ## Import clauses -/

namespace Imports

/-- What can stand next to a bound name. -/
def Beside : Char → Prop := BlankOr [',', '\x7b', '\x7d']

theorem beside_frames {n : Nat} (hn : n ∈ [1, 2, 3]) :
    ∀ f ∈ boundImport.frames n, EndsIn Beside f.before ∧ StartsIn Beside f.behind := by
  have hblank : ∀ c, isBlank c = true → Beside c := fun _ => Or.inl
  have hcomma : Beside ',' := Or.inr (by decide)
  have hends : EndsIn Beside blanks1.language := endsIn_blanks1 hblank
  have hstarts : StartsIn Beside blanks1.language := startsIn_blanks1 hblank
  simp only [List.mem_cons, List.not_mem_nil, or_false] at hn
  rcases hn with rfl | rfl | rfl <;> refine List.forall_mem_singleton.mpr ⟨?_, ?_⟩
  · -- a default before a comma
    change EndsIn Beside ((lit "import").language * (blanks1.language * 1))
    rw [mul_one]
    exact hends.mul _
  · change StartsIn Beside (1 * (sequence [blanks, lit ",", blanks]).language * _)
    rw [one_mul]
    exact (StartsIn.blanks_mul hblank ((startsIn_lit ⟨',', rfl, hcomma⟩).mul _)).mul _
  · -- names in brackets
    change EndsIn Beside (_ * (_ * (_ * ((lit ['\x7b']).language * 1))))
    rw [mul_one]
    exact (((endsIn_lit ⟨'\x7b', rfl, Or.inr (by decide)⟩).mul _).mul _).mul _
  · change StartsIn Beside (1 * (lit ['\x7d']).language * _)
    rw [one_mul]
    exact (startsIn_lit ⟨'\x7d', rfl, Or.inr (by decide)⟩).mul _
  · -- a lone default, perhaps behind another default
    change EndsIn Beside (_ * (blanks1.language * (((sequence [capture 1 word, blanks, lit ",", blanks]).language + 1) * 1)))
    rw [mul_one, mul_add, mul_one]
    have hbehind : EndsIn Beside (sequence [capture 1 word, blanks, lit ",", blanks]).language :=
      (EndsIn.mul_blanks hblank (endsIn_lit ⟨',', rfl, hcomma⟩)).mul _ |>.mul _
    exact ((hbehind.mul _).add hends).mul _
  · change StartsIn Beside (1 * (blanks1.language * _))
    rw [one_mul]
    exact hstarts.mul _

theorem exists_of_afterLast? {pattern t rest : Text} (h : afterLast? pattern t = some rest) :
    ∃ a, t = a ++ pattern ++ rest := by
  induction t generalizing rest with
  | nil => simp [afterLast?] at h
  | cons c r ih =>
    rw [afterLast?] at h
    split at h
    · rename_i found hf
      obtain rfl : found = rest := by simpa using h
      obtain ⟨a, rfl⟩ := ih hf
      exact ⟨c :: a, rfl⟩
    · exact ⟨[], (after?_eq_some_iff.mp h).symm⟩

theorem delimited_of_entryName? {entry name : Text} (h : entryName? entry = some name) :
    Delimited (isBlank · = true) name entry := by
  simp only [entryName?, Option.ite_none_left_eq_some, Option.some.injEq] at h
  obtain ⟨-, rfl⟩ := h
  refine (delimited_trim _).trans (Delimited.trans ?_ (delimited_trim entry))
  rcases h : afterLast? " as " entry.trim with _ | rest
  · exact .refl _ _
  · obtain ⟨a, ha⟩ := exists_of_afterLast? h
    refine ⟨a ++ " as ".toList, [], by simpa using ha, fun c hc => ?_, by simp⟩
    rw [List.getLast?_append] at hc
    obtain rfl : ' ' = c := Option.some.inj hc
    decide

theorem delimited_of_mem_bindingsOf {ignored : List Text} {code : Text} {m : Match} {b : ImportBinding}
    (hm : IsMatch boundImport code m) (h : b ∈ bindingsOf ignored m) : Delimited Beside b.name code := by
  obtain ⟨name, hname, rfl⟩ := List.mem_map.mp h
  rcases List.mem_append.mp hname with hd | he
  · have hgroup : m.group? 1 = some name ∨ m.group? 3 = some name := by
      simpa [eq_comm] using (List.mem_filter.mp hd).1
    exact hgroup.elim (hm.delimited (beside_frames (by decide))) (hm.delimited (beside_frames (by decide)))
  · rcases hg : m.group? 2 with _ | braced
    · simp [hg] at he
    · simp only [hg] at he
      obtain ⟨entry, hentry, hn⟩ := List.mem_filterMap.mp he
      have hinner : Delimited Beside name entry := (delimited_of_entryName? hn).imp fun c _ hc => Or.inl hc
      have hpiece : Delimited Beside entry braced := by
        refine (delimited_of_mem_splitAt hentry).imp ?_
        rintro c - rfl
        exact Or.inr (by decide)
      exact (hinner.trans hpiece).trans (hm.delimited (beside_frames (by decide)) hg)

theorem mem_of_mem_bind {bindings : List ImportBinding} {new b : ImportBinding} (h : b ∈ bind bindings new) :
    b ∈ bindings ∨ b = new := by
  unfold bind at h
  split at h
  · exact Or.inl h
  · split at h
    · obtain ⟨a, ha, hb⟩ := List.mem_map.mp h
      split at hb
      · exact Or.inr hb.symm
      · exact Or.inl (hb ▸ ha)
    · simpa using h

theorem mem_of_mem_foldl_bind {bindings news : List ImportBinding} {b : ImportBinding}
    (h : b ∈ news.foldl bind bindings) : b ∈ bindings ∨ b ∈ news := by
  induction news generalizing bindings with
  | nil => exact Or.inl h
  | cons new news ih =>
    rcases ih h with h | h
    · rcases mem_of_mem_bind h with h | rfl
      · exact Or.inl h
      · exact Or.inr List.mem_cons_self
    · exact Or.inr (List.mem_cons_of_mem _ h)

/-- A bound name stands in the code, with nothing of its own kind beside it. -/
theorem delimited_of_mem_bindingsIn {ignored : List Text} {code : Text} {b : ImportBinding}
    (h : b ∈ bindingsIn ignored code) : Delimited Beside b.name code := by
  rcases mem_of_mem_foldl_bind h with h | h
  · simp at h
  · obtain ⟨m, hm, hb⟩ := List.mem_flatMap.mp h
    exact delimited_of_mem_bindingsOf (isMatch_of_mem_matchesIn hm) hb

end Imports

/-! ## Called hooks -/

namespace DependencyTree

theorem isWordChar_of_capital {c : Char} (h : (CharClass.range 'A' 'Z').has c = true) : isWordChar c = true := by
  have hcodes : ∀ n < 91, 65 ≤ n → isWordChar (Char.ofNat n) = true := by decide +kernel
  obtain ⟨hfirst, hlast⟩ : 'A' ≤ c ∧ c ≤ 'Z' := by simpa [CharClass.has] using h
  have hlow : 65 ≤ c.toNat := hfirst
  have hhigh : c.toNat ≤ 90 := hlast
  rw [← Char.ofNat_toNat c]
  exact hcodes _ (by omega) hlow

/-- The name of a hook is a word of its own. -/
theorem spec_of_mem_calledHooks {builtin : List Text} {code x : Text} (h : x ∈ calledHooks builtin code) :
    x ≠ [] ∧ (∀ c ∈ x, isWordChar c = true) ∧ Delimited (isWordChar · = false) x code := by
  obtain ⟨m, hm, rfl⟩ := List.mem_map.mp (List.mem_filter.mp h).1
  have hmatch := isMatch_of_mem_matchesIn hm
  have hname : m.group 1 ∈ (sequence [lit "use", capital, many wordChar]).language :=
    hmatch.group_mem_kept (by decide) rfl
  have hword : ∀ c ∈ m.group 1, isWordChar c = true := by
    have huse : (lit "use").Within fun c => isWordChar c = true := by
      have hall : "use".toList.all isWordChar = true := by decide
      simpa [lit, Pattern.sequence, Within, CharClass.has] using hall
    have hwithin : (sequence [lit "use", capital, many wordChar]).Within fun c => isWordChar c = true :=
      ⟨huse, fun c hc => isWordChar_of_capital hc, fun c hc => hc⟩
    exact within_of_mem_language rfl hwithin hname
  obtain ⟨r, hr⟩ : ∃ r, m.group 1 = 'u' :: r := by
    rw [language_sequence_cons] at hname
    obtain ⟨v, hv, w, -, he⟩ := Language.mem_mul.mp hname
    rw [mem_language_lit.mp hv] at he
    exact ⟨_, he.symm⟩
  obtain ⟨y, hy⟩ := Option.isSome_iff_exists.mp (hmatch.isSome_group? (n := 1) (by decide))
  have hgroup : m.group 1 = y := by rw [Match.group, hy, Option.getD_some]
  obtain ⟨f, hf, a, ha, -, b, hb, hread⟩ := hmatch.framed hy
  have hframe : hookCall.frames 1 = [⟨1 * 1, (sequence [lit "use", capital, many wordChar]).language,
      1 * (sequence [blanks, lit "("]).language⟩] := rfl
  rw [hframe, List.mem_singleton] at hf
  subst hf
  dsimp only at ha hb
  rw [one_mul] at ha hb
  obtain rfl : a = [] := ha
  rw [List.nil_append, ← hgroup] at hread
  obtain ⟨w, hw⟩ := hmatch.opened_behind
  refine ⟨by simp [hr], hword, w, b ++ m.closed.spot.ahead, ?_, ?_, ?_⟩
  · rw [List.append_assoc, ← List.append_assoc (m.group 1), ← hread.ahead_eq, ← hw.ahead_eq]
    rfl
  · -- the hook begins where a word does
    obtain ⟨u, hu, -⟩ := mem_outcomes_sequence_cons.mp hmatch.closed_mem
    obtain ⟨hedge, -⟩ := mem_outcomes_assert.mp hu
    have hu : isWordChar 'u' = true := by decide
    have hprevious : m.opened.previous = w.getLast? := by rw [hw.previous_eq]; exact Option.or_none
    intro c hc
    have hahead : m.opened.ahead.head? = some 'u' := by rw [hread.ahead_eq, hr]; rfl
    simpa [Assertion.holdsAt, Spot.isWordEdge, hprevious, Option.mem_def.mp hc, hahead, hu] using hedge
  · have hstarts : StartsIn (isWordChar · = false) (sequence [blanks, lit "("]).language :=
      StartsIn.blanks_mul (fun c hc => isWordChar_of_isBlank hc) (startsIn_lit ⟨'(', rfl, by decide⟩)
    obtain ⟨e, he, hword⟩ := hstarts b hb
    intro c hc
    rw [List.head?_append, Option.mem_def.mp he, Option.some_or] at hc
    obtain rfl : e = c := Option.some.inj hc
    exact hword

end DependencyTree

end SourceArchive
