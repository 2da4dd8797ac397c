import SourceArchive.Proofs.Language

/-!
# Captured texts and their surroundings

A match reads some text, then a captured one, then some more.  `Pattern.frames` lists for each place where a pattern
keeps a text which texts can stand around it there, and every captured text stands in one of these frames
(`IsMatch.exists_frame`).  For two captures of one sequence `IsMatch.exists_groups` says what stands between them.
-/

namespace SourceArchive

namespace Pattern

/-! ## Captures that are made -/

/-- Whether every way to match keeps a text under a number. -/
def keeps (n : Nat) : Pattern → Bool
  | empty => false
  | one _ => false
  | seq a b => a.keeps n || b.keeps n
  | alt a b => a.keeps n && b.keeps n
  | star _ _ => false
  | capture i a => i == n || a.keeps n
  | assert _ => false

theorem captures_subset_of_mem_outcomes {p : Pattern} {s t : Progress} (ht : t ∈ p.outcomes s) :
    s.captures ⊆ t.captures := by
  induction p generalizing s t with
  | empty =>
    obtain rfl : t = s := by simpa [outcomes] using ht
    exact List.Subset.refl _
  | one k =>
    obtain ⟨x, u, -, -, rfl⟩ := mem_outcomes_one.mp ht
    exact List.Subset.refl _
  | seq a b iha ihb =>
    obtain ⟨u, hu, ht⟩ := mem_outcomes_seq.mp ht
    exact List.Subset.trans (iha hu) (ihb ht)
  | alt a b iha ihb => exact (mem_outcomes_alt.mp ht).elim iha ihb
  | star eager a ih =>
    exact rounds_induction (P := fun u => s.captures ⊆ u.captures)
      (fun u v hu hv => List.Subset.trans hu (ih hv)) (List.Subset.refl _) ht
  | capture n a ih =>
    obtain ⟨u, hu, rfl⟩ := mem_outcomes_capture.mp ht
    exact List.Subset.trans (ih hu) (List.subset_cons_self _ _)
  | assert k =>
    obtain ⟨-, rfl⟩ := mem_outcomes_assert.mp ht
    exact List.Subset.refl _

theorem exists_capture_of_keeps {n : Nat} {p : Pattern} (hp : p.keeps n = true) {s t : Progress}
    (ht : t ∈ p.outcomes s) : ∃ c ∈ t.captures, c.number = n := by
  induction p generalizing s t with
  | empty => contradiction
  | one k => contradiction
  | seq a b iha ihb =>
    obtain ⟨u, hu, ht⟩ := mem_outcomes_seq.mp ht
    rcases Bool.or_eq_true_iff.mp hp with ha | hb
    · obtain ⟨c, hc, hn⟩ := iha ha hu
      exact ⟨c, captures_subset_of_mem_outcomes ht hc, hn⟩
    · exact ihb hb ht
  | alt a b iha ihb =>
    obtain ⟨ha, hb⟩ := Bool.and_eq_true_iff.mp hp
    exact (mem_outcomes_alt.mp ht).elim (iha ha) (ihb hb)
  | star eager a ih => contradiction
  | capture i a ih =>
    obtain ⟨u, hu, rfl⟩ := mem_outcomes_capture.mp ht
    rcases Bool.or_eq_true_iff.mp hp with hi | ha
    · exact ⟨_, List.mem_cons_self, beq_iff_eq.mp hi⟩
    · obtain ⟨c, hc, hn⟩ := ih ha hu
      exact ⟨c, List.mem_cons_of_mem _ hc, hn⟩
  | assert k => contradiction

/-! ## Frames -/

/-- Where a text is kept: what is read before it, what it is, and what is read behind it. -/
structure Frame where
  before : Language Char
  kept : Language Char
  behind : Language Char

/-- The places where a pattern keeps a text under a number. -/
def frames (n : Nat) : Pattern → List Frame
  | empty => []
  | one _ => []
  | seq a b =>
    (a.frames n).map (fun f => { f with behind := f.behind * b.language })
      ++ (b.frames n).map fun f => { f with before := a.language * f.before }
  | alt a b => a.frames n ++ b.frames n
  | star _ a => (a.frames n).map fun f =>
    { f with before := KStar.kstar a.language * f.before, behind := f.behind * KStar.kstar a.language }
  | capture i a => (if i = n then [⟨1, a.language, 1⟩] else []) ++ a.frames n
  | assert _ => []

/-- Between `s` and `t` a text was read in one of the frames. -/
def FramedIn (fs : List Frame) (s t : Spot) (text : Text) : Prop :=
  ∃ f ∈ fs, ∃ x ∈ f.before, text ∈ f.kept ∧ ∃ z ∈ f.behind, s.Reads (x ++ text ++ z) t

/-- Every capture of an outcome was there before or was made in one of the frames. -/
theorem framed_of_mem_outcomes {p : Pattern} {s t : Progress} (ht : t ∈ p.outcomes s) :
    ∀ c ∈ t.captures, c ∈ s.captures ∨ FramedIn (p.frames c.number) s.spot t.spot c.text := by
  induction p generalizing s t with
  | empty =>
    obtain rfl : t = s := by simpa [outcomes] using ht
    exact fun c hc => Or.inl hc
  | one k =>
    obtain ⟨x, u, -, -, rfl⟩ := mem_outcomes_one.mp ht
    exact fun c hc => Or.inl hc
  | seq a b iha ihb =>
    obtain ⟨u, hu, ht⟩ := mem_outcomes_seq.mp ht
    obtain ⟨v, hv, hsu⟩ := reads_language_of_mem_outcomes hu
    obtain ⟨w, hw, hut⟩ := reads_language_of_mem_outcomes ht
    intro c hc
    rcases ihb ht c hc with hc | ⟨f, hf, x, hx, hy, z, hz, hr⟩
    · refine (iha hu c hc).imp_right ?_
      rintro ⟨f, hf, x, hx, hy, z, hz, hr⟩
      refine ⟨_, List.mem_append_left _ (List.mem_map_of_mem hf), x, hx, hy, z ++ w,
        Language.append_mem_mul hz hw, ?_⟩
      rw [← List.append_assoc]
      exact hr.trans hut
    · refine Or.inr ⟨_, List.mem_append_right _ (List.mem_map_of_mem hf), v ++ x,
        Language.append_mem_mul hv hx, hy, z, hz, ?_⟩
      rw [List.append_assoc, List.append_assoc, ← List.append_assoc x]
      exact hsu.trans hr
  | alt a b iha ihb =>
    intro c hc
    rcases mem_outcomes_alt.mp ht with ht | ht
    · refine (iha ht c hc).imp_right ?_
      rintro ⟨f, hf, hread⟩
      exact ⟨f, List.mem_append_left _ hf, hread⟩
    · refine (ihb ht c hc).imp_right ?_
      rintro ⟨f, hf, hread⟩
      exact ⟨f, List.mem_append_right _ hf, hread⟩
  | star eager a ih =>
    -- the invariant of the rounds: what was read is a number of rounds, and each new capture is framed in them
    let Kept (u : Progress) : Prop := (∃ w ∈ (star eager a).language, s.spot.Reads w u.spot) ∧
      ∀ c ∈ u.captures, c ∈ s.captures ∨ FramedIn ((star eager a).frames c.number) s.spot u.spot c.text
    have hkept : Kept t := by
      refine rounds_induction (P := Kept) ?_
        ⟨⟨[], Language.nil_mem_kstar _, .refl _⟩, fun c hc => Or.inl hc⟩ ht
      rintro u v ⟨⟨w, hw, hsu⟩, hu⟩ hv
      obtain ⟨x, hx, huv⟩ := reads_language_of_mem_outcomes hv
      have hround : x ∈ (star eager a).language := (le_kstar : a.language ≤ KStar.kstar a.language) hx
      have hjoin {y z : Text} (hy : y ∈ (star eager a).language) (hz : z ∈ (star eager a).language) :
          y ++ z ∈ (star eager a).language := by
        have hmul : y ++ z ∈ (star eager a).language * (star eager a).language := Language.append_mem_mul hy hz
        rwa [language, kstar_mul_kstar] at hmul
      refine ⟨⟨w ++ x, hjoin hw hround, hsu.trans huv⟩, fun c hc => ?_⟩
      rcases ih hv c hc with hc | ⟨f, hf, x', hx', hy, z, hz, hr⟩
      · refine (hu c hc).imp_right ?_
        rintro ⟨f, hf, x', hx', hy, z, hz, hr⟩
        obtain ⟨g, hg, rfl⟩ := List.mem_map.mp hf
        obtain ⟨z₁, hz₁, z₂, hz₂, rfl⟩ := Language.mem_mul.mp hz
        refine ⟨_, hf, x', hx', hy, z₁ ++ (z₂ ++ x), Language.append_mem_mul hz₁ (hjoin hz₂ hround), ?_⟩
        rw [← List.append_assoc z₁, ← List.append_assoc]
        exact hr.trans huv
      · refine Or.inr ⟨_, List.mem_map_of_mem hf, w ++ x', Language.append_mem_mul hw hx', hy, z ++ [],
          Language.append_mem_mul hz (Language.nil_mem_kstar _), ?_⟩
        rw [List.append_nil, List.append_assoc, List.append_assoc, ← List.append_assoc x']
        exact hsu.trans hr
    exact hkept.2
  | capture n a ih =>
    obtain ⟨u, hu, rfl⟩ := mem_outcomes_capture.mp ht
    intro c hc
    rcases List.mem_cons.mp hc with rfl | hc
    · obtain ⟨w, hw, hr⟩ := reads_language_of_mem_outcomes hu
      have htext : Capture.text ⟨n, s.spot.ahead, s.spot.left - u.spot.left⟩ = w := hr.take_eq
      refine Or.inr ⟨⟨1, a.language, 1⟩, by simp [frames], [], rfl, htext ▸ hw, [], rfl, ?_⟩
      rw [htext, List.nil_append, List.append_nil]
      exact hr
    · refine (ih hu c hc).imp_right ?_
      rintro ⟨f, hf, hread⟩
      exact ⟨f, List.mem_append_right _ hf, hread⟩
  | assert k =>
    obtain ⟨-, rfl⟩ := mem_outcomes_assert.mp ht
    exact fun c hc => Or.inl hc

end Pattern

namespace IsMatch

variable {p : Pattern} {code : Text} {m : Match}

theorem isSome_group? (h : IsMatch p code m) {n : Nat} (hn : p.keeps n = true) : (m.group? n).isSome = true := by
  obtain ⟨c, hc, hnumber⟩ := Pattern.exists_capture_of_keeps hn h.closed_mem
  rw [Match.group?, Option.isSome_map, List.find?_isSome]
  exact ⟨c, hc, beq_iff_eq.mpr hnumber⟩

theorem framed (h : IsMatch p code m) {n : Nat} {x : Text} (hx : m.group? n = some x) :
    Pattern.FramedIn (p.frames n) m.opened m.closed.spot x := by
  rw [Match.group?, Option.map_eq_some_iff] at hx
  obtain ⟨c, hc, rfl⟩ := hx
  have hn : c.number = n := by simpa using List.find?_some hc
  rcases Pattern.framed_of_mem_outcomes h.closed_mem c (List.mem_of_find?_eq_some hc) with hc | hc
  · simp at hc
  · rwa [hn] at hc

/-- A captured text stands in the searched text within one of its frames. -/
theorem exists_frame (h : IsMatch p code m) {n : Nat} {y : Text} (hy : m.group? n = some y) :
    ∃ f ∈ p.frames n, y ∈ f.kept ∧ ∃ x ∈ f.before, ∃ z ∈ f.behind, x ++ y ++ z <:+: code := by
  obtain ⟨w, hw⟩ := h.opened_behind
  obtain ⟨f, hf, x, hx, hkept, z, hz, hr⟩ := h.framed hy
  exact ⟨f, hf, hkept, x, hx, z, hz, hr.isInfix.trans hw.isSuffix.isInfix⟩

/-- A text that is always captured, and in one place, is one of those that are kept there. -/
theorem group_mem_kept (h : IsMatch p code m) {n : Nat} {l : Language Char} (hn : p.keeps n = true)
    (hl : (p.frames n).map (·.kept) = [l]) : m.group n ∈ l := by
  obtain ⟨x, hx⟩ := Option.isSome_iff_exists.mp (h.isSome_group? hn)
  obtain ⟨f, hf, hkept, -⟩ := h.exists_frame hx
  have hmem : f.kept ∈ (p.frames n).map (·.kept) := List.mem_map_of_mem hf
  rw [hl, List.mem_singleton] at hmem
  rw [Match.group, hx, ← hmem]
  exact hkept

/-- Two captures of a sequence, and what is read around them. -/
theorem exists_groups {i j : Nat} {a b : Pattern} {ps qs rs : List Pattern}
    (h : IsMatch (Pattern.sequence (ps ++ .capture i a :: (qs ++ .capture j b :: rs))) code m) (hij : i ≠ j)
    (hqs : (Pattern.sequence qs).capturedAs i = []) (hb : b.capturedAs i = [])
    (hrs : ∀ n ∈ [i, j], (Pattern.sequence rs).capturedAs n = []) :
    m.group i ∈ a.language ∧ m.group j ∈ b.language ∧
      ∃ u ∈ (Pattern.sequence ps).language, ∃ v ∈ (Pattern.sequence qs).language,
        ∃ w ∈ (Pattern.sequence rs).language,
          m.opened.Reads (u ++ m.group i ++ v ++ m.group j ++ w) m.closed.spot := by
  obtain ⟨s, hs, hclosed⟩ := Pattern.mem_outcomes_sequence_append.mp h.closed_mem
  obtain ⟨_, hfirst, hclosed⟩ := Pattern.mem_outcomes_sequence_cons.mp hclosed
  obtain ⟨t', ht', hclosed⟩ := Pattern.mem_outcomes_sequence_append.mp hclosed
  obtain ⟨_, hsecond, hclosed⟩ := Pattern.mem_outcomes_sequence_cons.mp hclosed
  obtain ⟨t, ht, rfl⟩ := Pattern.mem_outcomes_capture.mp hfirst
  obtain ⟨r, hr, rfl⟩ := Pattern.mem_outcomes_capture.mp hsecond
  obtain ⟨u, hu, hreadu⟩ := Pattern.reads_language_of_mem_outcomes hs
  obtain ⟨x, hx, hreadx⟩ := Pattern.reads_language_of_mem_outcomes ht
  obtain ⟨v, hv, hreadv⟩ := Pattern.reads_language_of_mem_outcomes ht'
  obtain ⟨y, hy, hready⟩ := Pattern.reads_language_of_mem_outcomes hr
  obtain ⟨w, hw, hreadw⟩ := Pattern.reads_language_of_mem_outcomes hclosed
  have hlast {n : Nat} (hn : n ∈ [i, j]) : m.closed.captures.find? (·.number == n) =
      (Pattern.close j t'.spot r).captures.find? (·.number == n) :=
    Pattern.find?_captures_of_mem_outcomes (hrs n hn) hclosed
  have hbetween : r.captures.find? (·.number == i) = (Pattern.close i s.spot t).captures.find? (·.number == i) :=
    (Pattern.find?_captures_of_mem_outcomes hb hr).trans (Pattern.find?_captures_of_mem_outcomes hqs ht')
  have hi : m.group i = x := by
    have hother : (j == i) = false := beq_eq_false_iff_ne.mpr (Ne.symm hij)
    rw [Match.group, Match.group?, hlast (by simp), Pattern.close, List.find?_cons, hother]
    dsimp only
    rw [hbetween, Pattern.close, List.find?_cons, beq_self_eq_true]
    exact hreadx.take_eq
  have hj : m.group j = y := by
    rw [Match.group, Match.group?, hlast (by simp), Pattern.close, List.find?_cons, beq_self_eq_true]
    exact hready.take_eq
  rw [hi, hj]
  exact ⟨hx, hy, u, hu, v, hv, w, hw, (((hreadu.trans hreadx).trans hreadv).trans hready).trans hreadw⟩

end IsMatch

end SourceArchive
