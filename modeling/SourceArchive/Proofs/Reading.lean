import SourceArchive.Pattern.Build
import SourceArchive.Pattern.Search
import Mathlib.Data.List.Basic

/-!
# What matches read

A way to match reads a stretch of the searched text, and every capture is a stretch within it.  The statements
here are about `Pattern.outcomes`: which outcomes a composed pattern has, which characters an outcome can read
(`Pattern.Within`), and which parts of a pattern a capture can come from (`Pattern.capturedAs`).  `IsMatch` carries
them over to the matches that a search finds.  Nothing is said about which of several matches is found.
-/

namespace SourceArchive

/-- From `s` the text `w` is read up to `t`. -/
structure Spot.Reads (s : Spot) (w : Text) (t : Spot) : Prop where
  ahead_eq : s.ahead = w ++ t.ahead
  previous_eq : t.previous = w.getLast?.or s.previous

namespace Spot

theorem Reads.refl (s : Spot) : s.Reads [] s := ⟨rfl, rfl⟩

theorem Reads.trans {s t u : Spot} {v w : Text} (h : s.Reads v t) (h' : t.Reads w u) : s.Reads (v ++ w) u := by
  constructor
  · rw [h.ahead_eq, h'.ahead_eq, List.append_assoc]
  · rw [h'.previous_eq, h.previous_eq, List.getLast?_append, Option.or_assoc]

theorem Reads.left_eq {s t : Spot} {w : Text} (h : s.Reads w t) : s.left = w.length + t.left := by
  rw [s.left_eq, t.left_eq, h.ahead_eq, List.length_append]

/-- What was read is found again by counting. -/
theorem Reads.take_eq {s t : Spot} {w : Text} (h : s.Reads w t) : s.ahead.take (s.left - t.left) = w := by
  rw [h.left_eq, Nat.add_sub_cancel, h.ahead_eq, List.take_left]

/-- What is read settles where reading ends. -/
theorem Reads.eq_of_reads {s t t' : Spot} {w : Text} (h : s.Reads w t) (h' : s.Reads w t') : t = t' := by
  have hahead : t.ahead = t'.ahead := List.append_cancel_left (h.ahead_eq.symm.trans h'.ahead_eq)
  have hprevious : t.previous = t'.previous := h.previous_eq.trans h'.previous_eq.symm
  have hleft : t.left = t'.left := by rw [t.left_eq, t'.left_eq, hahead]
  cases t
  cases t'
  simp_all

theorem Reads.isInfix {s t : Spot} {w : Text} (h : s.Reads w t) : w <:+: s.ahead := by
  rw [h.ahead_eq]
  exact (List.prefix_append w _).isInfix

theorem Reads.isSuffix {s t : Spot} {w : Text} (h : s.Reads w t) : t.ahead <:+ s.ahead := by
  rw [h.ahead_eq]
  exact List.suffix_append w _

theorem reads_of_next? {s t : Spot} {c : Char} (h : s.next? = some (c, t)) : s.Reads [c] t := by
  unfold next? at h
  split at h
  · simp at h
  · rename_i heq
    simp only [Option.some.injEq, Prod.mk.injEq] at h
    obtain ⟨rfl, rfl⟩ := h
    exact ⟨heq, rfl⟩

theorem exists_reads_of_cons {s : Spot} {c : Char} {r : Text} (h : s.ahead = c :: r) :
    ∃ t, s.next? = some (c, t) ∧ s.Reads [c] t := by
  have hne : s.next? ≠ none := by
    unfold next?
    split
    · rename_i hnil
      rw [hnil] at h
      cases h
    · simp
  obtain ⟨⟨d, t⟩, hn⟩ := Option.ne_none_iff_exists'.mp hne
  have hr := reads_of_next? hn
  obtain rfl : d = c := (List.cons.inj (hr.ahead_eq.symm.trans h)).1
  exact ⟨t, hn, hr⟩

theorem Reads.of_cons {s t : Spot} {c : Char} {w : Text} (h : s.Reads (c :: w) t) :
    ∃ u, s.next? = some (c, u) ∧ s.Reads [c] u ∧ u.Reads w t := by
  obtain ⟨u, hn, hr⟩ := exists_reads_of_cons h.ahead_eq
  have hahead : u.ahead = w ++ t.ahead := List.append_cancel_left (hr.ahead_eq.symm.trans h.ahead_eq)
  refine ⟨u, hn, hr, hahead, ?_⟩
  rw [h.previous_eq, hr.previous_eq, List.getLast?_cons]
  cases w.getLast? <;> rfl

end Spot

namespace Pattern

/-! ## Outcomes of composed patterns -/

theorem mem_rounds_iff {eager : Bool} {ways : Progress → List Progress} {s t : Progress} :
    t ∈ rounds eager ways s ↔ t = s ∨ ∃ u ∈ ways s, u.spot.left < s.spot.left ∧ t ∈ rounds eager ways u := by
  rw [rounds]
  cases eager <;> simp [List.mem_flatMap, or_comm]

theorem mem_outcomes_one {c : CharClass} {s t : Progress} :
    t ∈ (one c).outcomes s ↔ ∃ x u, s.spot.next? = some (x, u) ∧ c.has x = true ∧ t = { s with spot := u } := by
  simp only [outcomes, step?, Option.mem_toList]
  constructor
  · intro h
    split at h
    · simp at h
    · rename_i x u hn
      split at h
      · rename_i hx
        exact ⟨x, u, hn, hx, by simpa [eq_comm] using h⟩
      · simp at h
  · rintro ⟨x, u, hn, hx, rfl⟩
    simp [hn, hx]

theorem mem_outcomes_seq {a b : Pattern} {s t : Progress} :
    t ∈ (seq a b).outcomes s ↔ ∃ u ∈ a.outcomes s, t ∈ b.outcomes u := List.mem_flatMap

theorem mem_outcomes_alt {a b : Pattern} {s t : Progress} :
    t ∈ (alt a b).outcomes s ↔ t ∈ a.outcomes s ∨ t ∈ b.outcomes s := List.mem_append

theorem mem_outcomes_capture {n : Nat} {a : Pattern} {s t : Progress} :
    t ∈ (capture n a).outcomes s ↔ ∃ u ∈ a.outcomes s, close n s.spot u = t := List.mem_map

theorem mem_outcomes_assert {a : Assertion} {s t : Progress} :
    t ∈ (assert a).outcomes s ↔ a.holdsAt s.spot = true ∧ t = s := by
  simp only [outcomes]
  split <;> simp_all

/-- What every round preserves holds after any number of rounds. -/
theorem rounds_induction {eager : Bool} {ways : Progress → List Progress} {P : Progress → Prop}
    (hround : ∀ u v, P u → v ∈ ways u → P v) {s t : Progress} (hs : P s) (ht : t ∈ rounds eager ways s) : P t := by
  rcases mem_rounds_iff.mp ht with rfl | ⟨u, hu, hlt, htu⟩
  · exact hs
  · exact rounds_induction hround (hround s u hs hu) htu
termination_by s.spot.left

/-- A sequence is read part by part. -/
theorem outcomes_sequence_cons (p : Pattern) (ps : List Pattern) (s : Progress) :
    (sequence (p :: ps)).outcomes s = (p.outcomes s).flatMap (sequence ps).outcomes := by
  cases ps with
  | nil => exact (List.flatMap_singleton' _).symm
  | cons q qs => rfl

theorem outcomes_sequence_append (ps qs : List Pattern) (s : Progress) :
    (sequence (ps ++ qs)).outcomes s = ((sequence ps).outcomes s).flatMap (sequence qs).outcomes := by
  induction ps generalizing s with
  | nil => exact (List.append_nil _).symm
  | cons p ps ih =>
    rw [List.cons_append, outcomes_sequence_cons, outcomes_sequence_cons, List.flatMap_assoc]
    congr 1
    funext t
    exact ih t

theorem mem_outcomes_sequence_cons {p : Pattern} {ps : List Pattern} {s t : Progress} :
    t ∈ (sequence (p :: ps)).outcomes s ↔ ∃ u ∈ p.outcomes s, t ∈ (sequence ps).outcomes u := by
  rw [outcomes_sequence_cons, List.mem_flatMap]

theorem mem_outcomes_sequence_append {ps qs : List Pattern} {s t : Progress} :
    t ∈ (sequence (ps ++ qs)).outcomes s ↔ ∃ u ∈ (sequence ps).outcomes s, t ∈ (sequence qs).outcomes u := by
  rw [outcomes_sequence_append, List.mem_flatMap]

/-! ## Characters that are read -/

/-- All characters that a pattern can read satisfy `P`. -/
def Within (P : Char → Prop) : Pattern → Prop
  | empty => True
  | one c => ∀ x, c.has x = true → P x
  | seq a b => a.Within P ∧ b.Within P
  | alt a b => a.Within P ∧ b.Within P
  | star _ a => a.Within P
  | capture _ a => a.Within P
  | assert _ => True

/-- An outcome reads a text, and only of characters that its pattern can read. -/
theorem reads_of_within {P : Char → Prop} {p : Pattern} {s t : Progress} (hp : p.Within P) (ht : t ∈ p.outcomes s) :
    ∃ w, s.spot.Reads w t.spot ∧ ∀ x ∈ w, P x := by
  induction p generalizing s t with
  | empty =>
    obtain rfl : t = s := by simpa [outcomes] using ht
    exact ⟨[], .refl _, by simp⟩
  | one c =>
    obtain ⟨x, u, hn, hx, rfl⟩ := mem_outcomes_one.mp ht
    exact ⟨[x], Spot.reads_of_next? hn, by simpa using hp x hx⟩
  | seq a b iha ihb =>
    obtain ⟨u, hu, ht⟩ := mem_outcomes_seq.mp ht
    obtain ⟨v, hv, hPv⟩ := iha hp.1 hu
    obtain ⟨w, hw, hPw⟩ := ihb hp.2 ht
    exact ⟨v ++ w, hv.trans hw, fun x hx => (List.mem_append.mp hx).elim (hPv x) (hPw x)⟩
  | alt a b iha ihb =>
    rcases mem_outcomes_alt.mp ht with ht | ht
    · exact iha hp.1 ht
    · exact ihb hp.2 ht
  | star eager a ih =>
    -- the invariant of the rounds: so far only such characters were read
    refine rounds_induction (P := fun u => ∃ w, s.spot.Reads w u.spot ∧ ∀ x ∈ w, P x) ?_ ⟨[], .refl _, by simp⟩ ht
    rintro u v ⟨w, hw, hPw⟩ hv
    obtain ⟨w', hw', hPw'⟩ := ih hp hv
    exact ⟨w ++ w', hw.trans hw', fun x hx => (List.mem_append.mp hx).elim (hPw x) (hPw' x)⟩
  | capture n a ih =>
    obtain ⟨u, hu, rfl⟩ := mem_outcomes_capture.mp ht
    have hr := ih hp hu
    exact hr
  | assert a =>
    obtain ⟨-, rfl⟩ := mem_outcomes_assert.mp ht
    exact ⟨[], .refl _, by simp⟩

theorem within_true (p : Pattern) : p.Within fun _ => True := by
  induction p <;> simp_all [Within]

theorem exists_reads {p : Pattern} {s t : Progress} (ht : t ∈ p.outcomes s) : ∃ w, s.spot.Reads w t.spot := by
  obtain ⟨w, hw, -⟩ := reads_of_within p.within_true ht
  exact ⟨w, hw⟩

/-- Whether no class of a pattern holds a character. -/
def avoids (x : Char) : Pattern → Bool
  | empty => true
  | one c => !c.has x
  | seq a b => a.avoids x && b.avoids x
  | alt a b => a.avoids x && b.avoids x
  | star _ a => a.avoids x
  | capture _ a => a.avoids x
  | assert _ => true

theorem within_of_avoids {x : Char} {p : Pattern} (h : p.avoids x = true) : p.Within (· ≠ x) := by
  induction p with
  | empty => trivial
  | one c =>
    rintro y hy rfl
    simp [avoids, hy] at h
  | seq a b iha ihb =>
    obtain ⟨ha, hb⟩ : a.avoids x = true ∧ b.avoids x = true := by simpa [avoids] using h
    exact ⟨iha ha, ihb hb⟩
  | alt a b iha ihb =>
    obtain ⟨ha, hb⟩ : a.avoids x = true ∧ b.avoids x = true := by simpa [avoids] using h
    exact ⟨iha ha, ihb hb⟩
  | star eager a ih => exact ih h
  | capture n a ih => exact ih h
  | assert a => trivial

/-! ## Captures -/

/-- The parts of a pattern whose text is kept under a number. -/
def capturedAs (n : Nat) : Pattern → List Pattern
  | empty => []
  | one _ => []
  | seq a b => a.capturedAs n ++ b.capturedAs n
  | alt a b => a.capturedAs n ++ b.capturedAs n
  | star _ a => a.capturedAs n
  | capture i a => (if i = n then [a] else []) ++ a.capturedAs n
  | assert _ => []

/-- The capture `c` was made behind `s`, by a part of `p`. -/
def CapturedBehind (p : Pattern) (s : Spot) (c : Capture) : Prop :=
  ∃ a ∈ p.capturedAs c.number, ∃ (u v : Progress) (w : Text),
    s.Reads w u.spot ∧ v ∈ a.outcomes u ∧ c.source = u.spot.ahead ∧ c.size = u.spot.left - v.spot.left

theorem CapturedBehind.mono {p q : Pattern} {s t : Spot} {c : Capture} {w : Text}
    (h : ∀ a ∈ p.capturedAs c.number, a ∈ q.capturedAs c.number) (hs : s.Reads w t)
    (hc : CapturedBehind p t c) : CapturedBehind q s c := by
  obtain ⟨a, ha, u, v, w', hw', hv⟩ := hc
  exact ⟨a, h a ha, u, v, w ++ w', hs.trans hw', hv⟩

/-- Every capture of an outcome was there before or was made by a part of the pattern. -/
theorem captures_of_mem_outcomes {p : Pattern} {s t : Progress} (ht : t ∈ p.outcomes s) :
    ∀ c ∈ t.captures, c ∈ s.captures ∨ CapturedBehind p s.spot c := by
  induction p generalizing s t with
  | empty =>
    obtain rfl : t = s := by simpa [outcomes] using ht
    exact fun c hc => Or.inl hc
  | one k =>
    obtain ⟨x, u, -, -, rfl⟩ := mem_outcomes_one.mp ht
    exact fun c hc => Or.inl hc
  | seq a b iha ihb =>
    obtain ⟨u, hu, ht⟩ := mem_outcomes_seq.mp ht
    obtain ⟨w, hw⟩ := exists_reads hu
    intro c hc
    rcases ihb ht c hc with hc | hc
    · rcases iha hu c hc with hc | hc
      · exact Or.inl hc
      · exact Or.inr (hc.mono (fun _ h => List.mem_append_left _ h) (.refl _))
    · exact Or.inr (hc.mono (fun _ h => List.mem_append_right _ h) hw)
  | alt a b iha ihb =>
    intro c hc
    rcases mem_outcomes_alt.mp ht with ht | ht
    · exact (iha ht c hc).imp_right (·.mono (fun _ h => List.mem_append_left _ h) (.refl _))
    · exact (ihb ht c hc).imp_right (·.mono (fun _ h => List.mem_append_right _ h) (.refl _))
  | star eager a ih =>
    let Kept (u : Progress) : Prop := (∃ w, s.spot.Reads w u.spot) ∧
      ∀ c ∈ u.captures, c ∈ s.captures ∨ CapturedBehind (star eager a) s.spot c
    have hkept : Kept t := by
      refine rounds_induction (P := Kept) ?_ ⟨⟨[], .refl _⟩, fun c hc => Or.inl hc⟩ ht
      rintro u v ⟨⟨w, hw⟩, hu⟩ hv
      obtain ⟨w', hw'⟩ := exists_reads hv
      refine ⟨⟨w ++ w', hw.trans hw'⟩, fun c hc => ?_⟩
      rcases ih hv c hc with hc | hc
      · exact hu c hc
      · exact Or.inr (hc.mono (fun _ h => h) hw)
    exact hkept.2
  | capture n a ih =>
    obtain ⟨u, hu, rfl⟩ := mem_outcomes_capture.mp ht
    intro c hc
    rcases List.mem_cons.mp hc with rfl | hc
    · exact Or.inr ⟨a, by simp [capturedAs], s, u, [], .refl _, hu, rfl, rfl⟩
    · exact (ih hu c hc).imp_right (·.mono (fun _ h => List.mem_append_right _ h) (.refl _))
  | assert k =>
    obtain ⟨-, rfl⟩ := mem_outcomes_assert.mp ht
    exact fun c hc => Or.inl hc

/-- The captures under a number are as they were behind a pattern that keeps no text under it. -/
theorem find?_captures_of_mem_outcomes {n : Nat} {p : Pattern} {s t : Progress} (hp : p.capturedAs n = [])
    (ht : t ∈ p.outcomes s) : t.captures.find? (·.number == n) = s.captures.find? (·.number == n) := by
  induction p generalizing s t with
  | empty =>
    obtain rfl : t = s := by simpa [outcomes] using ht
    rfl
  | one k =>
    obtain ⟨x, u, -, -, rfl⟩ := mem_outcomes_one.mp ht
    rfl
  | seq a b iha ihb =>
    obtain ⟨ha, hb⟩ := List.append_eq_nil_iff.mp hp
    obtain ⟨u, hu, ht⟩ := mem_outcomes_seq.mp ht
    rw [ihb hb ht, iha ha hu]
  | alt a b iha ihb =>
    obtain ⟨ha, hb⟩ := List.append_eq_nil_iff.mp hp
    rcases mem_outcomes_alt.mp ht with ht | ht
    · exact iha ha ht
    · exact ihb hb ht
  | star eager a ih =>
    refine rounds_induction
      (P := fun u => u.captures.find? (·.number == n) = s.captures.find? (·.number == n)) ?_ rfl ht
    intro u v hu hv
    rw [ih hp hv, hu]
  | capture i a ih =>
    obtain ⟨hi, ha⟩ := List.append_eq_nil_iff.mp hp
    obtain ⟨u, hu, rfl⟩ := mem_outcomes_capture.mp ht
    have hother : (i == n) = false := by
      rw [beq_eq_false_iff_ne]
      rintro rfl
      simp at hi
    rw [close, List.find?_cons, hother]
    exact ih ha hu
  | assert k =>
    obtain ⟨-, rfl⟩ := mem_outcomes_assert.mp ht
    rfl

end Pattern

/-! ## Matches -/

/-- `m` is a way in which `p` matches somewhere in `code`. -/
structure IsMatch (p : Pattern) (code : Text) (m : Match) : Prop where
  opened_behind : ∃ w, (Spot.start code).Reads w m.opened
  closed_mem : m.closed ∈ p.outcomes { spot := m.opened }

namespace Pattern

theorem search_spec {p : Pattern} {s : Spot} {m : Match} (h : p.search s = some m) :
    (∃ w, s.Reads w m.opened) ∧ m.closed ∈ p.outcomes { spot := m.opened } := by
  fun_induction search p s with
  | case1 s found hat =>
    obtain rfl : found = m := by simpa using h
    rw [at?, Option.map_eq_some_iff] at hat
    obtain ⟨t, ht, rfl⟩ := hat
    rw [best?_eq_head?] at ht
    exact ⟨⟨[], .refl s⟩, List.mem_of_mem_head? ht⟩
  | case2 s _ hnext => simp at h
  | case3 s _ c t hnext ih =>
    obtain ⟨⟨w, hw⟩, hm⟩ := ih h
    exact ⟨⟨[c] ++ w, (Spot.reads_of_next? hnext).trans hw⟩, hm⟩

theorem reads_behind_of_resume? {m : Match} {t : Spot} (h : m.resume? = some t) :
    ∃ w, m.closed.spot.Reads w t := by
  unfold Match.resume? at h
  split at h
  · obtain rfl : m.closed.spot = t := by simpa using h
    exact ⟨[], .refl _⟩
  · obtain ⟨⟨c, u⟩, hn, rfl⟩ := Option.map_eq_some_iff.mp h
    exact ⟨[c], Spot.reads_of_next? hn⟩

theorem reads_of_resume? {p : Pattern} {s : Spot} {m : Match} {t : Spot} (hs : p.search s = some m)
    (h : m.resume? = some t) : ∃ w, s.Reads w t := by
  obtain ⟨⟨w, hw⟩, hm⟩ := search_spec hs
  obtain ⟨v, hv⟩ := exists_reads hm
  obtain ⟨u, hu⟩ := reads_behind_of_resume? h
  exact ⟨w ++ v ++ u, (hw.trans hv).trans hu⟩

theorem isMatch_of_mem_matchesFrom {p : Pattern} {code : Text} {s : Spot} {w : Text} {m : Match}
    (hs : (Spot.start code).Reads w s) (h : m ∈ p.matchesFrom s) : IsMatch p code m := by
  rw [matchesFrom] at h
  rcases hsearch : p.search s with _ | found
  · simp [hsearch] at h
  · simp only [hsearch, List.mem_cons] at h
    rcases h with rfl | h
    · obtain ⟨⟨v, hv⟩, hm⟩ := search_spec hsearch
      exact ⟨⟨w ++ v, hs.trans hv⟩, hm⟩
    · rcases hr : found.resume? with _ | t
      · simp [hr] at h
      · simp only [hr] at h
        split at h
        · rename_i hlt
          obtain ⟨v, hv⟩ := reads_of_resume? hsearch hr
          exact isMatch_of_mem_matchesFrom (hs.trans hv) h
        · simp at h
termination_by s.left

theorem isMatch_of_mem_matchesIn {p : Pattern} {code : Text} {m : Match} (h : m ∈ p.matchesIn code) :
    IsMatch p code m := isMatch_of_mem_matchesFrom (.refl _) h

theorem isMatch_of_firstIn {p : Pattern} {code : Text} {m : Match} (h : p.firstIn code = some m) : IsMatch p code m :=
  ⟨(search_spec h).1, (search_spec h).2⟩

end Pattern

namespace IsMatch

variable {p : Pattern} {code : Text} {m : Match}

/-- A captured text stands in the searched text, and a part of the pattern read it. -/
theorem of_group? (h : IsMatch p code m) {n : Nat} {x : Text} (hx : m.group? n = some x) :
    x <:+: code ∧ ∃ a ∈ p.capturedAs n, ∀ P, a.Within P → ∀ c ∈ x, P c := by
  rw [Match.group?, Option.map_eq_some_iff] at hx
  obtain ⟨c, hc, rfl⟩ := hx
  have hn : c.number = n := by simpa using List.find?_some hc
  rcases Pattern.captures_of_mem_outcomes h.closed_mem c (List.mem_of_find?_eq_some hc) with hc | hc
  · simp at hc
  · obtain ⟨a, ha, u, v, w, hw, hv, hsource, hsize⟩ := hc
    obtain ⟨w₀, hw₀⟩ := h.opened_behind
    have htext {x : Text} (hx : u.spot.Reads x v.spot) : c.text = x := by
      rw [Capture.text, hsource, hsize, hx.take_eq]
    constructor
    · obtain ⟨x, hx⟩ := Pattern.exists_reads hv
      rw [htext hx]
      exact hx.isInfix.trans (hw₀.trans hw).isSuffix.isInfix
    · refine ⟨a, hn ▸ ha, fun P hP => ?_⟩
      obtain ⟨x, hx, hPx⟩ := Pattern.reads_of_within hP hv
      rw [htext hx]
      exact hPx

theorem group_isInfix (h : IsMatch p code m) (n : Nat) : m.group n <:+: code := by
  rw [Match.group]
  rcases hg : m.group? n with _ | x
  · exact (List.nil_prefix).isInfix
  · exact (h.of_group? hg).1

theorem group_within (h : IsMatch p code m) {n : Nat} {P : Char → Prop} (hp : ∀ a ∈ p.capturedAs n, a.Within P) :
    ∀ c ∈ m.group n, P c := by
  rw [Match.group]
  rcases hg : m.group? n with _ | x
  · simp
  · obtain ⟨-, a, ha, hx⟩ := h.of_group? hg
    exact hx P (hp a ha)

/-- A captured text holds no character that the capturing parts avoid. -/
theorem not_mem_group (h : IsMatch p code m) {n : Nat} {x : Char}
    (hp : (p.capturedAs n).all (·.avoids x) = true) : x ∉ m.group n := by
  have hw : ∀ a ∈ p.capturedAs n, a.Within (· ≠ x) :=
    fun a ha => Pattern.within_of_avoids (List.all_eq_true.mp hp a ha)
  exact fun hx => h.group_within hw x hx rfl

end IsMatch

end SourceArchive
