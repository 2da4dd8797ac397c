import SourceArchive.Proofs.Language

/-!
# The course of a search

A search asks at one place after the other whether the pattern matches there.  What it finds is therefore settled by the
places ahead: a stretch without matches can be left out (`matchesFrom_skip`), a match is found where it stands
(`matchesFrom_of_at?`), and patterns that match alike at all places ahead find the same matches (`matchesFrom_congr`).
-/

namespace SourceArchive

theorem Spot.exists_reads {s : Spot} {w r : Text} (h : s.ahead = w ++ r) : ∃ t, s.Reads w t ∧ t.ahead = r := by
  refine ⟨.between (w.getLast?.or s.previous) r, ⟨h, rfl⟩, rfl⟩

/-- Of two places further on, the nearer one is passed on the way to the other. -/
theorem Spot.Reads.reads_of_left_le {s t u : Spot} {v w : Text} (hu : s.Reads v u) (ht : s.Reads w t)
    (hle : t.left ≤ u.left) : ∃ x, w = v ++ x ∧ u.Reads x t := by
  have hlength : v.length ≤ w.length := by
    have hsu := hu.left_eq
    have hst := ht.left_eq
    omega
  have hprefix : v <+: w := by
    refine List.prefix_of_prefix_length_le (List.prefix_append v u.ahead) ?_ hlength
    rw [← hu.ahead_eq, ht.ahead_eq]
    exact List.prefix_append w t.ahead
  obtain ⟨x, rfl⟩ := hprefix
  refine ⟨x, rfl, hu.ahead_of_append ?_, ?_⟩
  · rw [ht.ahead_eq, List.append_assoc]
  · rw [ht.previous_eq, hu.previous_eq, List.getLast?_append, Option.or_assoc]

namespace Pattern

variable {p q : Pattern} {s t : Spot} {m : Match}

theorem mem_outcomes_of_at? (h : p.at? s = some m) : m.opened = s ∧ m.closed ∈ p.outcomes { spot := s } := by
  obtain ⟨t, ht, rfl⟩ := Option.map_eq_some_iff.mp h
  rw [best?_eq_head?] at ht
  exact ⟨rfl, List.mem_of_mem_head? ht⟩

theorem isSome_at?_iff_exists : (p.at? s).isSome = true ↔ ∃ t, t ∈ p.outcomes { spot := s } := by
  rw [at?, Option.isSome_map, best?_eq_head?, List.isSome_head?, ← List.isEmpty_eq_false_iff_exists_mem,
    List.isEmpty_eq_false_iff]

theorem at?_congr (h : p.outcomes { spot := s } = q.outcomes { spot := s }) : p.at? s = q.at? s := by
  rw [at?, at?, best?_eq_head?, best?_eq_head?, h]

theorem search_of_at? (h : p.at? s = some m) : p.search s = some m := by
  rw [search, h]

theorem search_of_next? {c : Char} (h : p.at? s = none) (hn : s.next? = some (c, t)) : p.search s = p.search t := by
  rw [search, h]
  dsimp only
  split
  · rename_i hnone
    rw [hn] at hnone
    cases hnone
  · rename_i d u hsome
    rw [hn] at hsome
    cases hsome
    rfl

theorem isSome_search_iff : (p.search s).isSome = true ↔ ∃ w t, s.Reads w t ∧ (p.at? t).isSome = true := by
  constructor
  · intro h
    fun_induction search p s with
    | case1 s found hat => exact ⟨[], s, .refl s, by rw [hat]; rfl⟩
    | case2 s hat hnext => cases h
    | case3 s hat c t hnext ih =>
      obtain ⟨w, u, hu, hsome⟩ := ih h
      exact ⟨[c] ++ w, u, (Spot.reads_of_next? hnext).trans hu, hsome⟩
  · intro h
    obtain ⟨w, t, hr, hsome⟩ := h
    induction w generalizing s with
    | nil =>
      obtain rfl := hr.eq_of_reads (.refl s)
      obtain ⟨m, hm⟩ := Option.isSome_iff_exists.mp hsome
      rw [search_of_at? hm]
      rfl
    | cons c w ih =>
      obtain ⟨u, hn, -, hu⟩ := hr.of_cons
      cases hat : p.at? s with
      | some m =>
        rw [search_of_at? hat]
        rfl
      | none =>
        rw [search_of_next? hat hn]
        exact ih hu

theorem occursIn_iff {text : Text} :
    p.occursIn text = true ↔ ∃ w t, (Spot.start text).Reads w t ∧ (p.at? t).isSome = true := isSome_search_iff

theorem left_lt_of_resume? (hs : p.search s = some m) (h : m.resume? = some t) : t.left < m.opened.left := by
  obtain ⟨-, hm⟩ := search_spec hs
  obtain ⟨w, hw⟩ := exists_reads hm
  have hclosed := hw.left_eq
  unfold Match.resume? at h
  split at h
  · rename_i hlt
    obtain rfl : m.closed.spot = t := by simpa using h
    exact hlt
  · obtain ⟨⟨c, u⟩, hn, rfl⟩ := Option.map_eq_some_iff.mp h
    have hnext := Spot.left_lt_of_next? hn
    simp only at hclosed ⊢
    omega

/-- The matches are the first one and those from where the search goes on behind it. -/
theorem matchesFrom_of_search (h : p.search s = some m) :
    p.matchesFrom s = m :: (m.resume?.map p.matchesFrom).getD [] := by
  rw [matchesFrom, h]
  dsimp only
  cases hr : m.resume? with
  | none => rfl
  | some t =>
    obtain ⟨⟨w, hw⟩, -⟩ := search_spec h
    have hlt := left_lt_of_resume? h hr
    have hle := hw.left_eq
    dsimp only
    rw [dif_pos (by omega)]
    rfl

theorem matchesFrom_of_none (h : p.search s = none) : p.matchesFrom s = [] := by
  rw [matchesFrom, h]

theorem matchesFrom_eq_of_search_eq (h : p.search s = p.search t) : p.matchesFrom s = p.matchesFrom t := by
  cases ht : p.search t with
  | none => rw [matchesFrom_of_none ht, matchesFrom_of_none (h.trans ht)]
  | some m => rw [matchesFrom_of_search ht, matchesFrom_of_search (h.trans ht)]

theorem matchesFrom_of_at? (h : p.at? s = some m) (hlt : m.closed.spot.left < m.opened.left) :
    p.matchesFrom s = m :: p.matchesFrom m.closed.spot := by
  rw [matchesFrom_of_search (search_of_at? h), Match.resume?, if_pos hlt]
  rfl

/-- A stretch in which no match begins is passed over. -/
theorem matchesFrom_skip {w : Text} (hr : s.Reads w t)
    (h : ∀ a b u, w = a ++ b → b ≠ [] → s.Reads a u → p.at? u = none) : p.matchesFrom s = p.matchesFrom t := by
  induction w generalizing s with
  | nil => rw [hr.eq_of_reads (.refl s)]
  | cons c w ih =>
    obtain ⟨u, hn, hc, hu⟩ := hr.of_cons
    have hhere : p.at? s = none := h [] (c :: w) s rfl (List.cons_ne_nil c w) (.refl s)
    rw [matchesFrom_eq_of_search_eq (search_of_next? hhere hn)]
    refine ih hu fun a b v hw hb hv => ?_
    exact h (c :: a) b v (by rw [hw]; rfl) hb (hc.trans hv)

theorem matchesFrom_of_nil (hs : s.ahead = []) (h : p.at? s = none) : p.matchesFrom s = [] := by
  apply matchesFrom_of_none
  rw [search, h]
  dsimp only
  split
  · rfl
  · rename_i hsome
    rw [(Spot.reads_of_next? hsome).ahead_eq] at hs
    cases hs

/-- In a stretch that something follows no match begins. -/
def Skips (p : Pattern) (w r : Text) : Prop :=
  ∀ (a b : Text) (s : Spot), w = a ++ b → b ≠ [] → s.ahead = b ++ r → p.at? s = none

theorem Skips.append {v w r : Text} (hv : p.Skips v (w ++ r)) (hw : p.Skips w r) : p.Skips (v ++ w) r := by
  intro a b s hab hb hs
  rcases List.append_eq_append_iff.mp hab with ⟨d, -, rfl⟩ | ⟨d, rfl, rfl⟩
  · exact hw d b s rfl hb hs
  · by_cases hd : d = []
    · rw [hd] at hb hs
      exact hw [] w s rfl hb hs
    · rw [List.append_assoc] at hs
      exact hv a d s rfl hd hs

theorem Skips.cons {c : Char} {w r : Text} (hc : ∀ s : Spot, s.ahead = c :: (w ++ r) → p.at? s = none)
    (hw : p.Skips w r) : p.Skips (c :: w) r := by
  refine Skips.append (v := [c]) (fun a b s hab hb hs => ?_) hw
  cases a with
  | nil =>
    obtain rfl : [c] = b := hab
    exact hc s hs
  | cons d a =>
    obtain ⟨-, h⟩ := List.cons.inj hab
    exact absurd (List.append_eq_nil_iff.mp h.symm).2 hb

theorem Skips.matchesFrom_eq {w r : Text} (h : p.Skips w r) (hs : s.ahead = w ++ r) (hr : s.Reads w t) :
    p.matchesFrom s = p.matchesFrom t := by
  refine matchesFrom_skip hr fun a b u hab hb hu => h a b u hab hb ?_
  refine hu.ahead_of_append ?_
  rw [hs, hab, List.append_assoc]

/-- A pattern that begins with a fixed text matches only where that text is ahead. -/
theorem prefix_of_at? {k : Text} {ps : List Pattern} (h : (sequence (lit k :: ps)).at? s = some m) : k <+: s.ahead := by
  obtain ⟨-, hm⟩ := mem_outcomes_of_at? h
  obtain ⟨u, hu, -⟩ := mem_outcomes_sequence_cons.mp hm
  obtain ⟨w, hw, hr⟩ := reads_language_of_mem_outcomes hu
  obtain rfl : w = k := mem_language_lit.mp hw
  exact ⟨u.spot.ahead, hr.ahead_eq.symm⟩

/-- Where the first sign of that text is missing, there is nothing to be found. -/
theorem skips_of_not_mem {c : Char} {k w r : Text} {ps : List Pattern} (h : c ∉ w) :
    (sequence (lit (c :: k) :: ps)).Skips w r := by
  intro a b s hab hb hs
  rw [Option.eq_none_iff_forall_not_mem]
  intro m hm
  obtain ⟨d, b, rfl⟩ := List.exists_cons_of_ne_nil hb
  obtain ⟨z, hz⟩ := prefix_of_at? hm
  rw [hs] at hz
  obtain ⟨rfl, -⟩ := List.cons.inj hz
  exact h (hab ▸ List.mem_append_right a List.mem_cons_self)

/-! ## Matches that a search cannot miss -/

theorem at?_of_search (h : p.search s = some m) : p.at? m.opened = some m := by
  fun_induction search p s with
  | case1 s found hat =>
    obtain rfl : found = m := by simpa using h
    rwa [(mem_outcomes_of_at? hat).1]
  | case2 s hat hnext => cases h
  | case3 s hat c t hnext ih => exact ih h

/-- A search goes no further than the first place with a match. -/
theorem left_le_of_search {w : Text} (h : p.search s = some m) (hr : s.Reads w t) (hat : (p.at? t).isSome = true) :
    t.left ≤ m.opened.left := by
  fun_induction search p s generalizing w with
  | case1 s found hfound =>
    obtain rfl : found = m := by simpa using h
    have hleft := hr.left_eq
    rw [(mem_outcomes_of_at? hfound).1]
    omega
  | case2 s hnone hnext => cases h
  | case3 s hnone c u hnext ih =>
    cases w with
    | nil =>
      rw [hr.eq_of_reads (.refl s), hnone] at hat
      cases hat
    | cons d w =>
      obtain ⟨u', hn, -, hu⟩ := hr.of_cons
      obtain ⟨rfl, rfl⟩ := Prod.mk.inj (Option.some.inj (hnext.symm.trans hn))
      exact ih h hu

/-- Where no match that begins before a place ends behind it, a match at that place is found. -/
theorem mem_matchesFrom_of_at? {s : Spot} {w : Text} (hr : s.Reads w t) (hat : p.at? t = some m)
    (hfree : ∀ v u k, s.Reads v u → t.left < u.left → p.at? u = some k → t.left ≤ k.closed.spot.left) :
    m ∈ p.matchesFrom s := by
  have hsome : (p.at? t).isSome = true := by
    rw [hat]
    rfl
  obtain ⟨k, hk⟩ := Option.isSome_iff_exists.mp (isSome_search_iff.mpr ⟨w, t, hr, hsome⟩)
  obtain ⟨⟨v, hv⟩, -⟩ := search_spec hk
  have hkat := at?_of_search hk
  obtain ⟨x, -, hx⟩ := hv.reads_of_left_le hr (left_le_of_search hk hr hsome)
  rw [matchesFrom_of_search hk]
  rcases Nat.eq_or_lt_of_le (left_le_of_search hk hr hsome) with heq | hlt
  · have hnil : x = [] := by
      have hleft := hx.left_eq
      exact List.length_eq_zero_iff.mp (by omega)
    rw [hnil] at hx
    rw [← hx.eq_of_reads (.refl _), hat] at hkat
    rw [Option.some.inj hkat]
    exact List.mem_cons_self
  · -- the search goes on behind the match `k`, and not behind the place
    have hclosed := hfree v k.opened k hv hlt hkat
    have hresume : ∃ u y, k.resume? = some u ∧ s.Reads y u ∧ t.left ≤ u.left := by
      unfold Match.resume?
      split
      · obtain ⟨y, hy⟩ := exists_reads (search_spec hk).2
        exact ⟨k.closed.spot, v ++ y, rfl, hv.trans hy, hclosed⟩
      · rename_i hempty
        obtain ⟨y, hy⟩ := exists_reads (search_spec hk).2
        obtain ⟨c, r, hahead⟩ : ∃ c r, k.closed.spot.ahead = c :: r := by
          refine List.exists_cons_of_ne_nil fun hnil => ?_
          have hleft := k.closed.spot.left_eq
          rw [hnil, List.length_nil] at hleft
          omega
        obtain ⟨u, hn, hu⟩ := Spot.exists_reads_of_cons hahead
        refine ⟨u, v ++ y ++ [c], by rw [hn]; rfl, (hv.trans hy).trans hu, ?_⟩
        have hleft := hu.left_eq
        rw [List.length_singleton] at hleft
        omega
    obtain ⟨u, y, hu, hy, hle⟩ := hresume
    have hcloser := left_lt_of_resume? hk hu
    have hstart := hv.left_eq
    obtain ⟨z, -, hz⟩ := hy.reads_of_left_le hr hle
    rw [hu]
    refine List.mem_cons_of_mem k ?_
    exact mem_matchesFrom_of_at? hz hat fun a b l ha => hfree (y ++ a) b l (hy.trans ha)
termination_by s.left

/-- Patterns that match alike at all places ahead find the same matches. -/
theorem matchesFrom_congr {s : Spot} (h : ∀ w t, s.Reads w t → p.at? t = q.at? t) :
    p.matchesFrom s = q.matchesFrom s := by
  have hsearch : p.search s = q.search s := by
    fun_induction search p s with
    | case1 s found hat => rw [search_of_at? ((h [] s (.refl s)).symm.trans hat)]
    | case2 s hat hnext =>
      have hq : q.at? s = none := (h [] s (.refl s)).symm.trans hat
      rw [search, hq]
      dsimp only
      split
      · rfl
      · rename_i hsome
        rw [hnext] at hsome
        cases hsome
    | case3 s hat c t hnext ih =>
      rw [search_of_next? ((h [] s (.refl s)).symm.trans hat) hnext]
      exact ih fun w u hu => h ([c] ++ w) u ((Spot.reads_of_next? hnext).trans hu)
  cases hq : q.search s with
  | none => rw [matchesFrom_of_none hq, matchesFrom_of_none (hsearch.trans hq)]
  | some m =>
    rw [matchesFrom_of_search hq, matchesFrom_of_search (hsearch.trans hq)]
    cases hr : m.resume? with
    | none => rfl
    | some t =>
      obtain ⟨w, hw⟩ := reads_of_resume? hq hr
      obtain ⟨⟨v, hv⟩, -⟩ := search_spec hq
      have hlt := left_lt_of_resume? hq hr
      have hle := hv.left_eq
      have hrest := matchesFrom_congr (s := t) fun x u hu => h (w ++ x) u (hw.trans hu)
      simp [hrest]
termination_by s.left
decreasing_by omega

end Pattern

end SourceArchive
