import SourceArchive.Proofs.Reading
import Mathlib.Data.List.Infix

/-!
# Counting matches by their places

The matches that a search finds in a text are counted by the places where the pattern matches, if whether it matches
there depends on what is ahead alone and no place lies within a match (`Pattern.Separate`).  Places are easier to
count than matches: those of two texts side by side add up (`Pattern.places_append`).
-/

namespace SourceArchive

namespace Pattern

/-- Whether a pattern matches at the beginning of a text. -/
def fits (p : Pattern) (t : Text) : Bool := (p.at? (.start t)).isSome

/-- The number of places of a text where a pattern matches if `behind` follows the text. -/
def places (p : Pattern) (t behind : Text) : Nat := t.tails.countP fun a => !a.isEmpty && p.fits (a ++ behind)

variable {p : Pattern}

/-! ## Sums of places -/

theorem places_nil (behind : Text) : p.places [] behind = 0 := rfl

theorem places_cons (c : Char) (r behind : Text) :
    p.places (c :: r) behind = p.places r behind + if p.fits (c :: r ++ behind) then 1 else 0 := by
  rw [places, List.tails, List.countP_cons]
  rfl

theorem places_append (x y behind : Text) : p.places (x ++ y) behind = p.places x (y ++ behind) + p.places y behind := by
  induction x with
  | nil => rw [List.nil_append, places_nil, Nat.zero_add]
  | cons c x ih =>
    rw [List.cons_append, places_cons, places_cons, ih, ← List.cons_append, List.append_assoc]
    omega

theorem places_congr {x y z : Text} (h : ∀ a, a <:+ x → a ≠ [] → p.fits (a ++ y) = p.fits (a ++ z)) :
    p.places x y = p.places x z := by
  apply List.countP_congr
  intro a ha
  by_cases hne : a = []
  · simp [hne]
  · rw [h a ((List.mem_tails _ _).mp ha) hne]

theorem places_eq_zero_iff {x y : Text} : p.places x y = 0 ↔ ∀ a, a <:+ x → a ≠ [] → p.fits (a ++ y) = false := by
  rw [places, List.countP_eq_zero]
  constructor
  · intro h a ha hne
    have := h a ((List.mem_tails _ _).mpr ha)
    simpa [hne] using this
  · intro h a ha
    by_cases hne : a = []
    · simp [hne]
    · simp [h a ((List.mem_tails _ _).mp ha) hne]

theorem places_mono {x y z : Text} (h : ∀ a, p.fits (a ++ y) = true → p.fits (a ++ z) = true) :
    p.places x y ≤ p.places x z := by
  apply List.countP_mono_left
  intro a _ ha
  rw [Bool.and_eq_true] at ha ⊢
  exact ⟨ha.1, h a ha.2⟩

/-- If a text behind brings matches to no fewer places and to no more of them, it brings them to the same places. -/
theorem fits_of_places_eq {x y z : Text} (h : ∀ a, p.fits (a ++ y) = true → p.fits (a ++ z) = true)
    (heq : p.places x z = p.places x y) : ∀ a, a <:+ x → a ≠ [] → p.fits (a ++ z) = true → p.fits (a ++ y) = true := by
  induction x with
  | nil => exact fun a ha hne => absurd (List.suffix_nil.mp ha) hne
  | cons c x ih =>
    have hle : p.places x y ≤ p.places x z := places_mono h
    have hhead := h (c :: x)
    rw [places_cons, places_cons] at heq
    have hrest : p.places x z = p.places x y ∧ (p.fits (c :: x ++ z) = true → p.fits (c :: x ++ y) = true) := by
      by_cases hy : p.fits (c :: x ++ y) = true
      · rw [if_pos hy, if_pos (hhead hy)] at heq
        exact ⟨by omega, fun _ => hy⟩
      · rw [if_neg hy] at heq
        split at heq
        · omega
        · rename_i hz
          exact ⟨heq, fun h => absurd h hz⟩
    intro a ha hne hfits
    rcases List.suffix_cons_iff.mp ha with rfl | ha
    · exact hrest.2 hfits
    · exact ih hrest.1 a ha hne hfits

/-! ## Matches at places -/

/-- Whether the pattern matches is seen from what is ahead, and behind the start of a match there is no further place
up to its end. -/
structure Separate (p : Pattern) : Prop where
  ahead : ∀ s : Spot, (p.at? s).isSome = p.fits s.ahead
  apart : ∀ (s : Spot) (m : Match), p.at? s = some m → ∃ w, s.Reads w m.closed.spot ∧ w ≠ [] ∧
    ∀ x y, w = x ++ y → x ≠ [] → y ≠ [] → p.fits (y ++ m.behind) = false

/-- A match takes one place. -/
theorem Separate.places_of_at? (h : p.Separate) {s : Spot} {m : Match} (hm : p.at? s = some m) :
    m.closed.spot.left < m.opened.left ∧ p.places s.ahead [] = p.places m.behind [] + 1 := by
  have hopened : m.opened = s := by
    obtain ⟨t, -, rfl⟩ := Option.map_eq_some_iff.mp hm
    rfl
  obtain ⟨w, hw, hne, hapart⟩ := h.apart s m hm
  have hfits : p.fits s.ahead = true := by rw [← h.ahead, hm, Option.isSome_some]
  have hlen : 0 < w.length := List.length_pos_iff.mpr hne
  have hahead : s.ahead = w ++ m.behind := hw.ahead_eq
  constructor
  · rw [hopened, hw.left_eq]
    omega
  · obtain ⟨c, y, rfl⟩ := List.exists_cons_of_ne_nil hne
    -- behind its first character the match holds no further place
    have hinner : p.places y m.behind = 0 := by
      rw [places_eq_zero_iff]
      rintro a ⟨x, rfl⟩ ha
      exact hapart (c :: x) a rfl (by simp) ha
    rw [hahead] at hfits ⊢
    rw [places_append, List.append_nil, places_cons, if_pos hfits, hinner]
    omega

theorem Separate.search_places (h : p.Separate) (s : Spot) :
    (p.search s = none → p.places s.ahead [] = 0) ∧
      ∀ m, p.search s = some m → m.closed.spot.left < m.opened.left ∧ m.opened.left ≤ s.left ∧
        p.places s.ahead [] = p.places m.behind [] + 1 := by
  fun_induction search p s with
  | case1 s found hat =>
    refine ⟨by simp, fun m hm => ?_⟩
    obtain rfl : found = m := by simpa using hm
    obtain ⟨hlt, hplaces⟩ := h.places_of_at? hat
    obtain ⟨t, -, rfl⟩ := Option.map_eq_some_iff.mp hat
    exact ⟨hlt, Nat.le_refl _, hplaces⟩
  | case2 s hat hnext =>
    have hnil : s.ahead = [] := by
      unfold Spot.next? at hnext
      split at hnext
      · assumption
      · simp at hnext
    refine ⟨fun _ => ?_, by simp⟩
    rw [hnil, places_nil]
  | case3 s hat c t hnext ih =>
    have hfits : p.fits s.ahead = false := by rw [← h.ahead, hat, Option.isSome_none]
    have hplaces : p.places s.ahead [] = p.places t.ahead [] := by
      have hahead : s.ahead = c :: t.ahead := (Spot.reads_of_next? hnext).ahead_eq
      rw [hahead] at hfits ⊢
      rw [places_cons, List.append_nil, hfits]
      simp
    refine ⟨fun hnone => hplaces.trans (ih.1 hnone), fun m hm => ?_⟩
    obtain ⟨hlt, hle, hrest⟩ := ih.2 m hm
    exact ⟨hlt, Nat.le_trans hle (Nat.le_of_lt (Spot.left_lt_of_next? hnext)), hplaces.trans hrest⟩

/-- As many matches are found as there are places. -/
theorem Separate.length_matchesFrom (h : p.Separate) (s : Spot) : (p.matchesFrom s).length = p.places s.ahead [] := by
  rw [matchesFrom]
  rcases hsearch : p.search s with _ | m
  · exact ((h.search_places s).1 hsearch).symm
  · obtain ⟨hlt, hle, hplaces⟩ := (h.search_places s).2 m hsearch
    have hresume : m.resume? = some m.closed.spot := by rw [Match.resume?, if_pos hlt]
    have hleft : m.closed.spot.left < s.left := Nat.lt_of_lt_of_le hlt hle
    have hrest := h.length_matchesFrom m.closed.spot
    simp only [hresume, dif_pos hleft, List.length_cons]
    rw [hplaces, hrest]
    rfl
termination_by s.left

theorem Separate.length_matchesIn (h : p.Separate) (t : Text) : (p.matchesIn t).length = p.places t [] :=
  h.length_matchesFrom (.start t)

end Pattern

end SourceArchive
