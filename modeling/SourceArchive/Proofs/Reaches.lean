import SourceArchive.Proofs.Searches
import Mathlib.Logic.Relation

/-!
# How far a pattern can read

Whether a pattern occurs in a text does not depend on which of its outcomes are preferred, nor on what is captured.  What
is left of a pattern is a relation between places (`Pattern.Reaches`), which is composed as the pattern is.
-/

namespace SourceArchive

namespace Pattern

variable {p q : Pattern} {s t : Spot}

/-- From a place the pattern can read up to another. -/
def Reaches : Pattern → Spot → Spot → Prop
  | empty, s, t => t = s
  | one c, s, t => ∃ x, s.next? = some (x, t) ∧ c.has x = true
  | seq a b, s, t => ∃ u, a.Reaches s u ∧ b.Reaches u t
  | alt a b, s, t => a.Reaches s t ∨ b.Reaches s t
  | star _ a, s, t => Relation.ReflTransGen (fun u v => a.Reaches u v ∧ v.left < u.left) s t
  | capture _ a, s, t => a.Reaches s t
  | assert a, s, t => a.holdsAt s = true ∧ t = s

/-- If the rounds agree with a relation, any number of rounds do. -/
theorem exists_mem_rounds_iff {eager : Bool} {ways : Progress → List Progress} {r : Spot → Spot → Prop}
    (hways : ∀ s t, (∃ u ∈ ways s, u.spot = t) ↔ r s.spot t) (s : Progress) (t : Spot) :
    (∃ u ∈ rounds eager ways s, u.spot = t) ↔
      Relation.ReflTransGen (fun u v => r u v ∧ v.left < u.left) s.spot t := by
  rw [Relation.ReflTransGen.cases_head_iff]
  constructor
  · rintro ⟨u, hu, rfl⟩
    rcases mem_rounds_iff.mp hu with rfl | ⟨v, hv, hlt, huv⟩
    · exact Or.inl rfl
    · exact Or.inr ⟨v.spot, ⟨(hways s v.spot).mp ⟨v, hv, rfl⟩, hlt⟩,
        (exists_mem_rounds_iff hways v u.spot).mp ⟨u, huv, rfl⟩⟩
  · rintro (rfl | ⟨v, ⟨hv, hlt⟩, hvt⟩)
    · exact ⟨s, mem_rounds_iff.mpr (Or.inl rfl), rfl⟩
    · obtain ⟨v, hmem, rfl⟩ := (hways s v).mpr hv
      obtain ⟨u, hu, rfl⟩ := (exists_mem_rounds_iff hways v t).mpr hvt
      exact ⟨u, mem_rounds_iff.mpr (Or.inr ⟨v, hmem, hlt, hu⟩), rfl⟩
termination_by s.spot.left

/-- The places where outcomes end are those that the pattern reaches, whatever was captured before. -/
theorem exists_mem_outcomes_iff_reaches (p : Pattern) (s : Progress) (t : Spot) :
    (∃ u ∈ p.outcomes s, u.spot = t) ↔ p.Reaches s.spot t := by
  induction p generalizing s t with
  | empty => simp [outcomes, Reaches, eq_comm]
  | one c =>
    simp only [mem_outcomes_one, Reaches]
    constructor
    · rintro ⟨_, ⟨x, u, hn, hx, rfl⟩, rfl⟩
      exact ⟨x, hn, hx⟩
    · rintro ⟨x, hn, hx⟩
      exact ⟨{ s with spot := t }, ⟨x, t, hn, hx, rfl⟩, rfl⟩
  | seq a b iha ihb =>
    simp only [mem_outcomes_seq, Reaches]
    constructor
    · rintro ⟨u, ⟨v, hv, hu⟩, rfl⟩
      exact ⟨v.spot, (iha s v.spot).mp ⟨v, hv, rfl⟩, (ihb v u.spot).mp ⟨u, hu, rfl⟩⟩
    · rintro ⟨v, hv, ht⟩
      obtain ⟨v, hmem, rfl⟩ := (iha s v).mpr hv
      obtain ⟨u, hu, rfl⟩ := (ihb v t).mpr ht
      exact ⟨u, ⟨v, hmem, hu⟩, rfl⟩
  | alt a b iha ihb =>
    rw [Reaches, ← iha s t, ← ihb s t]
    simp only [mem_outcomes_alt, or_and_right, exists_or]
  | star eager a ih => exact exists_mem_rounds_iff ih s t
  | capture n a ih =>
    rw [Reaches, ← ih s t]
    simp only [mem_outcomes_capture]
    constructor
    · rintro ⟨_, ⟨u, hu, rfl⟩, rfl⟩
      exact ⟨u, hu, rfl⟩
    · rintro ⟨u, hu, rfl⟩
      exact ⟨close n s.spot u, ⟨u, hu, rfl⟩, rfl⟩
  | assert a =>
    simp only [mem_outcomes_assert, Reaches]
    constructor
    · rintro ⟨u, ⟨hholds, rfl⟩, rfl⟩
      exact ⟨hholds, rfl⟩
    · rintro ⟨hholds, rfl⟩
      exact ⟨s, ⟨hholds, rfl⟩, rfl⟩

theorem occursIn_iff_reaches {text : Text} :
    p.occursIn text = true ↔ ∃ w s t, (Spot.start text).Reads w s ∧ p.Reaches s t := by
  have hat (s : Spot) : (p.at? s).isSome = true ↔ ∃ t, p.Reaches s t := by
    rw [isSome_at?_iff_exists]
    constructor
    · rintro ⟨t, ht⟩
      exact ⟨t.spot, (exists_mem_outcomes_iff_reaches p _ _).mp ⟨t, ht, rfl⟩⟩
    · rintro ⟨t, ht⟩
      obtain ⟨u, hu, -⟩ := (exists_mem_outcomes_iff_reaches p { spot := s } t).mpr ht
      exact ⟨u, hu⟩
  simp only [occursIn_iff, hat, exists_and_left]

/-! ## Composed patterns -/

theorem reaches_oneOf_iff {ps : List Pattern} : (oneOf ps).Reaches s t ↔ ∃ p ∈ ps, p.Reaches s t := by
  induction ps with
  | nil => simp [oneOf, Reaches, CharClass.has]
  | cons p ps ih =>
    cases ps with
    | nil => simp [oneOf]
    | cons q qs =>
      rw [List.exists_mem_cons_iff, ← ih]
      rfl

end Pattern

end SourceArchive
