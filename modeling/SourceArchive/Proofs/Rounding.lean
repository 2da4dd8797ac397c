import SourceArchive.Number.Binary64
import Mathlib.Algebra.Order.Field.Power
import Mathlib.Data.Int.Log
import Mathlib.Data.Rat.Floor
import Mathlib.Tactic.FieldSimp
import Mathlib.Tactic.Linarith
import Mathlib.Tactic.Positivity
import Mathlib.Tactic.Ring

/-!
# Rounding to floating-point numbers keeps the order

A positive number is rounded to the nearest multiple of a unit, which is a power of two settled by the size of the
number (`Binary64.unitExponent`).  Within one unit, a greater number has no smaller multiple nearest to it
(`Nearest.mono`); between numbers of different units lies a power of two, which is a multiple of both.  Numbers too large
for a finite result are left out, as their rounding has no value.
-/

namespace SourceArchive

/-! ## The nearest whole number -/

/-- `m` is a whole number nearest to `x`, and even if there are two. -/
structure Nearest (m : Nat) (x : Rat) : Prop where
  below : x ≤ m + 1 / 2
  above : m - 1 / 2 ≤ x
  even : x = m + 1 / 2 ∨ x = m - 1 / 2 → m % 2 = 0

namespace Nearest

theorem natCast (m : Nat) : Nearest m m where
  below := by linarith
  above := by linarith
  even h := by rcases h with h | h <;> linarith

theorem mono {m k : Nat} {x y : Rat} (hm : Nearest m x) (hk : Nearest k y) (h : x ≤ y) : m ≤ k := by
  by_contra hlt
  have hsucc : k + 1 ≤ m := by omega
  have hcast : (k : Rat) + 1 ≤ m := by exact_mod_cast hsucc
  have hbelow := hk.below
  have habove := hm.above
  -- only a tie between the two is left, and of two neighbours one is odd
  have hy : y = k + 1 / 2 := by linarith
  have hx : x = m - 1 / 2 := by linarith
  have heq : (m : Rat) = k + 1 := by linarith
  have hnat : m = k + 1 := by exact_mod_cast heq
  have hmeven := hm.even (Or.inr hx)
  have hkeven := hk.even (Or.inl hy)
  omega

end Nearest

theorem nearest_divNearest (n : Nat) {d : Nat} (hd : 0 < d) : Nearest (divNearest n d) (n / d) := by
  have hpos : (0 : Rat) < d := by exact_mod_cast hd
  have hx : (n : Rat) / d = ((n / d : Nat) : Rat) + ((n % d : Nat) : Rat) / d := by
    have hcast : (n : Rat) = d * ((n / d : Nat) : Rat) + ((n % d : Nat) : Rat) := by
      exact_mod_cast (Nat.div_add_mod n d).symm
    rw [hcast]
    field_simp
  have hlow : 0 ≤ ((n % d : Nat) : Rat) / d := by positivity
  have hhigh : ((n % d : Nat) : Rat) / d < 1 := by
    rw [div_lt_one hpos]
    exact_mod_cast Nat.mod_lt n hd
  have hless : 2 * (n % d) < d ↔ ((n % d : Nat) : Rat) / d < 1 / 2 := by
    rw [div_lt_iff₀ hpos, ← Nat.cast_lt (α := Rat)]
    push_cast
    constructor <;> intro h <;> linarith
  have hmore : d < 2 * (n % d) ↔ 1 / 2 < ((n % d : Nat) : Rat) / d := by
    rw [lt_div_iff₀ hpos, ← Nat.cast_lt (α := Rat)]
    push_cast
    constructor <;> intro h <;> linarith
  rw [divNearest, hx]
  generalize ((n % d : Nat) : Rat) / d = part at *
  generalize n / d = q
  by_cases h1 : part < 1 / 2
  · rw [if_pos (hless.mpr h1)]
    exact ⟨by linarith, by linarith, fun h => by rcases h with h | h <;> linarith⟩
  by_cases h2 : 1 / 2 < part
  · rw [if_neg (mt hless.mp h1), if_pos (hmore.mpr h2)]
    refine ⟨?_, ?_, fun h => ?_⟩
    · push_cast; linarith
    · push_cast; linarith
    · push_cast at h
      rcases h with h | h <;> linarith
  · rw [if_neg (mt hless.mp h1), if_neg (mt hmore.mp h2)]
    have hhalf : part = 1 / 2 := by linarith
    by_cases heven : q % 2 = 0
    · rw [if_pos heven]
      exact ⟨by linarith, by linarith, fun _ => heven⟩
    · rw [if_neg heven]
      refine ⟨?_, ?_, fun _ => by omega⟩
      · push_cast; linarith
      · push_cast; linarith

theorem ratPow_eq_zpow (b : Nat) (e : Int) : ratPow b e = (b : Rat) ^ e := by
  rw [ratPow]
  split
  · rename_i h
    obtain ⟨k, rfl⟩ := Int.eq_ofNat_of_zero_le h
    simp
  · rename_i h
    obtain ⟨k, hk⟩ := Int.eq_ofNat_of_zero_le (by omega : 0 ≤ -e)
    obtain rfl : e = -(k : Int) := by omega
    simp

namespace Binary64

/-! ## The unit of a number -/

/-- The exponent of the unit that a positive number is rounded to a multiple of. -/
def unitExponent (x : Rat) : Int := max minExponent (Int.log 2 x - 52)

theorem unitExponent_mono {x y : Rat} (hx : 0 < x) (h : x ≤ y) : unitExponent x ≤ unitExponent y := by
  have hlog := Int.log_mono_right (b := 2) hx h
  rw [unitExponent, unitExponent]
  omega

theorem le_log_iff {x : Rat} (hx : 0 < x) (k : Int) : k ≤ Int.log 2 x ↔ (2 : Rat) ^ k ≤ x := by
  rw [← Int.zpow_le_iff_le_log (by decide) hx]
  norm_num

theorem log_lt_iff {x : Rat} (hx : 0 < x) (k : Int) : Int.log 2 x < k ↔ x < (2 : Rat) ^ k := by
  rw [← not_le, le_log_iff hx, not_le]

/-- The comparison that `exponentFor` makes, for either sign of the exponent. -/
theorem bound_le_iff {n d : Nat} (hx : (0 : Rat) < n / d) (hd : 0 < d) (low : Int) :
    (if 0 ≤ low then decide (d * bound * Nat.pow 2 low.toNat ≤ n)
      else decide (d * bound ≤ n * Nat.pow 2 (-low).toNat)) = true ↔ low + 53 ≤ Int.log 2 ((n : Rat) / d) := by
  have hd' : (0 : Rat) < d := by exact_mod_cast hd
  have hbound : (bound : Rat) = 2 ^ (53 : Int) := by norm_num [bound, precision]
  rw [le_log_iff hx, le_div_iff₀ hd', zpow_add₀ (by norm_num), ← hbound]
  split
  · rename_i h
    obtain ⟨k, rfl⟩ := Int.eq_ofNat_of_zero_le h
    rw [decide_eq_true_iff, ← Nat.cast_le (α := Rat)]
    have hcast : ((d * bound * Nat.pow 2 (k : Int).toNat : Nat) : Rat) = 2 ^ (k : Int) * bound * d := by
      simp
      ring
    rw [hcast]
  · rename_i h
    obtain ⟨k, hk⟩ := Int.eq_ofNat_of_zero_le (by omega : 0 ≤ -low)
    obtain rfl : low = -(k : Int) := by omega
    rw [decide_eq_true_iff, ← Nat.cast_le (α := Rat)]
    have hcast : ((n * Nat.pow 2 (-(-(k : Int))).toNat : Nat) : Rat) = n * 2 ^ k := by simp
    have hpow : (0 : Rat) < 2 ^ k := by positivity
    rw [hcast, zpow_neg, zpow_natCast, mul_assoc, inv_mul_le_iff₀ hpow, Nat.cast_mul, mul_comm (d : Rat),
      mul_comm (n : Rat)]

theorem exponentFor_eq {n d : Nat} (hn : 0 < n) (hd : 0 < d) : exponentFor n d = unitExponent (n / d) := by
  have hx : (0 : Rat) < n / d := by positivity
  have hd' : (0 : Rat) < d := by exact_mod_cast hd
  -- the quotient lies between two powers of two that the numbers of digits settle
  have hlow : (Nat.log2 n : Int) - Nat.log2 d - 1 ≤ Int.log 2 ((n : Rat) / d) := by
    have hnlow : (2 : Rat) ^ (Nat.log2 n : Int) ≤ n := by exact_mod_cast Nat.log2_self_le hn.ne'
    have hdhigh : (d : Rat) ≤ 2 ^ ((Nat.log2 d : Int) + 1) := by exact_mod_cast (Nat.lt_log2_self (n := d)).le
    rw [le_log_iff hx, le_div_iff₀ hd']
    calc (2 : Rat) ^ ((Nat.log2 n : Int) - Nat.log2 d - 1) * d
        ≤ 2 ^ ((Nat.log2 n : Int) - Nat.log2 d - 1) * 2 ^ ((Nat.log2 d : Int) + 1) := by gcongr
      _ = 2 ^ (Nat.log2 n : Int) := by
          rw [← zpow_add₀ (by norm_num)]
          congr 1
          omega
      _ ≤ n := hnlow
  have hhigh : Int.log 2 ((n : Rat) / d) < (Nat.log2 n : Int) - Nat.log2 d + 1 := by
    have hnhigh : (n : Rat) < 2 ^ ((Nat.log2 n : Int) + 1) := by exact_mod_cast Nat.lt_log2_self (n := n)
    have hdlow : (2 : Rat) ^ (Nat.log2 d : Int) ≤ d := by exact_mod_cast Nat.log2_self_le hd.ne'
    rw [log_lt_iff hx, div_lt_iff₀ hd']
    calc (n : Rat) < 2 ^ ((Nat.log2 n : Int) + 1) := hnhigh
      _ = 2 ^ ((Nat.log2 n : Int) - Nat.log2 d + 1) * 2 ^ (Nat.log2 d : Int) := by
          rw [← zpow_add₀ (by norm_num)]
          congr 1
          omega
      _ ≤ (2 : Rat) ^ ((Nat.log2 n : Int) - Nat.log2 d + 1) * d := by gcongr
  have hprecision : (precision : Int) = 53 := rfl
  rw [exponentFor, unitExponent]
  simp only [hprecision, bound_le_iff hx hd]
  congr 1
  split <;> omega

/-! ## Rounding -/

/-- All numbers below this one are rounded to finite numbers. -/
def limit : Rat := 2 ^ (1023 : Int)

theorem pow_lt_limit {k : Nat} (hk : k < 1023) : (2 : Rat) ^ k < limit := by
  rw [limit, ← zpow_natCast]
  exact zpow_lt_zpow_right₀ (by norm_num) (by exact_mod_cast hk)

theorem zpow_unitExponent_pos (x : Rat) : (0 : Rat) < 2 ^ unitExponent x := by positivity

/-- A quotient that is not too large is rounded to the nearest multiple of its unit. -/
theorem exists_toRat_ofRatio (negative : Bool) {n d : Nat} (hn : 0 < n) (hd : 0 < d) (hlt : (n : Rat) / d < limit) :
    ∃ m, Nearest m ((n / d : Rat) / 2 ^ unitExponent (n / d)) ∧
      (ofRatio negative n d).toRat = (if negative then -1 else 1) * m * 2 ^ unitExponent (n / d) := by
  have hx : (0 : Rat) < n / d := by positivity
  have hlog : Int.log 2 ((n : Rat) / d) < 1023 := (log_lt_iff hx 1023).mpr hlt
  have hexponent : unitExponent (n / d) ≤ 970 := by
    rw [unitExponent, minExponent]
    omega
  rw [ofRatio, if_neg hn.ne', exponentFor_eq hn hd]
  generalize unitExponent (n / d) = e at *
  -- the whole number of units, whichever way the exponent is brought into the quotient
  have hscaled : ∃ n' d', 0 < d' ∧ (if 0 ≤ e then divNearest n (d * Nat.pow 2 e.toNat)
      else divNearest (n * Nat.pow 2 (-e).toNat) d) = divNearest n' d' ∧ (n' : Rat) / d' = (n / d : Rat) / 2 ^ e := by
    split
    · rename_i h
      obtain ⟨k, rfl⟩ := Int.eq_ofNat_of_zero_le h
      refine ⟨n, d * Nat.pow 2 k, Nat.mul_pos hd (Nat.two_pow_pos k), rfl, ?_⟩
      simp [div_div]
    · rename_i h
      obtain ⟨k, hk⟩ := Int.eq_ofNat_of_zero_le (by omega : 0 ≤ -e)
      obtain rfl : e = -(k : Int) := by omega
      refine ⟨n * Nat.pow 2 k, d, hd, by simp, ?_⟩
      simp
      ring
  obtain ⟨n', d', hd', hm, heq⟩ := hscaled
  refine ⟨divNearest n' d', heq ▸ nearest_divNearest n' hd', ?_⟩
  dsimp only
  rw [hm]
  have hmax : maxExponent = 971 := rfl
  by_cases hbound : divNearest n' d' = bound
  · -- the carry into the next exponent leaves the value as it is
    have hcarry : ((bound / 2 : Nat) : Rat) * 2 ^ (e + 1) = bound * 2 ^ e := by
      rw [zpow_add₀ (by norm_num)]
      norm_num [bound, precision]
      ring
    rw [if_pos hbound, if_neg (by dsimp only; omega), toRat, ratPow_eq_zpow, hbound, mul_assoc, mul_assoc]
    exact congrArg _ hcarry
  · rw [if_neg hbound, if_neg (by dsimp only; omega), toRat, ratPow_eq_zpow]
    norm_num

/-- A positive number that is not too large is rounded to the nearest multiple of its unit. -/
theorem exists_round {x : Rat} (hx : 0 < x) (hlt : x < limit) :
    ∃ m : Nat, Nearest m (x / 2 ^ unitExponent x) ∧ round x = m * 2 ^ unitExponent x := by
  have hnum : 0 < x.num.natAbs := Int.natAbs_pos.mpr (Rat.num_pos.mpr hx).ne'
  have hcast : (x.num.natAbs : Rat) / x.den = x := by
    have hint : (x.num.natAbs : Int) = x.num := Int.natAbs_of_nonneg (Rat.num_nonneg.mpr hx.le)
    rw [← Int.cast_natCast, hint, Rat.num_div_den]
  obtain ⟨m, hm, hvalue⟩ := exists_toRat_ofRatio (decide (x < 0)) hnum x.den_pos (by rw [hcast]; exact hlt)
  rw [hcast] at hm hvalue
  refine ⟨m, hm, ?_⟩
  rw [round, ofRat, hvalue]
  simp [hx.not_gt]

theorem round_zero : round 0 = 0 := by decide +kernel

theorem toRat_ofRatio_true (n d : Nat) : (ofRatio true n d).toRat = -(ofRatio false n d).toRat := by
  rw [ofRatio, ofRatio]
  split
  · simp [toRat]
  · dsimp only
    split_ifs <;> simp [toRat]

theorem round_neg (x : Rat) : round (-x) = -round x := by
  have hnum : (-x).num.natAbs = x.num.natAbs := by rw [Rat.neg_num, Int.natAbs_neg]
  rw [round, ofRat, hnum, Rat.neg_den, round, ofRat]
  rcases lt_trichotomy x 0 with h | rfl | h
  · simp [h, h.not_gt, toRat_ofRatio_true]
  · decide +kernel
  · simp [h, h.not_gt, toRat_ofRatio_true]

/-! ## Order -/

section Order

variable {x y : Rat} (hx : 0 < x) (hlt : x < limit)

include hx hlt

/-- A power of two that is a multiple of the unit of a number is not passed when the number is rounded. -/
theorem round_zpow_bounds {k : Int} (hk : unitExponent x ≤ k) :
    (x ≤ 2 ^ k → round x ≤ 2 ^ k) ∧ ((2 : Rat) ^ k ≤ x → 2 ^ k ≤ round x) := by
  obtain ⟨m, hm, hround⟩ := exists_round hx hlt
  obtain ⟨j, rfl⟩ := Int.le.dest hk
  have hunit := zpow_unitExponent_pos x
  have hpow : (2 : Rat) ^ (unitExponent x + j) = ((2 ^ j : Nat) : Rat) * 2 ^ unitExponent x := by
    rw [zpow_add₀ (by norm_num), mul_comm]
    norm_num
  rw [hround, hpow]
  constructor
  · intro h
    have hle : m ≤ 2 ^ j := hm.mono (.natCast _) ((div_le_iff₀ hunit).mpr h)
    gcongr
  · intro h
    have hle : 2 ^ j ≤ m := (Nearest.natCast _).mono hm ((le_div_iff₀ hunit).mpr h)
    gcongr

theorem round_pos_mono (hy : y < limit) (h : x ≤ y) : round x ≤ round y := by
  rcases (unitExponent_mono hx h).eq_or_lt with heq | hless
  · obtain ⟨m, hm, hround⟩ := exists_round hx hlt
    obtain ⟨j, hj, hround'⟩ := exists_round (hx.trans_le h) hy
    rw [heq] at hm hround
    have hle : m ≤ j := hm.mono hj (by gcongr)
    rw [hround, hround']
    gcongr
  · -- the greatest power of two up to the greater number lies between the two
    have hlog : Int.log 2 x < Int.log 2 y := by
      rw [unitExponent, unitExponent] at hless
      omega
    have hbetween : x < 2 ^ Int.log 2 y := (log_lt_iff hx _).mp hlog
    have hbelow : (2 : Rat) ^ Int.log 2 y ≤ y := (le_log_iff (hx.trans_le h) _).mp le_rfl
    have hunit : unitExponent y ≤ Int.log 2 y := by
      rw [unitExponent, unitExponent, minExponent] at hless
      rw [unitExponent, minExponent]
      omega
    calc round x ≤ 2 ^ Int.log 2 y := (round_zpow_bounds hx hlt (hless.le.trans hunit)).1 hbetween.le
      _ ≤ round y := (round_zpow_bounds (hx.trans_le h) hy hunit).2 hbelow

end Order

theorem round_nonneg {x : Rat} (hx : 0 ≤ x) (hlt : x < limit) : 0 ≤ round x := by
  rcases hx.eq_or_lt with rfl | hpos
  · rw [round_zero]
  · obtain ⟨m, -, hround⟩ := exists_round hpos hlt
    rw [hround]
    exact mul_nonneg m.cast_nonneg (zpow_unitExponent_pos x).le

/-- Of two numbers that are not too large, the greater is not rounded to less. -/
theorem round_mono {x y : Rat} (hx : -limit < x) (hy : y < limit) (h : x ≤ y) : round x ≤ round y := by
  rcases lt_or_ge 0 x with hpos | hneg
  · exact round_pos_mono hpos (h.trans_lt hy) hy h
  rcases lt_or_ge y 0 with hyneg | hypos
  · have hmono := round_pos_mono (x := -y) (y := -x) (by linarith) (by linarith) (by linarith) (by linarith)
    rw [round_neg, round_neg] at hmono
    linarith
  · have hxround := round_nonneg (x := -x) (by linarith) (by linarith)
    rw [round_neg] at hxround
    exact (by linarith : round x ≤ 0).trans (round_nonneg hypos hy)

theorem round_two_pow {k : Nat} (hk : k < 1023) : round (2 ^ k) = 2 ^ k := by
  have hpos : (0 : Rat) < 2 ^ k := by positivity
  have hunit : unitExponent (2 ^ k) ≤ k := by
    have hlog : Int.log 2 ((2 : Rat) ^ k) < k + 1 := (log_lt_iff hpos _).mpr (by
      exact_mod_cast pow_lt_pow_right₀ (by norm_num : (1 : Rat) < 2) (Nat.lt_succ_self k))
    rw [unitExponent, minExponent]
    omega
  have hbounds := round_zpow_bounds hpos (pow_lt_limit hk) hunit
  rw [zpow_natCast] at hbounds
  exact le_antisymm (hbounds.1 le_rfl) (hbounds.2 le_rfl)

end Binary64

end SourceArchive
