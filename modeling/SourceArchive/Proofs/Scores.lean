import SourceArchive.Proofs.Rounding
import SourceArchive.Score

/-!
# The score is bounded and keeps the order of runs

The score is worked out by a few operations, each of which keeps or turns the order, and so does rounding: `Rounding` is
what the score asks of a way of rounding.  Exact arithmetic and rounding to floating-point numbers are two of them.
Since numbers that are too large have no floating-point value, it is asked only of the numbers that come up for counts
below a power of two.
-/

namespace SourceArchive

/-! ## Ways of rounding -/

/-- A way of rounding that serves for counts up to `2 ^ bits`: it keeps the order, and zero, one hundred and powers of
two stay what they are. -/
structure Rounding (bits : Nat) (round : Rat → Rat) : Prop where
  mono : ∀ {x y : Rat}, -2 ^ (bits + 8) ≤ x → x ≤ y → y ≤ 2 ^ (bits + 8) → round x ≤ round y
  zero : round 0 = 0
  hundred : round 100 = 100
  power : ∀ k ≤ bits + 8, round (2 ^ k) = 2 ^ k ∧ round (-2 ^ k) = -2 ^ k

/-- Exact arithmetic is a way of rounding for counts of any size. -/
theorem rounding_id (bits : Nat) : Rounding bits id where
  mono _ h _ := h
  zero := rfl
  hundred := rfl
  power _ _ := ⟨rfl, rfl⟩

theorem Binary64.rounding {bits : Nat} (hbits : bits + 8 < 1023) : Rounding bits Binary64.round := by
  have hlimit : (2 : Rat) ^ (bits + 8) < limit := pow_lt_limit hbits
  constructor
  · intro x y hx h hy
    exact round_mono (by linarith) (by linarith) h
  · exact round_zero
  · decide +kernel
  · intro k hk
    have hpower := round_two_pow (by omega : k < 1023)
    exact ⟨hpower, by rw [round_neg, hpower]⟩

/-! ## Steps of the score -/

/-- The percentage that deductions leave of a number of checks. -/
def percentLeft (round : Rat → Rat) (deductions checks : Rat) : Rat :=
  round (round (1 - round (deductions / checks)) * 100)

/-- The deductions for errors and warnings. -/
def deductionsFor (round : Rat → Rat) (errors warnings : Nat) : Rat :=
  round (round errors + round (round warnings / 2))

theorem accuracyWith_eq (round : Rat → Rat) (checks errors warnings : Nat) :
    accuracyWith round checks errors warnings =
      if checks = 0 then (if deductionsFor round errors warnings = 0 then 100 else 0)
      else clampPercent (percentLeft round (deductionsFor round errors warnings) (round checks)) := rfl

theorem clampPercent_bounds (x : Rat) : 0 ≤ clampPercent x ∧ clampPercent x ≤ 100 := by
  rw [clampPercent]
  split_ifs
  · norm_num
  · norm_num
  · constructor <;> linarith

theorem clampPercent_mono {x y : Rat} (h : x ≤ y) : clampPercent x ≤ clampPercent y := by
  rw [clampPercent, clampPercent]
  split_ifs <;> linarith

namespace Rounding

variable {bits : Nat} {round : Rat → Rat} (h : Rounding bits round)

include h

/-- The order is kept between numbers of up to 256 times the size of a count. -/
theorem le_of_le {x y : Rat} (hx : -(256 * 2 ^ bits) ≤ x) (hle : x ≤ y) (hy : y ≤ 256 * 2 ^ bits) : round x ≤ round y := by
  have hspan : (2 : Rat) ^ (bits + 8) = 256 * 2 ^ bits := by
    rw [pow_add]
    ring
  exact h.mono (by rw [hspan]; exact hx) hle (by rw [hspan]; exact hy)

/-- A number that stays what it is is not passed from below. -/
theorem le_of_le_fixed {x y : Rat} (hy : round y = y) (hx : -(256 * 2 ^ bits) ≤ x) (hle : x ≤ y)
    (hhigh : y ≤ 256 * 2 ^ bits) : round x ≤ y := (h.le_of_le hx hle hhigh).trans_eq hy

/-- A number that stays what it is is not passed from above. -/
theorem fixed_le_of_le {x y : Rat} (hx : round x = x) (hlow : -(256 * 2 ^ bits) ≤ x) (hle : x ≤ y)
    (hy : y ≤ 256 * 2 ^ bits) : x ≤ round y := hx.symm.trans_le (h.le_of_le hlow hle hy)

theorem one : round 1 = 1 := by simpa using (h.power 0 (Nat.zero_le _)).1

theorem power_count : round (2 ^ bits) = 2 ^ bits := (h.power bits (by omega)).1

theorem double : round (2 * 2 ^ bits) = 2 * 2 ^ bits ∧ round (-(2 * 2 ^ bits)) = -(2 * 2 ^ bits) := by
  rw [← pow_succ']
  exact h.power (bits + 1) (by omega)

theorem count_spec {a b : Nat} (hab : a ≤ b) (hb : b ≤ 2 ^ bits) :
    0 ≤ round a ∧ round a ≤ round b ∧ round b ≤ 2 ^ bits := by
  have hone : (1 : Rat) ≤ 2 ^ bits := one_le_pow₀ (by norm_num)
  have hlow : (0 : Rat) ≤ a := a.cast_nonneg
  have hle : (a : Rat) ≤ b := by exact_mod_cast hab
  have hhigh : (b : Rat) ≤ 2 ^ bits := by exact_mod_cast hb
  refine ⟨?_, h.le_of_le (by linarith) hle (by linarith), ?_⟩
  · exact h.fixed_le_of_le h.zero (by linarith) hlow (by linarith)
  · exact h.le_of_le_fixed h.power_count (by linarith) hhigh (by linarith)

/-- More errors and warnings are no less deductions, and there are at most twice as many as counts. -/
theorem deductions_spec {errors errors' warnings warnings' : Nat} (he : errors ≤ errors') (hw : warnings ≤ warnings')
    (he' : errors' ≤ 2 ^ bits) (hw' : warnings' ≤ 2 ^ bits) :
    0 ≤ deductionsFor round errors warnings ∧
      deductionsFor round errors warnings ≤ deductionsFor round errors' warnings' ∧
      deductionsFor round errors' warnings' ≤ 2 * 2 ^ bits := by
  have hone : (1 : Rat) ≤ 2 ^ bits := one_le_pow₀ (by norm_num)
  obtain ⟨helow, hele, hehigh⟩ := h.count_spec he he'
  obtain ⟨hwlow, hwle, hwhigh⟩ := h.count_spec hw hw'
  have hhalf : round (round warnings / 2) ≤ round (round warnings' / 2) :=
    h.le_of_le (by linarith) (by linarith) (by linarith)
  have hhalflow : 0 ≤ round (round warnings / 2) :=
    h.fixed_le_of_le h.zero (by linarith) (by linarith) (by linarith)
  have hhalfhigh : round (round warnings' / 2) ≤ 2 ^ bits :=
    h.le_of_le_fixed h.power_count (by linarith) (by linarith) (by linarith)
  refine ⟨?_, h.le_of_le (by linarith) (by linarith) (by linarith), ?_⟩
  · exact h.fixed_le_of_le h.zero (by linarith) (by linarith) (by linarith)
  · exact h.le_of_le_fixed h.double.1 (by linarith) (by linarith) (by linarith)

/-- More deductions of fewer checks leave no greater percentage. -/
theorem percentLeft_anti {d d' c c' : Rat} (hd : 0 ≤ d) (hle : d ≤ d') (hd' : d' ≤ 2 * 2 ^ bits) (hc' : 1 ≤ c')
    (hcle : c' ≤ c) : percentLeft round d' c' ≤ percentLeft round d c := by
  have hone : (1 : Rat) ≤ 2 ^ bits := one_le_pow₀ (by norm_num)
  -- the share of the checks that is lost
  have hquot : d / c ≤ d' / c' := div_le_div₀ (hd.trans hle) hle (by linarith) hcle
  have hquotlow : 0 ≤ d / c := div_nonneg hd (by linarith)
  have hquothigh : d' / c' ≤ 2 * 2 ^ bits := (div_le_self (hd.trans hle) hc').trans hd'
  have hlost : round (d / c) ≤ round (d' / c') := h.le_of_le (by linarith) hquot (by linarith)
  have hlostlow : 0 ≤ round (d / c) := h.fixed_le_of_le h.zero (by linarith) hquotlow (by linarith)
  have hlosthigh : round (d' / c') ≤ 2 * 2 ^ bits :=
    h.le_of_le_fixed h.double.1 (by linarith) hquothigh (by linarith)
  -- the share that is left
  have hleft : round (1 - round (d' / c')) ≤ round (1 - round (d / c)) :=
    h.le_of_le (by linarith) (by linarith) (by linarith)
  have hleftlow : -(2 * 2 ^ bits) ≤ round (1 - round (d' / c')) :=
    h.fixed_le_of_le h.double.2 (by linarith) (by linarith) (by linarith)
  have hlefthigh : round (1 - round (d / c)) ≤ 1 :=
    h.le_of_le_fixed h.one (by linarith) (by linarith) (by linarith)
  exact h.le_of_le (by linarith) (by linarith) (by linarith)

theorem one_le_count {checks : Nat} (hc : 1 ≤ checks) (hc' : checks ≤ 2 ^ bits) : 1 ≤ round checks := by
  have hle := (h.count_spec hc hc').2.1
  rwa [Nat.cast_one, h.one] at hle

end Rounding

/-! ## Verdicts -/

/-- How many verdicts are better. -/
def Verdict.rank : Verdict → Nat
  | .excellent => 0
  | .good => 1
  | .fair => 2
  | .needsImprovement => 3

theorem Verdict.reaches_mono {x y : Rat} (h : x ≤ y) (threshold : Binary64) (hx : reaches x threshold = true) :
    reaches y threshold = true := by
  cases threshold with
  | nan => exact hx
  | infinite negative => exact hx
  | finite negative m e =>
    simp only [reaches, decide_eq_true_eq] at hx ⊢
    exact hx.trans h

/-- The verdict on a higher score is no worse, in whatever order the tiers are. -/
theorem Verdict.rank_ofAccuracy_anti {x y : Rat} (h : x ≤ y) (t : Tiers) :
    (ofAccuracy y t).rank ≤ (ofAccuracy x t).rank := by
  have hexcellent := reaches_mono h t.excellent
  have hgood := reaches_mono h t.good
  have hfair := reaches_mono h t.fair
  rw [ofAccuracy, ofAccuracy]
  split_ifs <;> simp_all [rank]

/-! ## The score -/

/-- A score that is a percentage, falls with errors and warnings, grows with checks, is full without findings, and gives
no better verdict to a run with more findings. -/
structure FairScore (limit : Nat) (score : Nat → Nat → Nat → Rat) : Prop where
  bounded : ∀ {c e w : Nat}, c ≤ limit → e ≤ limit → w ≤ limit → 0 ≤ score c e w ∧ score c e w ≤ 100
  anti : ∀ {c e e' w w' : Nat}, c ≤ limit → e ≤ e' → e' ≤ limit → w ≤ w' → w' ≤ limit →
    score c e' w' ≤ score c e w
  mono : ∀ {c c' e w : Nat}, 1 ≤ c → c ≤ c' → c' ≤ limit → e ≤ limit → w ≤ limit → score c e w ≤ score c' e w
  full : ∀ {c : Nat}, c ≤ limit → score c 0 0 = 100
  verdict : ∀ (t : Tiers) {c e e' w w' : Nat}, c ≤ limit → e ≤ e' → e' ≤ limit → w ≤ w' → w' ≤ limit →
    (Verdict.ofAccuracy (score c e w) t).rank ≤ (Verdict.ofAccuracy (score c e' w') t).rank

theorem Rounding.accuracyWith_anti {bits : Nat} {round : Rat → Rat} (h : Rounding bits round) {c e e' w w' : Nat}
    (hc : c ≤ 2 ^ bits) (he : e ≤ e') (he' : e' ≤ 2 ^ bits) (hw : w ≤ w') (hw' : w' ≤ 2 ^ bits) :
    accuracyWith round c e' w' ≤ accuracyWith round c e w := by
  obtain ⟨hlow, hle, hhigh⟩ := h.deductions_spec he hw he' hw'
  rw [accuracyWith_eq, accuracyWith_eq]
  by_cases hzero : c = 0
  · rw [if_pos hzero, if_pos hzero]
    by_cases hnone : deductionsFor round e' w' = 0
    · have hnone' : deductionsFor round e w = 0 := by linarith
      rw [if_pos hnone, if_pos hnone']
    · rw [if_neg hnone]
      split_ifs <;> norm_num
  · rw [if_neg hzero, if_neg hzero]
    have hchecks : 1 ≤ round c := h.one_le_count (by omega) hc
    exact clampPercent_mono (h.percentLeft_anti hlow hle hhigh hchecks le_rfl)

theorem Rounding.fairScore {bits : Nat} {round : Rat → Rat} (h : Rounding bits round) :
    FairScore (2 ^ bits) (accuracyWith round) where
  bounded {c e w} _ _ _ := by
    rw [accuracyWith_eq]
    split_ifs
    · norm_num
    · norm_num
    · exact clampPercent_bounds _
  anti hc he he' hw hw' := h.accuracyWith_anti hc he he' hw hw'
  mono {c c' e w} hc hcle hc' he hw := by
    obtain ⟨hlow, hle, hhigh⟩ := h.deductions_spec le_rfl le_rfl he hw
    have hchecks : 1 ≤ round c := h.one_le_count hc (hcle.trans hc')
    have hmore : round c ≤ round c' := (h.count_spec hcle hc').2.1
    rw [accuracyWith_eq, accuracyWith_eq, if_neg (by omega), if_neg (by omega)]
    exact clampPercent_mono (h.percentLeft_anti hlow hle hhigh hchecks hmore)
  full {c} _ := by
    have hnone : deductionsFor round 0 0 = 0 := by simp [deductionsFor, h.zero]
    have hall : percentLeft round 0 (round c) = 100 := by simp [percentLeft, h.zero, h.one, h.hundred]
    have hclamp : clampPercent 100 = 100 := by norm_num [clampPercent]
    rw [accuracyWith_eq, hnone, hall, hclamp, if_pos rfl, ite_self]
  verdict t _ _ _ _ _ hc he he' hw hw' := Verdict.rank_ofAccuracy_anti (h.accuracyWith_anti hc he he' hw hw') t

theorem FairScore.of_le {limit limit' : Nat} {score : Nat → Nat → Nat → Rat} (h : FairScore limit' score)
    (hle : limit ≤ limit') : FairScore limit score where
  bounded hc he hw := h.bounded (hc.trans hle) (he.trans hle) (hw.trans hle)
  anti hc he he' hw hw' := h.anti (hc.trans hle) he (he'.trans hle) hw (hw'.trans hle)
  mono hc hcle hc' he hw := h.mono hc hcle (hc'.trans hle) (he.trans hle) (hw.trans hle)
  full hc := h.full (hc.trans hle)
  verdict t _ _ _ _ _ hc he he' hw hw' := h.verdict t (hc.trans hle) he (he'.trans hle) hw (hw'.trans hle)

/-- The score is fair with any way of rounding that keeps the order, with exact arithmetic, and as it is reported for all
counts of 64 bits. -/
theorem accuracy_fair : (∀ bits round, Rounding bits round → FairScore (2 ^ bits) (accuracyWith round)) ∧
    (∀ limit, FairScore limit (accuracyWith id)) ∧ FairScore (2 ^ 64) accuracy := by
  refine ⟨fun bits round h => h.fairScore, fun limit => ?_, (Binary64.rounding (by decide)).fairScore⟩
  exact (rounding_id limit).fairScore.of_le Nat.lt_two_pow_self.le

theorem accuracy_fair_counts :
    Rounding 64 Binary64.round ∧ FairScore (2 ^ 64) (accuracyWith Binary64.round) ∧
      accuracyWith id 24 3 4 ≤ accuracyWith id 30 3 4 ∧
      accuracy 24 5 5 = 275 / 4 ∧ accuracy 24 5 5 ≤ accuracy 24 3 4 := by
  have hrounding : Rounding 64 Binary64.round := Binary64.rounding (by decide)
  obtain ⟨hany, hexact, hreported⟩ := accuracy_fair
  refine ⟨hrounding, hany 64 _ hrounding, ?_, by decide +kernel, ?_⟩
  · exact (hexact 30).mono (by decide) (by decide) (by decide) (by decide) (by decide)
  · exact hreported.anti (by decide) (by decide) (by decide) (by decide) (by decide)

end SourceArchive
