import SourceArchive.Settings.Checking

/-!
# The score and the verdict

An error costs one check and a warning half a check.  The score is the share of checks that is left, in percent.
It is defined for any way of rounding the results of its operations; the score that is reported rounds to binary
floating-point numbers.
-/

namespace SourceArchive

def clampPercent (x : Rat) : Rat := if x < 0 then 0 else if 100 < x then 100 else x

/-- The score, with the result of each operation rounded.  Without checks it is 100 if nothing was found and 0
otherwise. -/
def accuracyWith (round : Rat → Rat) (checks errors warnings : Nat) : Rat :=
  let deductions := round (round errors + round (round warnings / 2))
  if checks = 0 then (if deductions = 0 then 100 else 0)
  else clampPercent (round (round (1 - round (deductions / round checks)) * 100))

def accuracy (checks errors warnings : Nat) : Rat := accuracyWith Binary64.round checks errors warnings

inductive Verdict where
  | excellent
  | good
  | fair
  | needsImprovement
deriving Repr, DecidableEq

namespace Verdict

/-- Whether a score reaches a threshold. -/
def reaches (score : Rat) : Binary64 → Bool
  | .nan => false
  | .infinite negative => negative
  | threshold => threshold.toRat ≤ score

/-- The verdict on a score: the best tier that it reaches. -/
def ofAccuracy (score : Rat) (t : Tiers) : Verdict :=
  if reaches score t.excellent then excellent
  else if reaches score t.good then good
  else if reaches score t.fair then fair
  else needsImprovement

def label : Verdict → Text
  | excellent => "EXCELLENT"
  | good => "GOOD"
  | fair => "FAIR"
  | needsImprovement => "NEEDS IMPROVEMENT"

def key : Verdict → Text
  | excellent => "EXCELLENT"
  | good => "GOOD"
  | fair => "FAIR"
  | needsImprovement => "NEEDS_IMPROVEMENT"

def advice : Verdict → Text
  | excellent => "Metadata is highly accurate and suitable as a conversion reference."
  | good => "Metadata is mostly accurate. Address errors before relying on it."
  | fair => "Significant corrections needed before relying on this reference."
  | needsImprovement => "Major corrections required."

end Verdict

end SourceArchive
