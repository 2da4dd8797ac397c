import SourceArchive.Text.Ranges

/-!
# Runs of case mappings

Case mappings come in runs: code points at a fixed stride that all move by the same distance.
-/

namespace SourceArchive

/-- The code points `first`, `first + stride`, … up to `last`, each mapped `shift` further on. -/
structure CaseRun where
  first : Nat
  last : Nat
  stride : Nat
  shift : Int
deriving Repr, DecidableEq

namespace CaseRun

def covers (r : CaseRun) (n : Nat) : Bool :=
  r.first ≤ n && n ≤ r.last && (n - r.first) % r.stride == 0

def apply (r : CaseRun) (n : Nat) : Nat := (n + r.shift).toNat

/-- The code point that the run sends to `n`, if there is one. -/
def source? (r : CaseRun) (n : Nat) : Option Nat :=
  let m := n - r.shift
  if 0 ≤ m ∧ r.covers m.toNat then some m.toNat else none

end CaseRun

end SourceArchive
