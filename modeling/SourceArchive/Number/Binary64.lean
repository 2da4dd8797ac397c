/-!
# Binary floating-point numbers of 64 bits

Scores, ratios and thresholds are binary floating-point numbers.  A finite one is `± magnitude · 2 ^ exponent`,
and its value is an exact rational number, so arithmetic is rational arithmetic followed by rounding to the
nearest number, ties to even.
-/

namespace SourceArchive

/-- The quotient rounded to the nearest whole number, a half to the even neighbour. -/
def divNearest (n d : Nat) : Nat :=
  let q := n / d
  let r := n % d
  if 2 * r < d then q
  else if d < 2 * r then q + 1
  else if q % 2 = 0 then q else q + 1

def ratPow (base : Nat) (exponent : Int) : Rat :=
  if 0 ≤ exponent then Nat.pow base exponent.toNat else 1 / (Nat.pow base (-exponent).toNat : Rat)

inductive Binary64 where
  | finite (negative : Bool) (magnitude : Nat) (exponent : Int)
  | infinite (negative : Bool)
  | nan
deriving Repr, DecidableEq

namespace Binary64

def minExponent : Int := -1074

def maxExponent : Int := 971

def precision : Nat := 53

/-- What every magnitude stays below. -/
def bound : Nat := Nat.pow 2 precision

def zero : Binary64 := finite false 0 minExponent

/-- The value of a finite number; zero for the others. -/
def toRat : Binary64 → Rat
  | finite negative m e => (if negative then -1 else 1) * m * ratPow 2 e
  | infinite _ => 0
  | nan => 0

/-- The exponent of the numbers around `n / d`, where `n` and `d` are positive. -/
def exponentFor (n d : Nat) : Int :=
  let low : Int := (Nat.log2 n : Int) - (Nat.log2 d : Int) - precision
  let reaches : Bool :=
    if 0 ≤ low then d * bound * Nat.pow 2 low.toNat ≤ n else d * bound ≤ n * Nat.pow 2 (-low).toNat
  max minExponent (if reaches then low + 1 else low)

/-- The number nearest to `± n / d`, where `d` is positive. -/
def ofRatio (negative : Bool) (n d : Nat) : Binary64 :=
  if n = 0 then finite negative 0 minExponent
  else
    let e := exponentFor n d
    let m := if 0 ≤ e then divNearest n (d * Nat.pow 2 e.toNat) else divNearest (n * Nat.pow 2 (-e).toNat) d
    let (m, e) := if m = bound then (bound / 2, e + 1) else (m, e)
    if maxExponent < e then infinite negative else finite negative m e

def ofRat (x : Rat) : Binary64 := ofRatio (decide (x < 0)) x.num.natAbs x.den

def ofInt (n : Int) : Binary64 := ofRatio (decide (n < 0)) n.natAbs 1

/-- The value of the nearest number. -/
def round (x : Rat) : Rat := (ofRat x).toRat

/-- The number nearest to `± digits · 10 ^ exponent`. -/
def ofDecimal (negative : Bool) (digits : Nat) (exponent : Int) : Binary64 :=
  let leading := exponent + (Nat.toDigits 10 digits).length
  if digits = 0 ∨ leading < -400 then finite negative 0 minExponent
  else if 400 < leading then infinite negative
  else if 0 ≤ exponent then ofRatio negative (digits * Nat.pow 10 exponent.toNat) 1
  else ofRatio negative digits (Nat.pow 10 (-exponent).toNat)

/-- Whether a number is greater than or equal to another; never with `nan`. -/
def ge : Binary64 → Binary64 → Bool
  | nan, _ => false
  | _, nan => false
  | infinite false, _ => true
  | _, infinite true => true
  | infinite true, _ => false
  | _, infinite false => false
  | a, b => b.toRat ≤ a.toRat

def gt (a b : Binary64) : Bool := a.ge b && !b.ge a

end Binary64

end SourceArchive
