import SourceArchive.Number.Binary64

/-!
# The shortest decimal that reads back

Every finite number has a neighbourhood of rationals that round to it.  Of the decimals in the neighbourhood,
those with the fewest digits are the shortest, and of these the nearest to the number is taken.  The search tries
one digit, two digits and so on; on the grid of decimals with a given number of digits only the two neighbours of
the number's value can be nearest.
-/

namespace SourceArchive

/-- The decimal `digits · 10 ^ exponent`. -/
structure Decimal where
  digits : Nat
  exponent : Int
deriving Repr, DecidableEq

namespace Decimal

def toRat (d : Decimal) : Rat := d.digits * ratPow 10 d.exponent

end Decimal

namespace Shortest

/-- The rationals that round to one number: from `low` to `high`, with the ends if `closed`. -/
structure Neighbourhood where
  low : Rat
  high : Rat
  closed : Bool

/-- Whether a rational rounds to the number. -/
def Neighbourhood.holds (i : Neighbourhood) (x : Rat) : Bool :=
  if i.closed then i.low ≤ x && x ≤ i.high else i.low < x && x < i.high

/-- The neighbourhood of `magnitude · 2 ^ exponent`.  Below a power of two the numbers lie twice as close. -/
def neighbourhood (magnitude : Nat) (exponent : Int) : Neighbourhood :=
  let unit := ratPow 2 exponent
  let below : Rat :=
    if magnitude = Binary64.bound / 2 ∧ Binary64.minExponent < exponent then 1 / 4 else 1 / 2
  { low := (magnitude - below) * unit, high := (magnitude + 1 / 2) * unit, closed := magnitude % 2 == 0 }

/-- The greatest power of ten, by its exponent, that is not greater than a positive rational. -/
def leadingExponent (x : Rat) : Int :=
  if 1 ≤ x then (Nat.toDigits 10 x.floor.toNat).length - 1
  else
    let inverse := (1 / x).ceil.toNat
    0 - (Nat.toDigits 10 (inverse - 1)).length

/-- The nearest decimal to `x` with `count` digits that lies in the neighbourhood, of two equally near ones the
one whose last digit is even. -/
def onGrid? (i : Neighbourhood) (x : Rat) (leading : Int) (count : Nat) : Option Decimal :=
  let exponent := leading - count + 1
  let unit := ratPow 10 exponent
  let below := (x / unit).floor.toNat
  let distance (n : Nat) : Rat :=
    let d := x - n * unit
    if d < 0 then -d else d
  let candidates := [below, below + 1].filter fun n : Nat => i.holds (n * unit)
  match candidates with
  | [] => none
  | [n] => some ⟨n, exponent⟩
  | a :: b :: _ =>
    if distance a < distance b then some ⟨a, exponent⟩
    else if distance b < distance a then some ⟨b, exponent⟩
    else if a % 2 = 0 then some ⟨a, exponent⟩ else some ⟨b, exponent⟩

def dropZeros (d : Decimal) : Nat → Decimal
  | 0 => d
  | fuel + 1 =>
    if d.digits ≠ 0 ∧ d.digits % 10 = 0 then dropZeros ⟨d.digits / 10, d.exponent + 1⟩ fuel else d

/-- The shortest decimal that rounds to `magnitude · 2 ^ exponent`, which is positive. -/
def ofMagnitude (magnitude : Nat) (exponent : Int) : Decimal :=
  let x := magnitude * ratPow 2 exponent
  let i := neighbourhood magnitude exponent
  let leading := leadingExponent x
  let found := (List.range 17).findSome? fun k => onGrid? i x leading (k + 1)
  dropZeros (found.getD ⟨0, 0⟩) 17

end Shortest

end SourceArchive
